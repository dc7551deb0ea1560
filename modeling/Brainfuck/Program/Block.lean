import Brainfuck.Program.Basic

/-!
# Blocks

A block is a program with its loops made out: a row of symbols and loops, where the body of a loop
is a block again. A block has exactly one text, and a text whose brackets match has exactly one
block.

## Reading a text from its end

Reading starts at the end of the text, so that what follows a symbol is known when the symbol is
read. A `]` starts a new block for the body that it ends; the block behind it has to wait until the
`[` of that body is found.
-/

namespace Brainfuck

/-- A symbol that is not a bracket. -/
def Plain (c : Char) : Prop :=
  Command.ofChar? c ≠ some .loopStart ∧ Command.ofChar? c ≠ some .loopEnd

instance (c : Char) : Decidable (Plain c) := inferInstanceAs (Decidable (_ ∧ _))

/-- A program with its loops made out. -/
inductive Block where
  /-- The end of the block. -/
  | nil
  /-- A symbol that is not a bracket, and the rest of the block. -/
  | symbol (c : Char) (plain : Plain c) (rest : Block)
  /-- A loop, and the rest of the block. -/
  | loop (body rest : Block)
deriving DecidableEq

namespace Block

/-- The text of a block. -/
def text : Block → List Char
  | nil => []
  | symbol c _ rest => c :: rest.text
  | loop body rest => '[' :: (body.text ++ ']' :: rest.text)

/-- How many symbols there are in the text of a block. -/
def size : Block → Nat
  | nil => 0
  | symbol _ _ rest => rest.size + 1
  | loop body rest => body.size + rest.size + 2

theorem length_text (b : Block) : b.text.length = b.size := by
  induction b with
  | nil => rfl
  | symbol c plain rest ih => rw [text, size, List.length_cons, ih]
  | loop body rest ihb ihr =>
    rw [text, size, List.length_cons, List.length_append, List.length_cons, ihb, ihr]
    omega

/-- Put one block in front of another. -/
def append : Block → Block → Block
  | nil, b => b
  | symbol c plain rest, b => symbol c plain (rest.append b)
  | loop body rest, b => loop body (rest.append b)

@[simp] theorem append_nil (b : Block) : b.append nil = b := by
  induction b with
  | nil => rfl
  | symbol c plain rest ih => rw [append, ih]
  | loop body rest _ ih => rw [append, ih]

/-! ## Reading -/

/-- The block in front of which the next symbol stands, and the blocks that wait for a `[`, the
innermost first. -/
abbrev Unfinished := Block × List Block

/-- Put one more symbol in front. There is no way to do so for a `[` that nothing waits for. -/
def place (c : Char) (b : Block) (waiting : List Block) : Option Unfinished :=
  if plain : Plain c then some (symbol c plain b, waiting)
  else if Command.ofChar? c = some .loopEnd then some (nil, b :: waiting)
  else
    match waiting with
    | [] => none
    | rest :: waiting => some (loop b rest, waiting)

/-- Put one more symbol in front, if there is a block to put it in front of. -/
def visit (c : Char) (u : Option Unfinished) : Option Unfinished := u.bind fun u ↦ place c u.1 u.2

/-- Put the symbols of a text in front of a block. -/
def visitAll (cs : List Char) (u : Unfinished) : Option Unfinished := cs.foldr visit (some u)

/-- The block with the given text. -/
def parse? (cs : List Char) : Option Block :=
  match visitAll cs (nil, []) with
  | some (b, []) => some b
  | _ => none

theorem visitAll_cons (c : Char) (cs : List Char) (u : Unfinished) :
    visitAll (c :: cs) u = visit c (visitAll cs u) := rfl

theorem visitAll_append (as bs : List Char) (u : Unfinished) :
    visitAll (as ++ bs) u = (visitAll bs u).bind (visitAll as) := by
  induction as with
  | nil =>
    cases h : visitAll bs u with
    | none => exact h
    | some v => exact h
  | cons a as ih =>
    rw [List.cons_append, visitAll_cons, ih]
    cases visitAll bs u with
    | none => rfl
    | some v => rfl

@[simp] theorem visit_plain {c : Char} (plain : Plain c) (b : Block) (waiting : List Block) :
    visit c (some (b, waiting)) = some (symbol c plain b, waiting) := by
  simp [visit, place, plain]

@[simp] theorem visit_end (b : Block) (waiting : List Block) :
    visit ']' (some (b, waiting)) = some (nil, b :: waiting) := by
  have hplain : ¬ Plain ']' := by decide
  have hend : Command.ofChar? ']' = some .loopEnd := rfl
  simp [visit, place, hplain, hend]

@[simp] theorem visit_start (b rest : Block) (waiting : List Block) :
    visit '[' (some (b, rest :: waiting)) = some (loop b rest, waiting) := by
  have hplain : ¬ Plain '[' := by decide
  have hstart : Command.ofChar? '[' = some .loopStart := rfl
  simp [visit, place, hplain, hstart]

/-- Reading the text of a block in front of another puts the one block in front of the other. -/
theorem visitAll_text (b c : Block) (waiting : List Block) :
    visitAll b.text (c, waiting) = some (b.append c, waiting) := by
  induction b generalizing c waiting with
  | nil => rfl
  | symbol d plain rest ih =>
    rw [text, visitAll_cons, ih, visit_plain plain, append]
  | loop body rest ihb ihr =>
    rw [text, visitAll_cons, visitAll_append, visitAll_cons, ihr, visit_end, Option.bind_some,
      ihb, append_nil, visit_start, append]

/-- Reading the text of a block gives the block back. -/
theorem parse?_text (b : Block) : parse? b.text = some b := by
  rw [parse?, visitAll_text, append_nil]

/-! ## What was read -/

/-- The symbols that have been read when a block and the blocks that wait are as given. -/
def Unfinished.text (u : Unfinished) : List Char :=
  u.1.text ++ u.2.flatMap fun b ↦ ']' :: b.text

theorem text_visit {c : Char} {u v : Unfinished} (h : visit c (some u) = some v) :
    v.text = c :: u.text := by
  obtain ⟨b, waiting⟩ := u
  rw [visit, Option.bind_some] at h
  unfold place at h
  split at h
  · obtain rfl := Option.some.inj h
    rfl
  · next hplain =>
    split at h
    · next hend =>
      obtain rfl := Option.some.inj h
      obtain rfl : c = ']' := Command.ofChar?_eq_some_iff.1 hend
      rfl
    · next hend =>
      -- A bracket that is not a `]` is a `[`.
      have hstart : Command.ofChar? c = some .loopStart :=
        Classical.byContradiction fun hstart ↦ hplain ⟨hstart, hend⟩
      obtain rfl : c = '[' := Command.ofChar?_eq_some_iff.1 hstart
      cases waiting with
      | nil => exact absurd h (by simp)
      | cons rest waiting =>
        obtain rfl := Option.some.inj h
        simp [Unfinished.text, text]

theorem text_visitAll {cs : List Char} {u v : Unfinished} (h : visitAll cs u = some v) :
    v.text = cs ++ u.text := by
  induction cs generalizing v with
  | nil =>
    obtain rfl := Option.some.inj h
    rfl
  | cons c cs ih =>
    rw [visitAll_cons] at h
    cases hcs : visitAll cs u with
    | none =>
      rw [hcs] at h
      exact absurd h (by simp [visit])
    | some w =>
      rw [hcs] at h
      rw [text_visit h, ih hcs, List.cons_append]

/-- A text can be read exactly if it is the text of a block, and that block is what is read. -/
theorem parse?_eq_some_iff {cs : List Char} {b : Block} : parse? cs = some b ↔ b.text = cs := by
  constructor
  · intro h
    rw [parse?] at h
    split at h
    · next b' hb' =>
      obtain rfl := Option.some.inj h
      simpa [Unfinished.text, text] using text_visitAll hb'
    · exact absurd h (by simp)
  · rintro rfl
    exact parse?_text b

end Block

end Brainfuck
