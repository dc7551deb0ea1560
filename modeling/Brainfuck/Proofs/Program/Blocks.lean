import Brainfuck.Program.Block
import Brainfuck.Proofs.Program.Height

/-!
# Blocks in a program

A program with balanced brackets is the text of exactly one block. The block is found by reading the
text from its end: there are always as many blocks that wait for a `[` as there are loops closed and
not opened in what has been read, and since no end of a balanced text opens more loops than it
closes, there is one whenever a `[` is read.

## A block in its place

A part of a program can be the text of a block while the rest is anything at all. `HasBlock` says
which symbols stand where, by recursion on the block. Over the text of a block the height returns to
where it was and is never lower in between, so the brackets of every loop of the block are partners
in the program.
-/

namespace Brainfuck

/-! ## Balanced texts -/

namespace Block

open Program

/-- Reading a text succeeds if no end of it opens more loops than it closes. -/
theorem visitAll_eq_some_of_le {cs : List Char}
    (h : ∀ k, opened (cs.drop k) ≤ closed (cs.drop k)) :
    ∃ b waiting, visitAll cs (nil, []) = some (b, waiting) ∧
      waiting.length + opened cs = closed cs := by
  induction cs with
  | nil => exact ⟨nil, [], rfl, rfl⟩
  | cons c cs ih =>
    obtain ⟨b, waiting, hread, hcount⟩ := ih fun k ↦ h (k + 1)
    have hall := h 0
    rw [List.drop_zero] at hall
    rw [visitAll_cons, hread]
    by_cases hstart : c = '['
    · subst hstart
      have hopened : opened ('[' :: cs) = opened cs + 1 := List.count_cons_self
      have hclosed : closed ('[' :: cs) = closed cs := List.count_cons_of_ne (by decide)
      cases waiting with
      | nil =>
        -- the text would open a loop more than it closes
        rw [List.length_nil] at hcount
        omega
      | cons rest waiting =>
        rw [List.length_cons] at hcount
        exact ⟨loop b rest, waiting, visit_start b rest waiting, by omega⟩
    · by_cases hend : c = ']'
      · subst hend
        have hopened : opened (']' :: cs) = opened cs := List.count_cons_of_ne (by decide)
        have hclosed : closed (']' :: cs) = closed cs + 1 := List.count_cons_self
        refine ⟨nil, b :: waiting, visit_end b waiting, ?_⟩
        rw [List.length_cons]
        omega
      · have hopened : opened (c :: cs) = opened cs := List.count_cons_of_ne hstart
        have hclosed : closed (c :: cs) = closed cs := List.count_cons_of_ne hend
        have hplain : Plain c := by
          rw [Plain, Ne, Ne, Command.ofChar?_eq_some_iff, Command.ofChar?_eq_some_iff]
          exact ⟨hstart, hend⟩
        exact ⟨symbol c hplain b, waiting, visit_plain hplain b waiting, by omega⟩

/-- A program with balanced brackets is the text of a block. -/
theorem exists_text_eq {p : Program} (h : p.Balanced) : ∃ b : Block, b.text = p.toList := by
  obtain ⟨hfront, htotal⟩ := h
  have hback : ∀ k, opened (p.toList.drop k) ≤ closed (p.toList.drop k) := by
    intro k
    have hopened := opened_append (p.toList.take k) (p.toList.drop k)
    have hclosed := closed_append (p.toList.take k) (p.toList.drop k)
    rw [List.take_append_drop] at hopened hclosed
    have := hfront k
    omega
  obtain ⟨b, waiting, hread, hcount⟩ := visitAll_eq_some_of_le hback
  have hnone : waiting = [] := List.length_eq_zero_iff.1 (by omega)
  refine ⟨b, parse?_eq_some_iff.1 ?_⟩
  rw [parse?, hread, hnone]

/-- No two blocks have the same text. -/
theorem text_injective {b c : Block} (h : b.text = c.text) : b = c := by
  have hparse := parse?_text b
  rw [h, parse?_text] at hparse
  exact (Option.some.inj hparse).symm

end Block

/-! ## Blocks in their places -/

namespace Program

variable {p : Program} {i : Nat}

/-- The symbols of a block stand in the program from index `i` on. -/
def HasBlock (p : Program) : Nat → Block → Prop
  | _, .nil => True
  | i, .symbol c _ rest => p[i]? = some c ∧ HasBlock p (i + 1) rest
  | i, .loop body rest =>
    p.commandAt i = some .loopStart ∧ HasBlock p (i + 1) body ∧
      p.commandAt (i + 1 + body.size) = some .loopEnd ∧ HasBlock p (i + body.size + 2) rest

/-- A program has a block wherever the block's text is a part of it. -/
theorem hasBlock_of_toList_eq {b : Block} {as bs : List Char}
    (h : p.toList = as ++ (b.text ++ bs)) : p.HasBlock as.length b := by
  induction b generalizing as bs with
  | nil => trivial
  | symbol c plain rest ih =>
    rw [Block.text, List.cons_append] at h
    refine ⟨getElem?_of_toList_eq h, ?_⟩
    have hrest : p.toList = (as ++ [c]) ++ (rest.text ++ bs) := by
      rw [h, List.append_assoc, List.singleton_append]
    have hplace := ih hrest
    rw [List.length_append] at hplace
    exact hplace
  | loop body rest ihb ihr =>
    -- the same text four times, cut in front of each part of the loop
    have hstart : p.toList = as ++ '[' :: (body.text ++ ']' :: (rest.text ++ bs)) := by
      rw [h, Block.text, List.cons_append, List.append_assoc, List.cons_append]
    have hbody : p.toList = (as ++ ['[']) ++ (body.text ++ ']' :: (rest.text ++ bs)) := by
      rw [hstart, List.append_assoc, List.singleton_append]
    have hend : p.toList = (as ++ ['['] ++ body.text) ++ ']' :: (rest.text ++ bs) := by
      rw [hbody, ← List.append_assoc]
    have hrest : p.toList = (as ++ ['['] ++ body.text ++ [']']) ++ (rest.text ++ bs) := by
      rw [hend, List.append_assoc _ [']'], List.singleton_append]
    have hbodyAt := ihb hbody
    have hendAt := getElem?_of_toList_eq hend
    have hrestAt := ihr hrest
    simp only [List.length_append, List.length_singleton, Block.length_text]
      at hbodyAt hendAt hrestAt
    refine ⟨commandAt_eq_some_iff.2 (getElem?_of_toList_eq hstart), hbodyAt,
      commandAt_eq_some_iff.2 hendAt, ?_⟩
    rw [show as.length + body.size + 2 = as.length + 1 + body.size + 1 by omega]
    exact hrestAt

/-- The text of a block is in its place in the program that is the text. -/
theorem hasBlock_zero {b : Block} (h : b.text = p.toList) : p.HasBlock 0 b := by
  have hp : p.toList = [] ++ (b.text ++ []) := by rw [List.append_nil, h, List.nil_append]
  exact hasBlock_of_toList_eq hp

/-- Brackets around a stretch that is level and nowhere lower are partners. -/
theorem isLoop_of_level {n : Nat} (hstart : p.commandAt i = some .loopStart)
    (hend : p.commandAt (i + 1 + n) = some .loopEnd)
    (hlevel : p.height (i + 1 + n) = p.height (i + 1))
    (hstay : ∀ k, i + 1 ≤ k → k ≤ i + 1 + n → p.height (i + 1) ≤ p.height k) :
    p.IsLoop i (i + 1 + n) := by
  have hup := height_succ_of_start hstart
  have hdown := height_succ_of_end hend
  refine ⟨by omega, by omega, fun k hik hkn ↦ ?_⟩
  have := hstay k hik hkn
  omega

/-- The height is the same in front of a block and behind it, and nowhere lower in between. -/
theorem HasBlock.height_le {b : Block} (h : p.HasBlock i b) :
    p.height (i + b.size) = p.height i ∧
      ∀ k, i ≤ k → k ≤ i + b.size → p.height i ≤ p.height k := by
  induction b generalizing i with
  | nil =>
    refine ⟨rfl, fun k hik hki ↦ ?_⟩
    obtain rfl : i = k := Nat.le_antisymm hik hki
    exact Int.le_refl _
  | symbol c plain rest ih =>
    obtain ⟨hc, hrest⟩ := h
    have hheight : p.height (i + 1) = p.height i := by
      have hcommand := commandAt_of_getElem? hc
      exact height_succ_of_ne (by rw [hcommand]; exact plain.1) (by rw [hcommand]; exact plain.2)
    obtain ⟨hlevel, hstay⟩ := ih hrest
    rw [Block.size, show i + (rest.size + 1) = i + 1 + rest.size by omega]
    refine ⟨by omega, fun k hik hk ↦ ?_⟩
    rcases Nat.eq_or_lt_of_le hik with rfl | hlt
    · exact Int.le_refl _
    · have := hstay k hlt hk
      omega
  | loop body rest ihb ihr =>
    obtain ⟨hstart, hbody, hend, hrest⟩ := h
    obtain ⟨hbodyLevel, hbodyStay⟩ := ihb hbody
    obtain ⟨hlevel, hstay⟩ := ihr hrest
    have hloop := isLoop_of_level hstart hend hbodyLevel hbodyStay
    have hback := hloop.level
    rw [show i + 1 + body.size + 1 = i + body.size + 2 by omega] at hback
    rw [Block.size, show i + (body.size + rest.size + 2) = i + body.size + 2 + rest.size by omega]
    refine ⟨by omega, fun k hik hk ↦ ?_⟩
    rcases Nat.eq_or_lt_of_le hik with rfl | hlt
    · exact Int.le_refl _
    · rcases Nat.lt_or_ge k (i + body.size + 2) with hin | hout
      · exact Int.le_of_lt (hloop.above k hlt (by omega))
      · have := hstay k hout hk
        omega

/-- The brackets of a loop of a block are partners in the program. -/
theorem HasBlock.isLoop {body rest : Block} (h : p.HasBlock i (.loop body rest)) :
    p.IsLoop i (i + 1 + body.size) := by
  obtain ⟨hstart, hbody, hend, -⟩ := h
  obtain ⟨hlevel, hstay⟩ := hbody.height_le
  exact isLoop_of_level hstart hend hlevel hstay

end Program

end Brainfuck
