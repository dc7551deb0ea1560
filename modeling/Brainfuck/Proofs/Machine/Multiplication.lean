import Brainfuck.Proofs.Machine.Postconditions

/-!
# The program that multiplies

A row of `a` times `+` puts a number into the cell at `0`, and the program then makes as many turns
of its outer loop. In each turn `b` times `+` put a second number into the cell at `1`, and the
inner loop moves it over to the cell at `2`, one by one. So in the end the cell at `2` holds the
product.

## The invariants

All cells are bytes, and the numbers of `+` are any numbers, so nothing can be said about the cells
but modulo `256`. What the inner loop keeps is the sum of the cells at `1` and `2`. What the outer
loop keeps is the cell at `2` together with what the turns that are still to come will add to it,
which is `b` for each of them. The cells at `0` and `1` are `0` when their loops are left, so the
sum and the product are what is found in the cell at `2`. An operand that is a multiple of `256`
needs no special care: its loop is left at once, and it counts as `0` in the invariant.
-/

namespace Brainfuck

/-- The program that multiplies `a` and `b`. -/
def Program.product (a b : Nat) : Program :=
  (List.replicate a '+' ++ "[>".toList ++ List.replicate b '+' ++ "[>+<-]<-]>>".toList).toArray

/-! ## Three cells -/

namespace Tape

/-- As many `+` as one likes add their number to the cell under the head. -/
theorem workAll_replicate (n : Nat) (t : Tape) (h : Int) :
    ∃ u : Tape, workAll (List.replicate n '+') (t, h) = (u, h) ∧
      ∀ a, u.get a = if h = a then t.get a + .ofNat n else t.get a := by
  induction n generalizing t with
  | zero => exact ⟨t, rfl, fun a ↦ by simp⟩
  | succ n ih =>
    obtain ⟨u, hu, hget⟩ := ih (t.increment h).2
    refine ⟨u, ?_, fun a ↦ ?_⟩
    · rw [List.replicate_succ]
      exact hu
    · rw [hget, increment_snd, get_set]
      split
      · next ha =>
        subst ha
        rw [Nat.add_comm, UInt8.ofNat_add, UInt8.add_assoc]
        rfl
      · rfl

/-- A row of cells with `x`, `y` and `z` at the addresses `0`, `1` and `2`, and `0` elsewhere. -/
def row (x y z : UInt8) (a : Int) : UInt8 :=
  if a = 0 then x else if a = 1 then y else if a = 2 then z else 0

/-- The head is at `h`, over a row of cells with `x`, `y` and `z`. -/
structure ShowsRow (h : Int) (x y z : UInt8) (tape : Tape × Int) : Prop where
  head : tape.2 = h
  get : ∀ a, tape.1.get a = row x y z a

namespace ShowsRow

variable {x y z : UInt8} {tape : Tape × Int}

theorem cell {ω ι : Type} {k : Int} (h : ShowsRow k x y z tape) (s : State ω ι) :
    (s.place tape).cell = row x y z k := by
  have hcell : (s.place tape).cell = tape.1.get tape.2 := rfl
  rw [hcell, h.head, h.get]

theorem operand (n : Nat) (h : ShowsRow 0 x y z tape) :
    ShowsRow 0 (x + .ofNat n) y z (workAll (List.replicate n '+') tape) := by
  obtain ⟨t, _⟩ := tape
  obtain ⟨rfl, hget⟩ := h
  obtain ⟨u, hu, huget⟩ := workAll_replicate n t 0
  rw [hu]
  refine ⟨rfl, fun a ↦ ?_⟩
  rw [huget, hget]
  grind [row]

theorem factor (n : Nat) (h : ShowsRow 0 x y z tape) :
    ShowsRow 1 x (y + .ofNat n) z (workAll ('>' :: List.replicate n '+') tape) := by
  obtain ⟨t, _⟩ := tape
  obtain ⟨rfl, hget⟩ := h
  obtain ⟨u, hu, huget⟩ := workAll_replicate n t 1
  have hwork : workAll ('>' :: List.replicate n '+') (t, 0) = (u, 1) := hu
  rw [hwork]
  refine ⟨rfl, fun a ↦ ?_⟩
  rw [huget, hget]
  grind [row]

theorem move (h : ShowsRow 1 x y z tape) :
    ShowsRow 1 x (y - 1) (z + 1) (workAll ">+<-".toList tape) := by
  obtain ⟨t, _⟩ := tape
  obtain ⟨rfl, hget⟩ := h
  let u := t.set 2 (t.get 2 + 1)
  have hwork : workAll ">+<-".toList (t, 1) = (u.set 1 (u.get 1 - 1), 1) := rfl
  rw [hwork]
  refine ⟨rfl, fun a ↦ ?_⟩
  simp only [u, get_set, hget]
  grind [row]

theorem next (h : ShowsRow 1 x y z tape) : ShowsRow 0 (x - 1) y z (workAll "<-".toList tape) := by
  obtain ⟨t, _⟩ := tape
  obtain ⟨rfl, hget⟩ := h
  have hwork : workAll "<-".toList (t, 1) = (t.set 0 (t.get 0 - 1), 0) := rfl
  rw [hwork]
  refine ⟨rfl, fun a ↦ ?_⟩
  simp only [get_set, hget]
  grind [row]

theorem finish (h : ShowsRow 0 x y z tape) : ShowsRow 2 x y z (workAll ">>".toList tape) := by
  obtain ⟨t, _⟩ := tape
  obtain ⟨rfl, hget⟩ := h
  exact ⟨rfl, hget⟩

end ShowsRow

end Tape

open Tape

variable {ω ι : Type}

/-! ## The two loops -/

namespace Block

theorem worksOnTape_of_mem_replicate {n : Nat} {c : Char} (h : c ∈ List.replicate n '+') :
    worksOnTape (Command.ofChar? c) = true := by
  rw [List.eq_of_mem_replicate h]
  rfl

/-- The loop that moves the cell at `1` over to the cell at `2`, and what follows it. -/
def moving (rest : Block) : Block := loop (straight ">+<-".toList (List.all_eq_true.1 rfl) nil) rest

/-- One turn of the outer loop. -/
def addition (b : Nat) : Block :=
  straight ('>' :: List.replicate b '+')
    (List.forall_mem_cons.2 ⟨rfl, fun _ ↦ worksOnTape_of_mem_replicate⟩)
    (moving (straight "<-".toList (List.all_eq_true.1 rfl) nil))

/-- The block of the program that multiplies. -/
def product (a b : Nat) : Block :=
  straight (List.replicate a '+') (fun _ ↦ worksOnTape_of_mem_replicate)
    (loop (addition b) (straight ">>".toList (List.all_eq_true.1 rfl) nil))

theorem text_product (a b : Nat) : (product a b).text = (Program.product a b).toList := by
  simp [product, addition, moving, text, text_straight, Program.product]

variable [OutputDevice ω] [InputDevice ι] {s : State ω ι} {i : Nat} {x y z : UInt8}
  {tape : Tape × Int} {rest : Block} {post : State ω ι → Prop}

/-- The inner loop keeps the sum of the cells at `1` and `2`. -/
theorem achieves_moving
    (hrest : ∀ tape, ShowsRow 1 x 0 (y + z) tape → Achieves (i + 6) rest (s.place tape) post)
    (h : ShowsRow 1 x y z tape) : Achieves i (moving rest) (s.place tape) post := by
  let inv (u : State ω ι) : Prop :=
    ∃ tape v w, u = s.place tape ∧ ShowsRow 1 x v w tape ∧ v + w = y + z
  have hinv : inv (s.place tape) := ⟨tape, y, z, rfl, h, rfl⟩
  refine achieves_countdown (I := inv) ?_ ?_ hinv
  · rintro _ ⟨tape, v, w, rfl, htape, hsum⟩ -
    refine achieves_straight (achieves_nil ⟨?_, ?_⟩)
    · refine ⟨_, v - 1, w + 1, rfl, htape.move, ?_⟩
      rw [← hsum]
      grind
    · rw [htape.cell s]
      exact htape.move.cell s
  · rintro _ ⟨tape, v, w, rfl, htape, hsum⟩ hzero
    obtain rfl : v = 0 := (htape.cell s).symm.trans hzero
    rw [UInt8.zero_add] at hsum
    exact hrest tape (hsum ▸ htape)

/-- A turn of the outer loop adds the second operand to the cell at `2`. -/
theorem achieves_addition (b : Nat) (h : ShowsRow 0 x 0 z tape)
    (hpost : ∀ tape, ShowsRow 0 (x - 1) 0 (.ofNat b + z) tape → post (s.place tape)) :
    Achieves i (addition b) (s.place tape) post := by
  have hfactor := h.factor b
  rw [UInt8.zero_add] at hfactor
  exact achieves_straight (achieves_moving
    (fun tape htape ↦ achieves_straight (achieves_nil (hpost _ htape.next))) hfactor)

/-- The program leaves the product in the cell at `2`, where its head comes to rest, and `0` in
every other cell. -/
theorem achieves_product (a b : Nat) (h : ShowsRow 0 0 0 0 tape) :
    Achieves i (product a b) (s.place tape) fun u ↦
      ∃ tape, u = s.place tape ∧ ShowsRow 2 0 0 (.ofNat (a * b)) tape := by
  have hoperand := h.operand a
  rw [UInt8.zero_add] at hoperand
  let inv (u : State ω ι) : Prop :=
    ∃ tape v w, u = s.place tape ∧ ShowsRow 0 v 0 w tape ∧ w + v * .ofNat b = .ofNat (a * b)
  have hinv : inv (s.place (workAll (List.replicate a '+') tape)) := by
    refine ⟨_, .ofNat a, 0, rfl, hoperand, ?_⟩
    rw [UInt8.zero_add, UInt8.ofNat_mul]
  refine achieves_straight (achieves_countdown (I := inv) ?_ ?_ hinv)
  · rintro _ ⟨tape, v, w, rfl, htape, hsum⟩ -
    refine achieves_addition b htape fun tape' htape' ↦ ⟨?_, ?_⟩
    · refine ⟨tape', v - 1, .ofNat b + w, rfl, htape', ?_⟩
      rw [← hsum]
      grind
    · rw [htape.cell s]
      exact htape'.cell s
  · rintro _ ⟨tape, v, w, rfl, htape, hsum⟩ hzero
    obtain rfl : v = 0 := (htape.cell s).symm.trans hzero
    rw [UInt8.zero_mul, UInt8.add_zero] at hsum
    exact achieves_straight (achieves_nil ⟨_, rfl, hsum ▸ htape.finish⟩)

end Block

/-! ## Runs -/

namespace Machine

variable [OutputDevice ω] [InputDevice ι]

/-- **Multiplication.** For all numbers `a` and `b`, and with any devices, the program of `a` times
`+`, `[>`, `b` times `+` and `[>+<-]<-]>>` ends well on a blank tape. Its head is then at `2`, over
a cell that holds `a * b` modulo `256`, and every other cell, those at `0` and `1` among them, holds
`0`. The devices have not been used. -/
theorem nested_loops_multiply (output : Option ω) (input : Option ι) (policy : FailurePolicy)
    (a b : Nat) :
    let start : Machine ω ι := { program := .product a b, state := { output, input, policy } }
    ∃ fuel m, run fuel start = some (.ok (), m) ∧ m.ip = start.program.size ∧
      m.state = { start.state with tape := m.state.tape, head := 2 } ∧
      ∀ c, (m.state.tape.get c).toNat = if c = 2 then a * b % 256 else 0 := by
  intro start
  have hblank : ShowsRow 0 0 0 0 (.blank, 0) := ⟨rfl, fun a ↦ by simp [row]⟩
  obtain ⟨n, _, hrun, ⟨t, _⟩, rfl, rfl, hget⟩ :=
    (Block.achieves_product (s := start.state) (i := 0) a b hblank).exists_run
      (Block.text_product a b) 0
  refine ⟨n, _, hrun, rfl, rfl, fun c ↦ ?_⟩
  refine (congrArg UInt8.toNat (hget c)).trans ?_
  by_cases hc : c = 2
  · subst hc
    exact UInt8.toNat_ofNat'
  · simp [row, hc]

end Machine

end Brainfuck
