import Brainfuck.Proofs.Machine.Steps

/-!
# Straight words

A word of `+`, `-`, `>`, `<` and comments is *straight*: it is executed from its first symbol to its
last, wherever it stands in a program, and nothing on the way fails or uses a device. What it does
is a map on tapes with a head.

## Words that do nothing

A word *restores* the tape if every cell holds after it what it held before, and the head is back
where it was, whatever the tape and the head were. The cells on the way may have become touched. A
straight word cannot tell one cell from another, nor read a value: it moves the head by a fixed
distance, and adds fixed bytes to the cells at fixed distances from the head. So it restores every
tape if it restores the blank one, and this can be decided.
-/

namespace Brainfuck

/-! ## Tapes -/

namespace Tape

variable {t u v : Tape} {a : Int}

/-- The tape `u` reads like `t`, and all cells that are touched in `t` are touched in it. -/
structure Covers (u t : Tape) : Prop where
  get_eq : ∀ a, u.get a = t.get a
  touched : ∀ a, t.Touched a → u.Touched a

theorem Covers.refl (t : Tape) : t.Covers t := ⟨fun _ ↦ rfl, fun _ h ↦ h⟩

theorem Covers.trans (h : v.Covers u) (h' : u.Covers t) : v.Covers t :=
  ⟨fun a ↦ (h.get_eq a).trans (h'.get_eq a), fun a ha ↦ h.touched a (h'.touched a ha)⟩

/-- Storing keeps the values alike and the touched cells inside each other. -/
theorem Covers.set (h : u.Covers t) (a : Int) (b : UInt8) : (u.set a b).Covers (t.set a b) := by
  refine ⟨fun c ↦ ?_, fun c hc ↦ ?_⟩
  · rw [get_set, get_set, h.get_eq]
  · rw [touched_set_iff] at hc ⊢
    exact hc.imp_right (h.touched c)

/-- What a symbol makes of a tape and the address of its head, if it has to do with nothing else. -/
def work : Tape × Int → Option Command → Tape × Int
  | (t, h), some .right => (t, h + 1)
  | (t, h), some .left => (t, h - 1)
  | (t, h), some .increment => ((t.increment h).2, h)
  | (t, h), some .decrement => ((t.decrement h).2, h)
  | x, _ => x

/-- What a word makes of a tape and the address of its head. -/
def workAll (w : List Char) (x : Tape × Int) : Tape × Int :=
  w.foldl (fun x c ↦ work x (Command.ofChar? c)) x

/-- A cell that is touched stays so. -/
theorem touched_work {x : Tape × Int} (h : x.1.Touched a) (c : Option Command) :
    (work x c).1.Touched a := by
  obtain ⟨t, head⟩ := x
  cases c with
  | none => exact h
  | some op =>
    cases op with
    | increment => exact (touched_set_iff t head a _).2 (Or.inr h)
    | decrement => exact (touched_set_iff t head a _).2 (Or.inr h)
    | _ => exact h

theorem touched_workAll {x : Tape × Int} (h : x.1.Touched a) (w : List Char) :
    (workAll w x).1.Touched a := by
  induction w generalizing x with
  | nil => exact h
  | cons c w ih => exact ih (touched_work h (Command.ofChar? c))

/-- What has been done to the tape `y` with its head is what has been done to `x`, added to the tape
`t` with its head at `h`. -/
structure Adds (t : Tape) (h : Int) (x y : Tape × Int) : Prop where
  head_eq : y.2 = h + x.2
  get_eq : ∀ a, y.1.get a = t.get a + x.1.get (a - h)

/-- Adding a byte under the head is done to both tapes alike. -/
theorem Adds.set {h : Int} {x y : Tape × Int} (hxy : Adds t h x y) (b : UInt8) :
    Adds t h (x.1.set x.2 (x.1.get x.2 + b), x.2) (y.1.set y.2 (y.1.get y.2 + b), y.2) := by
  refine ⟨hxy.head_eq, fun a ↦ ?_⟩
  have hdistance : y.2 = a ↔ x.2 = a - h := by
    rw [hxy.head_eq]
    omega
  simp only [get_set, hdistance]
  split
  · next heq =>
    obtain rfl := hdistance.2 heq
    rw [hxy.get_eq, ← heq, UInt8.add_assoc]
  · exact hxy.get_eq a

/-- A symbol does the same under any head, and to any value. -/
theorem Adds.work {h : Int} {x y : Tape × Int} (hxy : Adds t h x y) (c : Option Command) :
    Adds t h (work x c) (work y c) := by
  cases c with
  | none => exact hxy
  | some op =>
    cases op with
    | right => exact ⟨by rw [Tape.work, Tape.work, hxy.head_eq, Int.add_assoc], hxy.get_eq⟩
    | left => exact ⟨by rw [Tape.work, Tape.work, hxy.head_eq, Int.add_sub_assoc], hxy.get_eq⟩
    | increment => exact hxy.set 1
    | decrement =>
      have hset := hxy.set (-1)
      rw [← UInt8.sub_eq_add_neg, ← UInt8.sub_eq_add_neg] at hset
      exact hset
    | _ => exact hxy

theorem Adds.workAll {h : Int} {x y : Tape × Int} (hxy : Adds t h x y) (w : List Char) :
    Adds t h (workAll w x) (workAll w y) := by
  induction w generalizing x y with
  | nil => exact hxy
  | cons c w ih => exact ih (hxy.work (Command.ofChar? c))

/-- A word adds to any tape what it makes of the blank one. -/
theorem adds_workAll (w : List Char) (t : Tape) (h : Int) :
    Adds t h (workAll w (blank, 0)) (workAll w (t, h)) := by
  apply Adds.workAll
  refine ⟨(Int.add_zero h).symm, fun a ↦ ?_⟩
  rw [get_blank, UInt8.add_zero]

end Tape

/-! ## Symbols -/

/-- Whether a symbol does nothing but work on the tape: it is no bracket and uses no device. -/
def worksOnTape : Option Command → Bool
  | none | some .right | some .left | some .increment | some .decrement => true
  | some .output | some .input | some .loopStart | some .loopEnd => false

theorem ne_bracket_of_worksOnTape {c : Option Command} (h : worksOnTape c = true) :
    c ≠ some .loopStart ∧ c ≠ some .loopEnd := by
  constructor
  · rintro rfl
    cases h
  · rintro rfl
    cases h

/-- All symbols of the program do nothing but work on the tape. -/
def Program.IsStraight (w : Program) : Prop :=
  ∀ c ∈ w.toList, worksOnTape (Command.ofChar? c) = true

instance (w : Program) : Decidable w.IsStraight := List.decidableBAll _ w.toList

theorem Program.IsStraight.worksOnTape {w : Program} (hw : w.IsStraight) (i : Nat) :
    worksOnTape (w.commandAt i) = true := by
  rw [commandAt]
  cases h : w[i]? with
  | none => rfl
  | some c => exact hw c (Array.mem_toList_iff.2 (Array.mem_of_getElem? h))

variable {ω ι : Type}

/-- The state with another tape, and the head at another place. -/
def State.place (s : State ω ι) (x : Tape × Int) : State ω ι := { s with tape := x.1, head := x.2 }

variable [OutputDevice ω] [InputDevice ι]

theorem State.exec_of_worksOnTape {c : Option Command} (h : worksOnTape c = true) (s : State ω ι)
    (i : Nat) : s.exec i c = (.ok (), s.place (Tape.work (s.tape, s.head) c)) := by
  cases c with
  | none => rfl
  | some op =>
    cases op with
    | right => rfl
    | left => rfl
    | increment => rfl
    | decrement => rfl
    | _ => cases h

/-! ## Machines -/

namespace Machine

variable {m : Machine ω ι} {a w b : List Char}

theorem step_of_worksOnTape (hip : m.ip < m.program.size) (h : worksOnTape m.command? = true) :
    m.step =
      (.ok (),
        { m with
          ip := m.ip + 1
          steps := m.steps + 1
          state := m.state.place (Tape.work (m.state.tape, m.state.head) m.command?) }) := by
  obtain ⟨hstart, hend⟩ := ne_bracket_of_worksOnTape h
  rw [step_of_target_ok (target_of_ne hip hstart hend), State.exec_of_worksOnTape h]

/-- The machine behind a straight word. -/
def past (w : List Char) (m : Machine ω ι) : Machine ω ι :=
  { m with
    ip := m.ip + w.length
    steps := m.steps + w.length
    state := m.state.place (Tape.workAll w (m.state.tape, m.state.head)) }

/-- At the first symbol of a straight word. -/
theorem step_straight {c : Char} (hc : worksOnTape (Command.ofChar? c) = true)
    (hprogram : m.program.toList = a ++ (c :: w)) (hip : m.ip = a.length) :
    m.ip < m.program.size ∧ worksOnTape m.command? = true ∧ m.step = (.ok (), m.past [c]) := by
  have hget : m.program[m.ip]? = some c := hip ▸ Program.getElem?_of_toList_eq hprogram
  have hcommand : m.command? = Command.ofChar? c := Program.commandAt_of_getElem? hget
  have hlt : m.ip < m.program.size := (Array.getElem?_eq_some_iff.1 hget).1
  rw [← hcommand] at hc
  refine ⟨hlt, hc, ?_⟩
  rw [step_of_worksOnTape hlt hc, hcommand]
  rfl

/-- A straight word is executed from its first symbol to its last. -/
theorem stepMany_straight (hw : ∀ c ∈ w, worksOnTape (Command.ofChar? c) = true)
    (hprogram : m.program.toList = a ++ (w ++ b)) (hip : m.ip = a.length) :
    stepMany w.length m = (.ok (), m.past w) := by
  induction w generalizing m a with
  | nil => rfl
  | cons c w ih =>
    obtain ⟨-, -, hstep⟩ := step_straight (hw c List.mem_cons_self) hprogram hip
    have hrest : ∀ c ∈ w, worksOnTape (Command.ofChar? c) = true :=
      fun c hc ↦ hw c (List.mem_cons_of_mem _ hc)
    rw [List.length_cons, stepMany_succ_of_ok hstep, ih hrest (a := a ++ [c])]
    · simp only [past, State.place, Tape.workAll, List.length_cons, List.length_nil,
        List.foldl_cons, List.foldl_nil, Nat.add_assoc, Nat.add_comm 1, Nat.zero_add]
    · rw [List.append_assoc]
      exact hprogram
    · rw [List.length_append]
      exact congrArg (· + 1) hip

end Machine

/-! ## Words that restore the tape -/

namespace Program

variable {w : Program}

/-- What is left on the tape `t` with its head at `h` when all symbols of the program have been
executed on it, without devices. -/
def executedOn (w : Program) (t : Tape) (h : Int) : State Collector Queue :=
  (Machine.stepMany w.size { program := w, state := { tape := t, head := h } }).2.state

/-- The word is straight, and executing it on any tape, with the head anywhere, restores the head
and the value of every cell. -/
structure Restores (w : Program) : Prop where
  /-- The word is straight. -/
  straight : w.IsStraight
  /-- The head is back where it was. -/
  head : ∀ t h, (w.executedOn t h).head = h
  /-- Every cell holds what it held. -/
  get : ∀ t h a, (w.executedOn t h).tape.get a = t.get a

theorem IsStraight.executedOn (hw : w.IsStraight) (t : Tape) (h : Int) :
    w.executedOn t h = State.place {} (Tape.workAll w.toList (t, h)) := by
  rw [Program.executedOn, ← Array.length_toList,
    Machine.stepMany_straight (a := []) (b := []) hw (List.append_nil _).symm rfl]
  rfl

theorem restores_iff : w.Restores ↔
    w.IsStraight ∧ ∀ t h, (Tape.workAll w.toList (t, h)).2 = h ∧
      ∀ a, (Tape.workAll w.toList (t, h)).1.get a = t.get a := by
  constructor
  · intro hw
    refine ⟨hw.straight, fun t h ↦ ⟨?_, fun a ↦ ?_⟩⟩
    · have hhead := hw.head t h
      rwa [hw.straight.executedOn] at hhead
    · have hget := hw.get t h a
      rwa [hw.straight.executedOn] at hget
  · rintro ⟨hstraight, hw⟩
    refine ⟨hstraight, fun t h ↦ ?_, fun t h a ↦ ?_⟩
    · rw [hstraight.executedOn]
      exact (hw t h).1
    · rw [hstraight.executedOn]
      exact (hw t h).2 a

/-- A straight word that restores the blank tape restores every tape. -/
theorem restores_iff_blank : w.Restores ↔
    w.IsStraight ∧ (Tape.workAll w.toList (.blank, 0)).2 = 0 ∧
      ∀ x ∈ (Tape.workAll w.toList (.blank, 0)).1.touched, x.2 = 0 := by
  rw [restores_iff]
  refine and_congr_right fun _ ↦ ?_
  constructor
  · intro hw
    obtain ⟨hhead, hget⟩ := hw .blank 0
    refine ⟨hhead, fun x hx ↦ ?_⟩
    obtain ⟨-, hx⟩ := (Tape.mem_touched_iff _ x.1 x.2).1 hx
    rw [← hx, hget, Tape.get_blank]
  · rintro ⟨hhead, htouched⟩ t h
    have hadds := Tape.adds_workAll w.toList t h
    refine ⟨?_, fun a ↦ ?_⟩
    · rw [hadds.head_eq, hhead, Int.add_zero]
    · have hzero : (Tape.workAll w.toList (.blank, 0)).1.get (a - h) = 0 := by
        by_cases ha : (Tape.workAll w.toList (.blank, 0)).1.Touched (a - h)
        · exact htouched (a - h, _) ((Tape.mem_touched_iff _ _ _).2 ⟨ha, rfl⟩)
        · exact Tape.get_of_not_touched ha
      rw [hadds.get_eq, hzero, UInt8.add_zero]

instance (w : Program) : Decidable w.Restores := decidable_of_iff _ restores_iff_blank.symm

example : (ofString "+-").Restores ∧ (ofString "-+").Restores ∧ (ofString "><").Restores ∧
    (ofString "<>").Restores ∧ Restores (.replicate 256 '+') := by
  decide +kernel

example : ¬ (ofString "+>-").Restores := by
  decide +kernel

/-- A word that restores the tape leaves a tape that covers it. -/
theorem Restores.covers (hw : w.Restores) (t : Tape) (h : Int) :
    (Tape.workAll w.toList (t, h)).1.Covers t :=
  ⟨((restores_iff.1 hw).2 t h).2, fun _ ha ↦ Tape.touched_workAll (x := (t, h)) ha w.toList⟩

end Program

end Brainfuck
