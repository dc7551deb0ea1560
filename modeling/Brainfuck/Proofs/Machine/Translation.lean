import Brainfuck.Proofs.Machine.Composition
import Brainfuck.Proofs.Machine.Insertion
import Mathlib.Data.List.Sort

/-!
# Moving along the tape

A tape has no end and no mark on it, so a program cannot find out where on the tape it works. If all
that is on the tape is moved by some cells, and the head with it, the machine makes the same steps
as before, and the tape and the head stay moved by as many cells.

## A word in front

A word of `>` and `<` in front of a program moves the head over a blank tape. The program behind it
then works at other addresses, and it stands at other indexes. These are two changes that have
nothing to do with each other: the first is a translation of the state, which every symbol goes
along with, and the second a relocation of the program, which is possible because a word without
brackets has no part in any loop. Both together are `displace`, and what a step does to a displaced
machine is all that has to be shown.

## Main results

* `step_translate` — a step of the translated machine is the translated step
* `step_displace`, `stepAll_displace`, `run_displace` — so it is with a displaced machine
* `tape_is_homogeneous` — a program behind a word of moves
-/

namespace Brainfuck

/-! ## Tapes -/

namespace Tape

/-- The tape with all that is on it moved to the right by `d` cells. -/
def translate (d : Int) (t : Tape) : Tape :=
  ⟨Std.ExtTreeMap.ofList (t.touched.map fun x ↦ (x.1 + d, x.2))⟩

theorem touched_translate_iff (t : Tape) (d a : Int) :
    (t.translate d).Touched a ↔ t.Touched (a - d) := by
  rw [Touched, translate, Std.ExtTreeMap.mem_ofList, List.contains_iff_mem, List.map_map]
  simp only [List.mem_map, Function.comp_apply]
  constructor
  · rintro ⟨x, hx, rfl⟩
    rw [Int.add_sub_cancel]
    exact ((mem_touched_iff t x.1 x.2).1 hx).1
  · intro h
    exact ⟨(a - d, t.get (a - d)), (mem_touched_iff t _ _).2 ⟨h, rfl⟩, Int.sub_add_cancel a d⟩

theorem translate_ascending (t : Tape) (d : Int) :
    (t.touched.map fun x ↦ (x.1 + d, x.2)).Pairwise (fun x y ↦ x.1 < y.1) := by
  rw [List.pairwise_map]
  exact t.touched_ascending.imp fun h ↦ Int.add_lt_add_right h d

@[simp] theorem get_translate (t : Tape) (d a : Int) : (t.translate d).get a = t.get (a - d) := by
  by_cases h : t.Touched (a - d)
  · have hmem : (a, t.get (a - d)) ∈ t.touched.map fun x ↦ (x.1 + d, x.2) :=
      List.mem_map.2 ⟨(a - d, t.get (a - d)), (mem_touched_iff t _ _).2 ⟨h, rfl⟩,
        by rw [Int.sub_add_cancel]⟩
    -- different addresses are different after the move, so no cell is stored into twice
    refine Std.ExtTreeMap.getD_ofList_of_mem Std.ReflCmp.compare_self ?_ hmem
    refine (t.translate_ascending d).imp fun hlt heq ↦ ?_
    exact absurd (Std.LawfulEqCmp.eq_of_compare heq) (Int.ne_of_lt hlt)
  · rw [get_of_not_touched h, get_of_not_touched]
    rwa [touched_translate_iff]

/-- The touched cells are those that were touched, each at its new address. -/
theorem touched_translate (t : Tape) (d : Int) :
    (t.translate d).touched = t.touched.map fun x ↦ (x.1 + d, x.2) := by
  have : Std.Antisymm fun x y : Int × UInt8 ↦ x.1 < y.1 :=
    ⟨fun x y hxy hyx ↦ absurd hxy (Int.lt_asymm hyx)⟩
  have : Std.Irrefl fun x y : Int × UInt8 ↦ x.1 < y.1 := ⟨fun x ↦ Int.lt_irrefl x.1⟩
  -- both lists are in ascending order, so they are equal if they have the same members
  refine (touched_ascending _).eq_of_mem_iff (t.translate_ascending d) fun x ↦ ?_
  rw [mem_touched_iff, touched_translate_iff, get_translate, ← mem_touched_iff, List.mem_map]
  constructor
  · intro h
    exact ⟨(x.1 - d, x.2), h, by rw [Int.sub_add_cancel]⟩
  · rintro ⟨y, hy, rfl⟩
    rwa [Int.add_sub_cancel]

theorem translate_set (t : Tape) (d a : Int) (b : UInt8) :
    (t.set a b).translate d = (t.translate d).set (a + d) b := by
  have hiff : ∀ c, a = c - d ↔ a + d = c := fun c ↦ by omega
  ext c
  · simp only [get_translate, get_set, hiff]
  · simp only [touched_translate_iff, touched_set_iff, hiff]

theorem translate_blank (d : Int) : blank.translate d = blank := by
  ext a
  · rw [get_translate, get_blank, get_blank]
  · rw [touched_translate_iff]
    exact iff_of_false (not_touched_blank _) (not_touched_blank _)

end Tape

/-! ## States -/

namespace State

variable {ω ι : Type}

/-- The state with the tape and the head moved by `d` cells. -/
def translate (d : Int) (s : State ω ι) : State ω ι :=
  { s with tape := s.tape.translate d, head := s.head + d }

theorem cell_translate (d : Int) (s : State ω ι) : (s.translate d).cell = s.cell := by
  rw [cell, translate, Tape.get_translate, Int.add_sub_cancel]
  rfl

theorem store_translate (d : Int) (s : State ω ι) (b : UInt8) :
    (s.translate d).store b = (s.store b).translate d := by
  simp only [store, translate, Tape.translate_set]

theorem store_cell_translate (d : Int) (s : State ω ι) (f : UInt8 → UInt8) :
    (s.translate d).store (f (s.translate d).cell) = (s.store (f s.cell)).translate d := by
  rw [cell_translate, store_translate]

theorem fail_translate (d : Int) (s : State ω ι) (e : RuntimeError) :
    (s.translate d).fail e = (s.fail e).map id (translate d) := by
  have hpolicy : (s.translate d).policy = s.policy := rfl
  rw [fail, fail, hpolicy]
  cases s.policy with
  | report => rfl
  | halt => rfl

theorem write_translate [OutputDevice ω] (d : Int) (s : State ω ι) (i : Nat) :
    (s.translate d).write i = (s.write i).map id (translate d) := by
  have houtput : (s.translate d).output = s.output := rfl
  rw [write, write, houtput, cell_translate]
  cases s.output with
  | none => rfl
  | some x =>
    rcases hemit : OutputDevice.emit s.cell x with ⟨f | _, x'⟩
    · simp only [hemit]
      exact fail_translate d { s with output := some x' } (.device i Command.output.toChar f)
    · simp only [hemit]
      rfl

theorem read_translate [InputDevice ι] (d : Int) (s : State ω ι) (i : Nat) :
    (s.translate d).read i = (s.read i).map id (translate d) := by
  have hinput : (s.translate d).input = s.input := rfl
  rw [read, read, hinput]
  cases s.input with
  | none => rfl
  | some x =>
    rcases hpoll : InputDevice.poll x with ⟨f | b, x'⟩
    · simp only [hpoll]
      exact fail_translate d { s with input := some x' } (.device i Command.input.toChar f)
    · simp only [hpoll]
      exact congrArg (Prod.mk _) (store_translate d { s with input := some x' } _)

variable [OutputDevice ω] [InputDevice ι]

/-- A symbol does the same wherever on the tape the head is. -/
theorem exec_translate (d : Int) (s : State ω ι) (i : Nat) (c : Option Command) :
    (s.translate d).exec i c = (s.exec i c).map id (translate d) := by
  cases c with
  | none => rfl
  | some op =>
    cases op with
    | right =>
      have hhead : s.head + d + 1 = s.head + 1 + d := by omega
      simp only [exec, translate, hhead, Prod.map_apply, id]
    | left =>
      have hhead : s.head + d - 1 = s.head - 1 + d := by omega
      simp only [exec, translate, hhead, Prod.map_apply, id]
    | increment => exact congrArg (Prod.mk _) (store_cell_translate d s (· + 1))
    | decrement => exact congrArg (Prod.mk _) (store_cell_translate d s (· - 1))
    | output => exact write_translate d s i
    | input => exact read_translate d s i
    | loopStart => rfl
    | loopEnd => rfl

theorem use?_translate (d : Int) (s : State ω ι) (c : Option Command) :
    (s.translate d).use? c = s.use? c := by
  cases c with
  | none => rfl
  | some op =>
    cases op with
    | output =>
      rw [use?, use?, cell_translate]
      rfl
    | _ => rfl

end State

/-! ## Machines -/

namespace Machine

variable {ω ι : Type} {w : Program}

/-- The machine with the tape and the head moved by `d` cells, after `k` steps more. -/
def translate (d : Int) (k : Nat) (m : Machine ω ι) : Machine ω ι :=
  { m with steps := k + m.steps, state := m.state.translate d }

variable [OutputDevice ω] [InputDevice ι]

/-- A step takes no notice of where on the tape the head is, nor of how many steps there were. -/
theorem step_translate (d : Int) (k : Nat) (m : Machine ω ι) :
    (m.translate d k).step = m.step.map id (translate d k) := by
  have htarget : (m.translate d k).target = m.target :=
    target_congr rfl rfl (m.state.cell_translate d)
  cases hm : m.target with
  | error e =>
    rw [hm] at htarget
    rw [step_of_target_error hm, step_of_target_error htarget]
    rfl
  | ok next =>
    have hexec := m.state.exec_translate d m.ip m.command?
    rw [hm] at htarget
    rw [step_of_target_ok hm, step_of_target_ok htarget]
    exact congrArg
      (fun x ↦ (x.1, (⟨m.program, next, k + m.steps + 1, x.2⟩ : Machine ω ι))) hexec

/-! ## Machines behind a word -/

/-- The machine on a program with the word `w` in front, which has executed the word and been moved
by `d` cells. -/
def displace (w : Program) (d : Int) (m : Machine ω ι) : Machine ω ι :=
  { program := w ++ m.program
    ip := w.size + m.ip
    steps := w.size + m.steps
    state :=
      { m.state with
        tape := m.state.tape.translate d
        head := m.state.head + d
        reports := m.state.reports.map (RuntimeError.relocate (w.size + ·)) } }

omit [OutputDevice ω] [InputDevice ι] in
theorem displace_eq (w : Program) (d : Int) (m : Machine ω ι) :
    m.displace w d =
      (m.translate d w.size).relocate (w ++ m.program) (w.size + ·) 0 #[] := by
  rw [relocate, State.relocate, Array.empty_append]
  rfl

omit [OutputDevice ω] [InputDevice ι] in
theorem terminated_displace (w : Program) (d : Int) (m : Machine ω ι) :
    (m.displace w d).terminated = m.terminated := by
  simp only [terminated, displace, Array.size_append, Nat.add_left_cancel_iff]

theorem step_displace (hw : w.LoopsEnd) (d : Int) (m : Machine ω ι) :
    (m.displace w d).step =
      m.step.map (Except.mapError (RuntimeError.relocate (w.size + ·))) (displace w d) := by
  -- no loop of the word is left open, so no bracket behind it has its partner in the word
  have hrelocates : (m.translate d w.size).program.Relocates (w ++ m.program) (w.size + ·)
      (m.translate d w.size).ip := hw.relocates_right m.program m.ip
  rw [displace_eq, step_relocate hrelocates (Nat.zero_le _) #[], step_translate]
  simp only [Prod.map, displace_eq, step_program, id]

theorem use?_displace (w : Program) (d : Int) (m : Machine ω ι) :
    (m.displace w d).use? = m.use? := by
  have hcommand : (m.displace w d).command? = m.command? :=
    Program.commandAt_append_right w m.program m.ip
  rw [use?, use?, hcommand]
  exact m.state.use?_translate d m.command?

theorem stepAll_displace (hw : w.LoopsEnd) (d : Int) (n : Nat) (m : Machine ω ι) :
    stepAll n (m.displace w d) =
      (stepAll n m).map (List.map (Except.mapError (RuntimeError.relocate (w.size + ·))))
        (displace w d) := by
  induction n generalizing m with
  | zero => rfl
  | succ n ih =>
    rw [stepAll_succ, stepAll_succ, step_displace hw, Prod.map_fst, Prod.map_snd, ih]
    rfl

theorem collectSteps_use?_displace (hw : w.LoopsEnd) (d : Int) (n : Nat) (m : Machine ω ι) :
    collectSteps use? n (m.displace w d) = collectSteps use? n m := by
  induction n generalizing m with
  | zero => rfl
  | succ n ih =>
    rw [collectSteps, collectSteps, use?_displace, step_displace hw, Prod.map_snd, ih]

theorem run_displace (hw : w.LoopsEnd) (d : Int) (fuel : Nat) (m : Machine ω ι) :
    run fuel (m.displace w d) =
      (run fuel m).map
        (Prod.map (Except.mapError (RuntimeError.relocate (w.size + ·))) (displace w d)) := by
  induction fuel, m using run.induct with
  | case1 fuel m hm =>
    rw [run_of_terminated hm, run_of_terminated ((terminated_displace w d m).trans hm)]
    rfl
  | case2 m hm =>
    have hm := Bool.of_not_eq_true hm
    rw [run_zero hm, run_zero ((terminated_displace w d m).trans hm)]
    rfl
  | case3 m hm fuel m₁ hstep ih =>
    have hstep' := step_displace hw d m
    rw [hstep] at hstep'
    rw [run_succ_of_ok hstep, run_succ_of_ok hstep', ih]
  | case4 m hm fuel e m₁ hstep =>
    have hm := Bool.of_not_eq_true hm
    have hstep' := step_displace hw d m
    rw [hstep] at hstep'
    rw [run_succ_of_error hm hstep,
      run_succ_of_error ((terminated_displace w d m).trans hm) hstep']
    rfl

end Machine

/-! ## Words of moves -/

theorem Program.IsStraight.loopsEnd {w : Program} (hw : w.IsStraight) : w.LoopsEnd := by
  intro i hi
  have hworks := hw.worksOnTape i
  rw [hi] at hworks
  cases hworks

/-- All symbols of the program are `>` or `<`. -/
def Program.OnlyMoves (w : Program) : Prop := ∀ c ∈ w.toList, c = '>' ∨ c = '<'

instance (w : Program) : Decidable w.OnlyMoves := List.decidableBAll _ w.toList

theorem Program.OnlyMoves.isStraight {w : Program} (hw : w.OnlyMoves) : w.IsStraight := by
  intro c hc
  rcases hw c hc with rfl | rfl
  · rfl
  · rfl

/-- Moves leave the tape alone and add up. -/
theorem Tape.workAll_moves {w : List Char} (hw : ∀ c ∈ w, c = '>' ∨ c = '<') (t : Tape) (h : Int) :
    workAll w (t, h) = (t, h + (w.count '>' - w.count '<')) := by
  induction w generalizing h with
  | nil => exact congrArg (Prod.mk t) (Int.add_zero h).symm
  | cons c w ih =>
    have hrest := ih fun c hc ↦ hw c (List.mem_cons_of_mem _ hc)
    rcases hw c List.mem_cons_self with rfl | rfl
    · refine (hrest (h + 1)).trans (congrArg (Prod.mk t) ?_)
      rw [List.count_cons_self, List.count_cons_of_ne (by decide)]
      omega
    · refine (hrest (h - 1)).trans (congrArg (Prod.mk t) ?_)
      rw [List.count_cons_self, List.count_cons_of_ne (by decide)]
      omega

/-! ## Programs behind a word of moves -/

namespace Machine

variable {ω ι : Type} [OutputDevice ω] [InputDevice ι] {m : Machine ω ι} {w : Program}

/-- A straight word uses no device. -/
theorem collectSteps_use?_straight {a w b : List Char}
    (hw : ∀ c ∈ w, worksOnTape (Command.ofChar? c) = true)
    (hprogram : m.program.toList = a ++ (w ++ b)) (hip : m.ip = a.length) :
    collectSteps use? w.length m = [] := by
  induction w generalizing m a with
  | nil => rfl
  | cons c w ih =>
    obtain ⟨-, hworks, hstep⟩ := step_straight (hw c List.mem_cons_self) hprogram hip
    have hrest : ∀ c ∈ w, worksOnTape (Command.ofChar? c) = true :=
      fun c hc ↦ hw c (List.mem_cons_of_mem _ hc)
    rw [List.length_cons, collectSteps, use?_of_worksOnTape hworks, hstep, ih hrest (a := a ++ [c])]
    · rfl
    · rw [List.append_assoc]
      exact hprogram
    · rw [List.length_append]
      exact congrArg (· + 1) hip

/-- Behind a word of moves the machine is displaced. -/
theorem stepMany_moves (hw : w.OnlyMoves) (q : Program) (output : Option ω) (input : Option ι)
    (policy : FailurePolicy) :
    stepMany w.size ({ program := w ++ q, state := { output, input, policy } } : Machine ω ι) =
      (.ok (),
        displace w (w.toList.count '>' - w.toList.count '<')
          { program := q, state := { output, input, policy } }) := by
  have hprogram : (w ++ q).toList = [] ++ (w.toList ++ q.toList) := Array.toList_append
  have hsteps := stepMany_straight (m := { program := w ++ q, state := { output, input, policy } })
    hw.isStraight hprogram rfl
  rw [Array.length_toList] at hsteps
  rw [hsteps]
  -- nothing has been stored yet, and a blank tape is the same wherever it is moved
  simp only [past, displace, State.place, Tape.workAll_moves hw, Tape.translate_blank,
    Array.length_toList, Nat.zero_add, Nat.add_zero, Array.map_empty]

/-- **The tape is homogeneous.** Let the word `w` be made of `>` and `<`, and move the head by `d`
cells in all. A machine on `w ++ q` that has executed the word is from then on the machine on `q`
with every index of a symbol shifted by the size of the word, and with the tape and the head moved
by `d` cells. It gives the same results, uses its devices in the same way, fails as often, and comes
to its end together with the other. -/
theorem tape_is_homogeneous (hw : w.OnlyMoves) (q : Program) (output : Option ω)
    (input : Option ι) (policy : FailurePolicy) :
    let bare : Machine ω ι := { program := q, state := { output, input, policy } }
    let both : Machine ω ι := { program := w ++ q, state := { output, input, policy } }
    let d : Int := w.toList.count '>' - w.toList.count '<'
    (∀ n,
      let m := (stepAll n bare).2
      let m' := (stepAll (w.size + n) both).2
      (stepAll (w.size + n) both).1 =
          List.replicate w.size (.ok ()) ++
            (stepAll n bare).1.map (Except.mapError (RuntimeError.relocate (w.size + ·))) ∧
        m' = m.displace w d ∧
        m'.state.tape.touched = m.state.tape.touched.map (fun x ↦ (x.1 + d, x.2)) ∧
        collectSteps use? (w.size + n) both = collectSteps use? n bare ∧
        m'.terminated = m.terminated) ∧
    ∀ fuel, run (w.size + fuel) both =
      (run fuel bare).map
        (Prod.map (Except.mapError (RuntimeError.relocate (w.size + ·))) (displace w d)) := by
  intro bare both d
  have hword : stepMany w.size both = (.ok (), bare.displace w d) :=
    stepMany_moves hw q output input policy
  have hends := hw.isStraight.loopsEnd
  refine ⟨fun n ↦ ?_, fun fuel ↦ ?_⟩
  · have hreached : (stepAll w.size both).2 = bare.displace w d := stepAll_of_stepMany_ok hword
    have hsteps : stepAll (w.size + n) both =
        (List.replicate w.size (.ok ()) ++
            (stepAll n bare).1.map (Except.mapError (RuntimeError.relocate (w.size + ·))),
          (stepAll n bare).2.displace w d) := by
      rw [stepAll_add, stepAll_fst_of_stepMany_ok hword, hreached, stepAll_displace hends]
      rfl
    have hm' : (stepAll (w.size + n) both).2 = (stepAll n bare).2.displace w d :=
      congrArg Prod.snd hsteps
    refine ⟨congrArg Prod.fst hsteps, hm', ?_, ?_, ?_⟩
    · rw [hm']
      exact Tape.touched_translate _ d
    · have hsilent : collectSteps use? w.toList.length both = [] :=
        collectSteps_use?_straight hw.isStraight (a := []) Array.toList_append rfl
      rw [Array.length_toList] at hsilent
      rw [collectSteps_add, hsilent, hreached, List.nil_append, collectSteps_use?_displace hends]
    · rw [hm', terminated_displace]
  · rw [run_add_of_stepMany_ok hword, run_displace hends]

/-- Behind `><<` the program `+.]` works on the cell at `-1`. Its last bracket has no partner, and
the error names an index that is larger by three. -/
theorem tape_is_homogeneous_left :
    let w := Program.ofString "><<"
    let q := Program.ofString "+.]"
    let both : Machine Collector Queue := { program := w ++ q, state := { output := some {} } }
    w.OnlyMoves ∧
      (stepAll (w.size + 3) both).1 =
        List.replicate w.size (.ok ()) ++ [.ok (), .ok (), .error (.unmatched 5 .closing)] ∧
      (stepAll (w.size + 3) both).2.state.tape.touched = [(-1, 1)] ∧
      collectSteps use? (w.size + 3) both = [.write 1 (.ok ())] := by
  intro w q both
  have hw : w.OnlyMoves := by decide
  obtain ⟨hsteps, -⟩ := tape_is_homogeneous hw q (some ({} : Collector)) (none : Option Queue)
    .standard
  obtain ⟨hresults, -, htouched, huses, -⟩ := hsteps 3
  refine ⟨hw, ?_, ?_, ?_⟩
  · rw [hresults]
    decide +kernel
  · rw [htouched]
    decide +kernel
  · rw [huses]
    decide +kernel

end Machine

end Brainfuck
