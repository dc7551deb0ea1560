import Brainfuck.Proofs.Machine.Devices
import Brainfuck.Proofs.Machine.Relocation
import Brainfuck.Proofs.Machine.Straight
import Brainfuck.Proofs.Program.Insertion

/-!
# Words that do nothing in every context

Put a word that restores the tape into a program, anywhere: at its end, inside a loop, next to a
bracket, between two brackets that do not match. The machine on the longer program does what the
machine on the shorter one does, and pauses for the word whenever control comes to it.

## Two machines, one of them behind

The machine on the longer program *lags behind* the other by the symbols of the word that it has
still to execute. If there are any, it executes the next one while the other waits, and lags behind
by one symbol less. If there are none, both make a step. The index of the symbol is shifted if it
lies behind the word, and so is the index in an error. If the step leads to the place where the word
was put in, the machine on the longer program now lags behind by the whole word. This can be a jump:
from a bracket whose partner stands in front of the word control goes to the word, and not past it.

The word may touch cells that the shorter program does not touch. No symbol asks whether a cell has
been touched, so this changes nothing else.
-/

namespace Brainfuck

variable {ω ι : Type}

/-! ## States -/

namespace State

variable {f : Nat → Nat} {s s' : State ω ι} {u : Tape}

/-- The state with another tape. -/
def withTape (s : State ω ι) (u : Tape) : State ω ι := { s with tape := u }

/-- The states differ in cells that are touched in `s'` only, and in the indexes of the reports,
which `f` replaces. -/
structure Follows (f : Nat → Nat) (s s' : State ω ι) : Prop where
  head : s'.head = s.head
  tape : s'.tape.Covers s.tape
  output : s'.output = s.output
  input : s'.input = s.input
  policy : s'.policy = s.policy
  failures : s'.failures = s.failures
  reports : s'.reports = s.reports.map (RuntimeError.relocate f)

theorem Follows.eq_relocate (h : s.Follows f s') : s' = (s.withTape s'.tape).relocate f #[] := by
  obtain ⟨tape, head, output, input, policy, failures, reports⟩ := s'
  obtain ⟨rfl, -, rfl, rfl, rfl, rfl, rfl⟩ := h
  rw [relocate, Array.empty_append]
  rfl

theorem follows_relocate (h : u.Covers s.tape) : s.Follows f ((s.withTape u).relocate f #[]) :=
  ⟨rfl, h, rfl, rfl, rfl, rfl, Array.empty_append⟩

theorem Follows.cell (h : s.Follows f s') : s'.cell = s.cell := by
  rw [State.cell, State.cell, h.head, h.tape.get_eq]

/-- A word that restores the tape may be executed in between. -/
theorem Follows.place {w : Program} (hw : w.Restores) (h : s.Follows f s') :
    s.Follows f (s'.place (Tape.workAll w.toList (s'.tape, s'.head))) := by
  obtain ⟨hhead, -⟩ := (Program.restores_iff.1 hw).2 s'.tape s'.head
  exact ⟨hhead.trans h.head, (hw.covers _ _).trans h.tape, h.output, h.input, h.policy, h.failures,
    h.reports⟩

theorem fail_withTape (s : State ω ι) (u : Tape) (e : RuntimeError) :
    (s.withTape u).fail e = ((s.fail e).1, (s.fail e).2.withTape u) := by
  rw [fail, fail]
  cases hpolicy : s.policy with
  | report => simp only [withTape, hpolicy]
  | halt => simp only [withTape, hpolicy]

theorem write_withTape [OutputDevice ω] (h : u.Covers s.tape) (i : Nat) :
    (s.withTape u).write i = ((s.write i).1, (s.write i).2.withTape u) := by
  have houtput : (s.withTape u).output = s.output := rfl
  have hcell : (s.withTape u).cell = s.cell := h.get_eq s.head
  rw [write, write, houtput, hcell]
  cases s.output with
  | none => rfl
  | some d =>
    rcases hemit : OutputDevice.emit s.cell d with ⟨fault | _, d'⟩
    · simp only [hemit]
      exact fail_withTape { s with output := some d' } u (.device i Command.output.toChar fault)
    · simp only [hemit]
      rfl

theorem read_withTape [InputDevice ι] (h : u.Covers s.tape) (i : Nat) :
    ∃ u', u'.Covers (s.read i).2.tape ∧
      (s.withTape u).read i = ((s.read i).1, (s.read i).2.withTape u') := by
  have hinput : (s.withTape u).input = s.input := rfl
  rw [read, read, hinput]
  cases s.input with
  | none => exact ⟨u, h, rfl⟩
  | some d =>
    rcases hpoll : InputDevice.poll d with ⟨fault | b, d'⟩
    · simp only [hpoll]
      refine ⟨u, ?_, fail_withTape { s with input := some d' } u
        (.device i Command.input.toChar fault)⟩
      rw [(fail_snd _ _).1]
      exact h
    · simp only [hpoll]
      exact ⟨u.set s.head (b.getD notReady), h.set _ _, rfl⟩

variable [OutputDevice ω] [InputDevice ι]

/-- A symbol does not ask which cells have been touched. -/
theorem exec_withTape (h : u.Covers s.tape) (i : Nat) (c : Option Command) :
    ∃ u', u'.Covers (s.exec i c).2.tape ∧
      (s.withTape u).exec i c = ((s.exec i c).1, (s.exec i c).2.withTape u') := by
  cases c with
  | none => exact ⟨u, h, rfl⟩
  | some op =>
    cases op with
    | increment =>
      refine ⟨u.set s.head (s.cell + 1), h.set _ _, ?_⟩
      rw [State.cell, ← h.get_eq]
      rfl
    | decrement =>
      refine ⟨u.set s.head (s.cell - 1), h.set _ _, ?_⟩
      rw [State.cell, ← h.get_eq]
      rfl
    | output =>
      refine ⟨u, ?_, write_withTape h i⟩
      rw [exec, (write_snd s i).1]
      exact h
    | input => exact read_withTape h i
    | _ => exact ⟨u, h, rfl⟩

theorem Follows.exec (h : s.Follows f s') (i : Nat) (c : Option Command) :
    (s'.exec (f i) c).1 = (s.exec i c).1.mapError (RuntimeError.relocate f) ∧
      (s.exec i c).2.Follows f (s'.exec (f i) c).2 := by
  obtain ⟨u, hu, hexec⟩ := exec_withTape h.tape i c
  rw [h.eq_relocate, exec_relocate, hexec]
  exact ⟨rfl, follows_relocate hu⟩

theorem Follows.use? (h : s.Follows f s') (c : Option Command) : s'.use? c = s.use? c := by
  cases c with
  | none => rfl
  | some op =>
    cases op with
    | output => rw [State.use?, State.use?, h.output, h.cell]
    | input => rw [State.use?, State.use?, h.input]
    | _ => rfl

end State

/-! ## Words and errors -/

theorem Program.IsStraight.hasNoBrackets {w : Program} (hw : w.IsStraight) : w.HasNoBrackets :=
  fun i ↦ ne_bracket_of_worksOnTape (hw.worksOnTape i)

open Program (widen narrow)

theorem RuntimeError.relocate_widen_narrow {n k i : Nat} {e : RuntimeError}
    (h : e = .terminated (widen n k i) ∨ ∃ side, e = .unmatched (widen n k i) side) :
    (e.relocate (narrow n k)).relocate (widen n k) = e := by
  rcases h with rfl | ⟨side, rfl⟩
  · rw [relocate, relocate, Program.narrow_widen]
  · rw [relocate, relocate, Program.narrow_widen]

/-! ## Machines -/

namespace Machine

/-- Whether the next step leads to the symbol at index `i`. -/
def arrivesAt (i : Nat) (m : Machine ω ι) : Bool :=
  match m.target with
  | .ok next => next = i
  | .error _ => false

/-- How often control comes to the symbol at index `i` in `n` steps, the start included. -/
def arrivals [OutputDevice ω] [InputDevice ι] (i n : Nat) (m : Machine ω ι) : Nat :=
  (if m.ip = i then 1 else 0) + countSteps (arrivesAt i) n m

/-- Where control goes depends on the cell under the head only. -/
theorem target_congr {m m' : Machine ω ι} (hprogram : m'.program = m.program) (hip : m'.ip = m.ip)
    (hcell : m'.cell = m.cell) : m'.target = m.target := by
  rw [target, target, command?, command?, hprogram, hip, hcell]

/-- The machine `m'` on the longer program lags behind `m` by the symbols `rest`: it is at the first
of them, and when they have been executed both machines are at the same symbol, in states that
follow each other. -/
structure Lags (a w b : Program) (rest : List Char) (m m' : Machine ω ι) : Prop where
  program : m.program = a ++ b
  program' : m'.program = a ++ w ++ b
  /-- The symbols are the last ones of the word. -/
  suffix : rest <:+ w.toList
  /-- The other machine waits behind the word. -/
  waits : rest ≠ [] → m.ip = a.size
  ip : m'.ip + rest.length = widen a.size w.size m.ip
  state : m.state.Follows (widen a.size w.size)
    (m'.state.place (Tape.workAll rest (m'.state.tape, m'.state.head)))

variable {a w b : Program} {rest : List Char} {m m' : Machine ω ι}

namespace Lags

theorem ip_eq (h : Lags a w b [] m m') : m'.ip = widen a.size w.size m.ip := h.ip

theorem follows (h : Lags a w b [] m m') : m.state.Follows (widen a.size w.size) m'.state := h.state

theorem command? (hw : w.HasNoBrackets) (h : Lags a w b [] m m') : m'.command? = m.command? := by
  have hkept := Program.narrow_succ_iff.2 (Program.widen_outside a.size w.size m.ip)
  have hcommand := (Program.collapses_insert hw a b).command _ hkept
  rw [Program.narrow_widen] at hcommand
  rw [Machine.command?, Machine.command?, h.program, h.program', h.ip_eq, hcommand]

theorem terminated (h : Lags a w b [] m m') : m'.terminated = m.terminated := by
  apply decide_eq_decide.2
  rw [h.program, h.program', Program.size_insert, Array.size_append, h.ip_eq, widen]
  split <;> omega

/-- The machines go to the same symbol, or both have nowhere to go. -/
theorem target (hw : w.HasNoBrackets) (h : Lags a w b [] m m') :
    m.target = Program.relocateTarget (narrow a.size w.size) m'.target := by
  have hrelocates : m'.program.Relocates (a ++ b) (narrow a.size w.size) m'.ip := by
    rw [h.program', h.ip_eq]
    exact (Program.collapses_insert hw a b).relocates fun _ ↦
      Program.narrow_succ_iff.2 (Program.widen_outside _ _ _)
  rw [← target_relocate hrelocates 0 #[]]
  apply target_congr
  · exact h.program
  · rw [relocate, h.ip_eq, Program.narrow_widen]
  · exact h.follows.cell.symm

/-- Control comes from a symbol that is not one of the word. -/
theorem exists_of_target_ok (hw : w.HasNoBrackets) (h : Lags a w b [] m m') {next : Nat}
    (htarget : m'.target = .ok next) :
    ∃ i, next = i + 1 ∧ (i < a.size ∨ a.size + w.size ≤ i) := by
  have hcollapses := Program.collapses_insert hw a b
  obtain ⟨-, hnext⟩ := target_eq_ok htarget
  rw [h.program'] at hnext
  rcases hnext with ⟨rfl, -⟩ | ⟨-, -, j, rfl, hloop⟩ | ⟨-, -, i, rfl, hloop⟩
  · exact ⟨m'.ip, rfl, h.ip_eq ▸ Program.widen_outside _ _ _⟩
  · exact ⟨j, rfl, Program.narrow_succ_iff.1 (hcollapses.kept_of_end hloop.stop)⟩
  · exact ⟨i, rfl, Program.narrow_succ_iff.1 (hcollapses.kept_of_start hloop.start)⟩

/-- A machine that has come to the word lags behind by the word. -/
theorem of_arrival (hw : w.Restores) (hprogram : m.program = a ++ b)
    (hprogram' : m'.program = a ++ w ++ b) (hip : m.ip = a.size) (hip' : m'.ip = a.size)
    (hstate : m.state.Follows (widen a.size w.size) m'.state) : Lags a w b w.toList m m' := by
  refine ⟨hprogram, hprogram', List.suffix_refl _, fun _ ↦ hip, ?_, hstate.place hw⟩
  rw [hip, hip', Program.widen_of_le (Nat.le_refl _), Array.length_toList]

variable [OutputDevice ω] [InputDevice ι]

/-- While the machine on the longer program executes a symbol of the word the other waits. -/
theorem wait {c : Char} (hw : w.IsStraight) (h : Lags a w b (c :: rest) m m') :
    m'.ip < m'.program.size ∧ worksOnTape m'.command? = true ∧ m'.step = (.ok (), m'.past [c]) ∧
      Lags a w b rest m (m'.past [c]) := by
  obtain ⟨done, hdone⟩ := h.suffix
  have hprogram : m'.program.toList = (a.toList ++ done) ++ (c :: (rest ++ b.toList)) := by
    rw [h.program', Array.toList_append, Array.toList_append, ← hdone]
    simp only [List.append_assoc, List.cons_append]
  have hwaits := h.waits (List.cons_ne_nil c rest)
  have hip := h.ip
  rw [hwaits, Program.widen_of_le (Nat.le_refl _), List.length_cons] at hip
  have hlength : done.length + (rest.length + 1) = w.size := by
    rw [← Array.length_toList, ← hdone, List.length_append, List.length_cons]
  have hat : m'.ip = (a.toList ++ done).length := by
    rw [List.length_append, Array.length_toList]
    omega
  have hc : worksOnTape (Command.ofChar? c) = true := by
    apply hw c
    rw [← hdone]
    exact List.mem_append_right done List.mem_cons_self
  obtain ⟨hlt, hcommand, hstep⟩ := step_straight hc hprogram hat
  refine ⟨hlt, hcommand, hstep, h.program, h.program', ?_, fun _ ↦ hwaits, ?_, h.state⟩
  · exact ⟨done ++ [c], by rw [List.append_assoc]; exact hdone⟩
  · rw [hwaits, Program.widen_of_le (Nat.le_refl _), past]
    simp only [List.length_singleton]
    omega

/-- If there is nothing to wait for both machines make a step. -/
theorem step (hw : w.Restores) (h : Lags a w b [] m m') :
    m'.step.1 = m.step.1.mapError (RuntimeError.relocate (widen a.size w.size)) ∧
      m.step.2.state.Follows (widen a.size w.size) m'.step.2.state ∧
      Lags a w b (if m.arrivesAt a.size then w.toList else []) m.step.2 m'.step.2 := by
  have hbrackets := hw.straight.hasNoBrackets
  have htarget := h.target hbrackets
  cases hm' : m'.target with
  | error e =>
    -- both machines stay, and the error names the index of the symbol
    rw [hm'] at htarget
    have he := RuntimeError.relocate_widen_narrow (h.ip_eq ▸ target_eq_error hm')
    have harrives : m.arrivesAt a.size = false := by
      rw [arrivesAt, htarget]
      rfl
    rw [step_of_target_error hm', step_of_target_error htarget, harrives]
    exact ⟨congrArg Except.error he.symm, h.follows, h⟩
  | ok next =>
    rw [hm'] at htarget
    obtain ⟨hresult, hstate⟩ := h.follows.exec m.ip m.command?
    rw [step_of_target_ok hm', step_of_target_ok htarget, h.command? hbrackets, h.ip_eq]
    refine ⟨hresult, hstate, ?_⟩
    obtain ⟨i, rfl, hkept⟩ := h.exists_of_target_ok hbrackets hm'
    rcases Program.succ_eq_or_widen_eq hkept with ⟨hat, hnarrow⟩ | ⟨hne, hwiden⟩
    · -- control comes to the word
      have harrives : m.arrivesAt a.size = true := by
        rw [arrivesAt, htarget]
        exact decide_eq_true hnarrow
      rw [harrives, if_pos rfl]
      exact of_arrival hw h.program h.program' hnarrow hat hstate
    · have harrives : m.arrivesAt a.size = false := by
        rw [arrivesAt, htarget]
        exact decide_eq_false hne
      rw [harrives, if_neg Bool.false_ne_true]
      exact ⟨h.program, h.program', List.nil_suffix, fun hnil ↦ absurd rfl hnil, hwiden.symm,
        hstate⟩

end Lags

/-- A machine that is at its start lags behind by the word if the word stands there. -/
theorem lags_start (hw : w.Restores) (a b : Program) (output : Option ω) (input : Option ι)
    (policy : FailurePolicy) :
    Lags a w b (if 0 = a.size then w.toList else [])
      ({ program := a ++ b, state := { output, input, policy } } : Machine ω ι)
      { program := a ++ w ++ b, state := { output, input, policy } } := by
  have hfollows : ({ output, input, policy } : State ω ι).Follows (widen a.size w.size)
      { output, input, policy } :=
    ⟨rfl, Tape.Covers.refl _, rfl, rfl, rfl, rfl, Array.map_empty.symm⟩
  split
  · next hzero => exact Lags.of_arrival hw rfl rfl hzero hzero hfollows
  · next hzero =>
    refine ⟨rfl, rfl, List.nil_suffix, fun hnil ↦ absurd rfl hnil, ?_, hfollows⟩
    exact (Program.widen_of_lt (Nat.pos_of_ne_zero (Ne.symm hzero))).symm

/-- The symbols to wait for when control comes to the word. -/
theorem length_pause (w : Program) (c : Prop) [Decidable c] :
    (if c then w.toList else []).length = w.size * if c then 1 else 0 := by
  split
  · rw [Array.length_toList, Nat.mul_one]
  · rfl

/-- What can be seen of two machines of which one lags behind the other: there is nothing to see
while it executes the word, and what there is to see at the same symbol goes over by `g`. -/
structure Shows {α : Type} (a w b : Program) (look : Machine ω ι → Option α) (g : α → α) :
    Prop where
  silent : ∀ m, m.ip < m.program.size → worksOnTape m.command? = true → look m = none
  alike : ∀ {m m'}, Lags a w b [] m m' → look m' = (look m).map g

section

variable [OutputDevice ω] [InputDevice ι]

/-- The use of a device that the next step makes, if it makes one. -/
def use? (m : Machine ω ι) : Option Use := m.state.use? m.command?

/-- A symbol that does nothing but work on the tape uses no device. -/
theorem use?_of_worksOnTape {m : Machine ω ι} (h : worksOnTape m.command? = true) :
    m.use? = none := by
  rw [use?]
  cases hcommand : m.command? with
  | none => rfl
  | some op =>
    rw [hcommand] at h
    cases op with
    | output => cases h
    | input => cases h
    | _ => rfl

/-- The error that the next step gives, if it fails. -/
def failure? (m : Machine ω ι) : Option RuntimeError :=
  match m.step.1 with
  | .ok _ => none
  | .error e => some e

theorem shows_use? (hw : w.Restores) : Shows a w b (use? : Machine ω ι → _) id where
  silent m _ hworks := use?_of_worksOnTape hworks
  alike h := by
    rw [use?, use?, h.command? hw.straight.hasNoBrackets, h.follows.use?, Option.map_id_apply]

theorem shows_failure? (hw : w.Restores) :
    Shows a w b (failure? : Machine ω ι → _) (RuntimeError.relocate (widen a.size w.size)) where
  silent m hip hworks := by rw [failure?, step_of_worksOnTape hip hworks]
  alike {m m'} h := by
    rw [failure?, failure?, (h.step hw).1]
    cases m.step.1 with
    | ok => rfl
    | error e => rfl

namespace Lags

/-- What has been seen in `k` steps of `m'` is what has been seen in `n` steps of `m`. -/
def SeenAlike (a w b : Program) (n k : Nat) (m m' : Machine ω ι) : Prop :=
  ∀ {α : Type} {look : Machine ω ι → Option α} {g : α → α}, Shows a w b look g →
    collectSteps look k m' = (collectSteps look n m).map g

theorem seenAlike_wait {c : Char} {n k : Nat} (hw : w.IsStraight)
    (h : Lags a w b (c :: rest) m m') (hrest : SeenAlike a w b n k m m'.step.2) :
    SeenAlike a w b n (k + 1) m m' := by
  intro α look g hshows
  obtain ⟨hip, hworks, -⟩ := h.wait hw
  rw [collectSteps, hshows.silent m' hip hworks, hrest hshows]
  rfl

theorem seenAlike_step {n k : Nat} (h : Lags a w b [] m m')
    (hrest : SeenAlike a w b n k m.step.2 m'.step.2) : SeenAlike a w b (n + 1) (k + 1) m m' := by
  intro α look g hshows
  rw [collectSteps, collectSteps, hshows.alike h, hrest hshows, List.map_append, Option.toList_map]

/-- After the symbols that it lags behind the machine has caught up, and nothing was to be seen. -/
theorem catchUp (hw : w.IsStraight) (h : Lags a w b rest m m') :
    ∃ m₁', stepMany rest.length m' = (.ok (), m₁') ∧ Lags a w b [] m m₁' ∧
      ∀ {n k}, SeenAlike a w b n k m m₁' → SeenAlike a w b n (rest.length + k) m m' := by
  induction rest generalizing m' with
  | nil =>
    refine ⟨m', rfl, h, fun {n k} hseen ↦ ?_⟩
    rwa [List.length_nil, Nat.zero_add]
  | cons c rest ih =>
    obtain ⟨-, -, hstep, hrest⟩ := h.wait hw
    obtain ⟨m₁', hsteps, hlags, hback⟩ := ih hrest
    refine ⟨m₁', ?_, hlags, fun {n k} hseen ↦ ?_⟩
    · rw [List.length_cons, stepMany_succ_of_ok hstep, hsteps]
    · rw [List.length_cons, Nat.add_right_comm]
      apply h.seenAlike_wait hw
      rw [hstep]
      exact hback hseen

/-- Every point of the run on the shorter program has one that corresponds to it: the machine on the
longer program comes to it after as many more steps as the word is long, for every time that control
has come to the word. -/
theorem stepAll (hw : w.Restores) (h : Lags a w b rest m m') (n : Nat) :
    let k := rest.length + (n + w.size * countSteps (arrivesAt a.size) n m)
    Lags a w b [] (Machine.stepAll n m).2 (Machine.stepAll k m').2 ∧ SeenAlike a w b n k m m' := by
  induction n generalizing rest m m' with
  | zero =>
    obtain ⟨m₁', hsteps, hlags, hback⟩ := h.catchUp hw.straight
    refine ⟨?_, hback fun _ ↦ rfl⟩
    rw [← stepAll_of_stepMany_ok hsteps] at hlags
    exact hlags
  | succ n ih =>
    obtain ⟨m₁', hsteps, hlags, hback⟩ := h.catchUp hw.straight
    obtain ⟨-, -, hstep⟩ := hlags.step hw
    obtain ⟨hreached, hseen⟩ := ih hstep
    have hk : n + 1 + w.size * countSteps (arrivesAt a.size) (n + 1) m =
        (if m.arrivesAt a.size then w.toList else []).length +
          (n + w.size * countSteps (arrivesAt a.size) n m.step.2) + 1 := by
      rw [countSteps_succ, Nat.mul_add, length_pause]
      omega
    simp only [hk]
    refine ⟨?_, hback (hlags.seenAlike_step hseen)⟩
    rw [stepAll_add rest.length, stepAll_of_stepMany_ok hsteps]
    exact hreached

/-- Every point of the run on the longer program is one that corresponds to a point of the run on
the shorter program, or lies some symbols of the word in front of one. -/
theorem exists_stepAll (hw : w.Restores) (h : Lags a w b rest m m') (k : Nat) :
    ∃ n rest', k + rest'.length = rest.length + (n + w.size * countSteps (arrivesAt a.size) n m) ∧
      Lags a w b rest' (Machine.stepAll n m).2 (Machine.stepAll k m').2 ∧
        SeenAlike a w b n k m m' := by
  induction k generalizing rest m m' with
  | zero =>
    refine ⟨0, rest, ?_, h, fun _ ↦ rfl⟩
    rw [countSteps]
    omega
  | succ k ih =>
    cases rest with
    | nil =>
      obtain ⟨-, -, hstep⟩ := h.step hw
      obtain ⟨n, rest', hk, hlags, hseen⟩ := ih hstep
      refine ⟨n + 1, rest', ?_, hlags, h.seenAlike_step hseen⟩
      rw [length_pause] at hk
      rw [countSteps_succ, Nat.mul_add, List.length_nil]
      omega
    | cons c rest =>
      obtain ⟨-, -, hstep, hrest⟩ := h.wait hw.straight
      have hm' : m'.step.2 = m'.past [c] := by rw [hstep]
      obtain ⟨n, rest', hk, hlags, hseen⟩ := ih hrest
      refine ⟨n, rest', ?_, ?_, ?_⟩
      · rw [List.length_cons]
        omega
      · rw [stepAll_succ, hm']
        exact hlags
      · apply h.seenAlike_wait hw.straight
        rw [hm']
        exact hseen

/-! ### Runs -/

/-- A run on the shorter program has a run on the longer one that corresponds to it. -/
theorem run {fuel : Nat} {r : Except RuntimeError Unit} {m₁ : Machine ω ι} (hw : w.Restores)
    (h : Lags a w b rest m m') (hrun : Machine.run fuel m = some (r, m₁)) :
    ∃ fuel' m₁',
      Machine.run fuel' m' =
          some (r.mapError (RuntimeError.relocate (widen a.size w.size)), m₁') ∧
        m₁.state.Follows (widen a.size w.size) m₁'.state := by
  induction fuel using Nat.strongRecOn generalizing rest m m' with
  | ind fuel ih =>
    obtain ⟨m₂', hsteps, hlags, -⟩ := h.catchUp hw.straight
    obtain ⟨hresult, hstate, hnext⟩ := hlags.step hw
    rcases run_cases hrun with
      ⟨hm, rfl, rfl⟩ | ⟨hm, k, e, rfl, rfl, hstep⟩ | ⟨k, m₂, rfl, hstep, hmore⟩
    · refine ⟨rest.length + 0, m₂', ?_, hlags.follows⟩
      rw [run_add_of_stepMany_ok hsteps, run_of_terminated (hlags.terminated.trans hm)]
      rfl
    · rw [hstep] at hresult hstate
      refine ⟨rest.length + 1, m₂'.step.2, ?_, hstate⟩
      rw [run_add_of_stepMany_ok hsteps]
      exact run_succ_of_error (hlags.terminated.trans hm) (Prod.ext hresult rfl) 0
    · rw [hstep] at hresult hnext
      obtain ⟨fuel', m₁', hrun', hfollows⟩ := ih k (Nat.lt_succ_self k) hnext hmore
      refine ⟨rest.length + (fuel' + 1), m₁', ?_, hfollows⟩
      rw [run_add_of_stepMany_ok hsteps, run_succ_of_ok (Prod.ext hresult rfl), hrun']

/-- A run on the shorter program ends if the run on the longer one does. -/
theorem exists_run {fuel : Nat} {x' : Except RuntimeError Unit × Machine ω ι} (hw : w.Restores)
    (h : Lags a w b rest m m') (hrun : Machine.run fuel m' = some x') :
    ∃ fuel x, Machine.run fuel m = some x := by
  induction fuel using Nat.strongRecOn generalizing rest m m' with
  | ind fuel ih =>
    cases rest with
    | cons c rest =>
      -- the word uses up fuel while the other machine waits
      obtain ⟨-, -, hstep, hrest⟩ := h.wait hw.straight
      rcases run_cases hrun with
        ⟨hm', -, -⟩ | ⟨-, k, e, -, -, hstep'⟩ | ⟨k, m₂', rfl, hstep', hmore⟩
      · rw [step_of_terminated hm'] at hstep
        cases hstep
      · rw [hstep] at hstep'
        cases hstep'
      · obtain rfl : m'.past [c] = m₂' := (Prod.mk.inj (hstep.symm.trans hstep')).2
        exact ih k (Nat.lt_succ_self k) hrest hmore
    | nil =>
      obtain ⟨hresult, -, hnext⟩ := h.step hw
      cases hm : m.terminated with
      | true => exact ⟨0, _, run_of_terminated hm 0⟩
      | false =>
        rcases hstep : m.step with ⟨e | _, m₁⟩
        · exact ⟨1, _, run_succ_of_error hm hstep 0⟩
        · rw [hstep] at hresult hnext
          rcases run_cases hrun with
            ⟨hm', -, -⟩ | ⟨-, k, e, -, -, hstep'⟩ | ⟨k, m₂', rfl, hstep', hmore⟩
          · rw [h.terminated, hm] at hm'
            cases hm'
          · rw [hstep'] at hresult
            cases hresult
          · rw [hstep'] at hnext
            obtain ⟨fuel, x, hx⟩ := ih k (Nat.lt_succ_self k) hnext hmore
            exact ⟨fuel + 1, x, by rw [run_succ_of_ok hstep, hx]⟩

end Lags

/-- **A word that restores the tape does nothing in any context.** Let the word `w` restore every
tape, and let `a` and `b` be any programs, with brackets that match or not. The machines on `a ++ b`
and on `a ++ w ++ b`, with the same devices and the same policy, simulate each other.

* To every point of the first run there is a point of the second at which both machines are at the
  same symbol, with the same head and the same value in every cell, and with every cell touched in
  the second that is touched in the first. So far they have used their devices in the same way and
  have given the same errors.
* Every point of the second run is such a point, or lies in front of one by some symbols of the
  word, and no device has been used and no error given in between.
* The first run ends if and only if the second ends, with the same result, and leaves the same.

An index in an error is larger by the size of `w` if it is not an index of `a`. -/
theorem restoring_word_changes_nothing (hw : w.Restores) (a b : Program) (output : Option ω)
    (input : Option ι) (policy : FailurePolicy) :
    let bare : Machine ω ι := { program := a ++ b, state := { output, input, policy } }
    let padded : Machine ω ι := { program := a ++ w ++ b, state := { output, input, policy } }
    let f := widen a.size w.size
    let time := fun n ↦ n + w.size * arrivals a.size n bare
    (∀ n,
      let m := (stepAll n bare).2
      let m' := (stepAll (time n) padded).2
      m'.ip = f m.ip ∧ m'.terminated = m.terminated ∧ m.state.Follows f m'.state ∧
        collectSteps use? (time n) padded = collectSteps use? n bare ∧
        collectSteps failure? (time n) padded =
          (collectSteps failure? n bare).map (RuntimeError.relocate f)) ∧
    (∀ k, ∃ n j, j ≤ w.size ∧ k + j = time n ∧
      collectSteps use? k padded = collectSteps use? n bare ∧
      collectSteps failure? k padded =
        (collectSteps failure? n bare).map (RuntimeError.relocate f)) ∧
    ((∃ fuel x, run fuel bare = some x) ↔ ∃ fuel x, run fuel padded = some x) ∧
    ∀ fuel fuel' r r' m m', run fuel bare = some (r, m) → run fuel' padded = some (r', m') →
      r' = r.mapError (RuntimeError.relocate f) ∧ m.state.Follows f m'.state := by
  intro bare padded f time
  have hstart := lags_start hw a b output input policy
  have htime : ∀ n, time n = (if 0 = a.size then w.toList else []).length +
      (n + w.size * countSteps (arrivesAt a.size) n bare) := by
    intro n
    have hip : bare.ip = 0 := rfl
    simp only [time, arrivals, hip, Nat.mul_add, length_pause]
    omega
  have huses : Shows a w b (use? : Machine ω ι → _) id := shows_use? hw
  have hfailures : Shows a w b (failure? : Machine ω ι → _) (RuntimeError.relocate f) :=
    shows_failure? hw
  refine ⟨fun n ↦ ?_, fun k ↦ ?_, ⟨?_, ?_⟩, ?_⟩
  · obtain ⟨hlags, hseen⟩ := hstart.stepAll hw n
    rw [← htime] at hlags hseen
    refine ⟨hlags.ip, hlags.terminated, hlags.follows, ?_, hseen hfailures⟩
    rw [hseen huses, List.map_id]
  · obtain ⟨n, rest, hk, hlags, hseen⟩ := hstart.exists_stepAll hw k
    rw [← htime] at hk
    refine ⟨n, rest.length, ?_, hk, ?_, hseen hfailures⟩
    · rw [← Array.length_toList]
      exact hlags.suffix.length_le
    · rw [hseen huses, List.map_id]
  · rintro ⟨fuel, ⟨r, m⟩, hrun⟩
    obtain ⟨fuel', m', hrun', -⟩ := hstart.run hw hrun
    exact ⟨fuel', _, hrun'⟩
  · rintro ⟨fuel, x, hrun⟩
    exact hstart.exists_run hw hrun
  · intro fuel fuel' r r' m m' hrun hrun'
    obtain ⟨fuel₁, m₁, hrun₁, hfollows⟩ := hstart.run hw hrun
    obtain ⟨rfl, rfl⟩ := Prod.mk.inj (run_unique hrun' hrun₁)
    exact ⟨rfl, hfollows⟩

/-- In `++[.-]+]` the body of the loop is executed twice, and the last bracket has no partner. With
a word behind the `[` the word is executed twice too, the same bytes are written, and the error
names an index that is larger by four. -/
theorem restoring_word_changes_nothing_loop :
    let a := Program.ofString "++["
    let w := Program.ofString ">+-<"
    let b := Program.ofString ".-]+]"
    let s : State Collector Queue := { output := some {} }
    w.Restores ∧ (run 20 { program := a ++ b, state := s }).map Prod.fst =
        some (.error (.unmatched 7 .closing)) ∧
      (∃ fuel m, run fuel { program := a ++ w ++ b, state := s } =
        some (.error (.unmatched 11 .closing), m)) ∧
      collectSteps use? 18 { program := a ++ w ++ b, state := s } =
        [.write 2 (.ok ()), .write 1 (.ok ())] := by
  intro a w b s
  have hw : w.Restores := by decide +kernel
  have hrun : (run 20 { program := a ++ b, state := s }).map Prod.fst =
      some (.error (.unmatched 7 .closing)) := by decide +kernel
  obtain ⟨hpoints, -, hends, hresults⟩ :=
    restoring_word_changes_nothing hw a b s.output s.input s.policy
  refine ⟨hw, hrun, ?_, ?_⟩
  · obtain ⟨⟨r, m⟩, hm, rfl⟩ := Option.map_eq_some_iff.1 hrun
    obtain ⟨fuel, ⟨r', m'⟩, hm'⟩ := hends.1 ⟨20, _, hm⟩
    obtain ⟨rfl, -⟩ := hresults _ _ _ _ _ _ hm hm'
    exact ⟨fuel, m', hm'⟩
  · obtain ⟨-, -, -, huses, -⟩ := hpoints 10
    have htime : 10 + w.size * arrivals a.size 10 { program := a ++ b, state := s } = 18 := by
      decide +kernel
    have hbare : collectSteps use? 10 { program := a ++ b, state := s } =
        [.write 2 (.ok ()), .write 1 (.ok ())] := by decide +kernel
    rw [← htime, ← hbare]
    exact huses

end

end Machine

end Brainfuck
