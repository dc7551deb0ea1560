import Brainfuck.Proofs.Machine.Jumps
import Brainfuck.Proofs.Machine.Steps
import Brainfuck.Proofs.Program.Collapse

/-!
# Machines on another program

Two programs can have a part in common, at different indexes. Where a symbol of the one stands at
index `i`, the same symbol stands in the other at index `f i`. A machine that executes it in the
other program does what a machine does that executes it in the first, with every index of a symbol
replaced: in the instruction pointer, in the errors, and in what has been reported.

## When a symbol can be relocated

It is not enough that the two symbols are the same. A bracket looks for its partner in the whole
program, so the loops that it belongs to have to be the same too. This is what `Relocates` asks of
one index. Nothing is asked of the map `f` elsewhere, and it need not be injective.

## Main results

* `step_relocate` — a step of the relocated machine is the relocated step
* `stepAll_relocate` — so it is with any number of steps, as long as every symbol on the way can be
  relocated
-/

namespace Brainfuck

/-! ## Errors and states -/

/-- The error with the index of its symbol replaced. -/
def RuntimeError.relocate (f : Nat → Nat) : RuntimeError → RuntimeError
  | terminated ip => terminated (f ip)
  | unmatched ip side => unmatched (f ip) side
  | device ip op fault => device (f ip) op fault

theorem RuntimeError.relocate_id : RuntimeError.relocate id = id := by
  funext e
  cases e with
  | terminated ip => rfl
  | unmatched ip side => rfl
  | device ip op fault => rfl

theorem mapError_relocate_id :
    Except.mapError (RuntimeError.relocate id) = (id : Except RuntimeError Unit → _) := by
  funext r
  rw [RuntimeError.relocate_id]
  cases r with
  | error e => rfl
  | ok => rfl

variable {ω ι : Type} {f : Nat → Nat} {xs : Array RuntimeError}

namespace State

/-- The state with the indexes in its reports replaced, and with earlier reports in front. -/
def relocate (f : Nat → Nat) (earlier : Array RuntimeError) (s : State ω ι) : State ω ι :=
  { s with reports := earlier ++ s.reports.map (RuntimeError.relocate f) }

theorem relocate_id (s : State ω ι) : s.relocate id #[] = s := by
  rw [relocate, RuntimeError.relocate_id, Array.map_id, Array.empty_append]

/-- A failure is counted and surfaces in the same way, with its index replaced. -/
theorem fail_relocate (s : State ω ι) (e : RuntimeError) :
    (s.relocate f xs).fail (e.relocate f) =
      (s.fail e).map (Except.mapError (RuntimeError.relocate f)) (relocate f xs) := by
  rw [fail, fail]
  cases hpolicy : s.policy with
  | halt => simp only [relocate, hpolicy, Prod.map_apply, Except.mapError]
  | report =>
    simp only [relocate, hpolicy, Prod.map_apply, Except.mapError, Array.map_push,
      Array.append_push]

theorem write_relocate [OutputDevice ω] (s : State ω ι) (i : Nat) :
    (s.relocate f xs).write (f i) =
      (s.write i).map (Except.mapError (RuntimeError.relocate f)) (relocate f xs) := by
  have houtput : (s.relocate f xs).output = s.output := rfl
  have hcell : (s.relocate f xs).cell = s.cell := rfl
  rw [write, write, houtput, hcell]
  cases s.output with
  | none => rfl
  | some d =>
    rcases hemit : OutputDevice.emit s.cell d with ⟨fault | _, d'⟩
    · simp only [hemit]
      exact fail_relocate { s with output := some d' } (.device i Command.output.toChar fault)
    · simp only [hemit]
      rfl

theorem read_relocate [InputDevice ι] (s : State ω ι) (i : Nat) :
    (s.relocate f xs).read (f i) =
      (s.read i).map (Except.mapError (RuntimeError.relocate f)) (relocate f xs) := by
  have hinput : (s.relocate f xs).input = s.input := rfl
  rw [read, read, hinput]
  cases s.input with
  | none => rfl
  | some d =>
    rcases hpoll : InputDevice.poll d with ⟨fault | b, d'⟩
    · simp only [hpoll]
      exact fail_relocate { s with input := some d' } (.device i Command.input.toChar fault)
    · simp only [hpoll]
      rfl

/-- A symbol does the same at another index, but for the index in what it reports. -/
theorem exec_relocate [OutputDevice ω] [InputDevice ι] (f : Nat → Nat) (xs : Array RuntimeError)
    (s : State ω ι) (i : Nat) (c : Option Command) :
    (s.relocate f xs).exec (f i) c =
      (s.exec i c).map (Except.mapError (RuntimeError.relocate f)) (relocate f xs) := by
  cases c with
  | none => rfl
  | some op =>
    cases op with
    | right => rfl
    | left => rfl
    | increment => rfl
    | decrement => rfl
    | output => exact write_relocate s i
    | input => exact read_relocate s i
    | loopStart => rfl
    | loopEnd => rfl

end State

/-! ## Programs -/

namespace Program

variable {p q : Program} {i : Nat}

/-- The symbol of `p` at index `i` stands in `q` at index `f i`, and belongs to the same loop. -/
structure Relocates (p q : Program) (f : Nat → Nat) (i : Nat) : Prop where
  /-- There is a symbol in both programs, or in neither. -/
  lt_size_iff : f i < q.size ↔ i < p.size
  /-- The symbols stand for the same command. -/
  command : q.commandAt (f i) = p.commandAt i
  /-- The next symbol is the next one in both programs. -/
  next : i < p.size → f (i + 1) = f i + 1
  /-- The loop that starts in `p` starts in `q`. -/
  isLoop_start : ∀ j, p.IsLoop i j → q.IsLoop (f i) (f j) ∧ f (j + 1) = f j + 1
  /-- No loop starts in `q` only. -/
  exists_end : ∀ j', q.IsLoop (f i) j' → ∃ j, p.IsLoop i j
  /-- The loop that ends in `p` ends in `q`. -/
  isLoop_end : ∀ k, p.IsLoop k i → q.IsLoop (f k) (f i) ∧ f (k + 1) = f k + 1
  /-- No loop ends in `q` only. -/
  exists_start : ∀ k', q.IsLoop k' (f i) → ∃ k, p.IsLoop k i

/-- The ends of two programs do the same. -/
theorem relocates_of_size_le (hi : p.size ≤ i) (hi' : q.size ≤ f i) : p.Relocates q f i := by
  have hcommand : p.commandAt i = none := commandAt_eq_none hi
  have hcommand' : q.commandAt (f i) = none := commandAt_eq_none hi'
  refine ⟨by omega, by rw [hcommand, hcommand'], by omega, ?_, ?_, ?_, ?_⟩
  · intro j hloop
    rw [hloop.start] at hcommand
    cases hcommand
  · intro j' hloop
    rw [hloop.start] at hcommand'
    cases hcommand'
  · intro k hloop
    rw [hloop.stop] at hcommand
    cases hcommand
  · intro k' hloop
    rw [hloop.stop] at hcommand'
    cases hcommand'

/-- A symbol that is kept when others are taken out can be relocated, and so can the end of the
program. -/
theorem Collapses.relocates {g : Nat → Nat} (h : p.Collapses q g)
    (hi : i < p.size → g (i + 1) = g i + 1) : p.Relocates q g i := by
  rcases Nat.lt_or_ge i p.size with hlt | hge
  · have hkept := hi hlt
    refine ⟨?_, h.command i hkept, fun _ ↦ hkept, ?_, ?_, ?_, ?_⟩
    · have hsize := h.mono (Nat.succ_le_of_lt hlt)
      rw [Nat.succ_eq_add_one, hkept, h.size] at hsize
      exact iff_of_true hsize hlt
    · intro j hloop
      have hj := h.kept_of_end hloop.stop
      exact ⟨(h.isLoop_iff hkept hj).2 hloop, hj⟩
    · intro j' hloop
      have hj' := hloop.lt_size
      rw [← h.size] at hj'
      obtain ⟨j, -, hj, rfl⟩ := h.exists_eq hj'
      exact ⟨j, (h.isLoop_iff hkept hj).1 hloop⟩
    · intro k hloop
      have hk := h.kept_of_start hloop.start
      exact ⟨(h.isLoop_iff hk hkept).2 hloop, hk⟩
    · intro k' hloop
      obtain ⟨k, -, hk, rfl⟩ := h.exists_eq hloop.lt
      exact ⟨k, (h.isLoop_iff hk hkept).1 hloop⟩
  · apply relocates_of_size_le hge
    rw [← h.size]
    exact h.mono hge

/-- Where control goes, with the indexes replaced. -/
def relocateTarget (f : Nat → Nat) : Except RuntimeError Nat → Except RuntimeError Nat
  | .ok next => .ok (f next)
  | .error e => .error (e.relocate f)

theorem Relocates.jumpForward (h : p.Relocates q f i) (hi : p.commandAt i = some .loopStart) :
    q.jumpForward (f i) = relocateTarget f (p.jumpForward i) := by
  have hi' : q.commandAt (f i) = some .loopStart := h.command.trans hi
  cases hjump : p.jumpForward i with
  | ok k =>
    obtain ⟨j, rfl⟩ := exists_of_jumpForward_ok hjump
    obtain ⟨hloop, hj⟩ := h.isLoop_start j ((jumpForward_eq_ok_iff hi).1 hjump)
    rw [relocateTarget, hj]
    exact (jumpForward_eq_ok_iff hi').2 hloop
  | error e =>
    obtain rfl := jumpForward_eq_error hjump
    apply (jumpForward_eq_error_iff hi').2
    intro j' hloop
    obtain ⟨j, hloop⟩ := h.exists_end j' hloop
    exact (jumpForward_eq_error_iff hi).1 hjump j hloop

theorem Relocates.jumpBackward (h : p.Relocates q f i) (hi : p.commandAt i = some .loopEnd) :
    q.jumpBackward (f i) = relocateTarget f (p.jumpBackward i) := by
  have hi' : q.commandAt (f i) = some .loopEnd := h.command.trans hi
  cases hjump : p.jumpBackward i with
  | ok k =>
    obtain ⟨k, rfl⟩ := exists_of_jumpBackward_ok hjump
    obtain ⟨hloop, hk⟩ := h.isLoop_end k ((jumpBackward_eq_ok_iff hi).1 hjump)
    rw [relocateTarget, hk]
    exact (jumpBackward_eq_ok_iff hi').2 hloop
  | error e =>
    obtain rfl := jumpBackward_eq_error hjump
    apply (jumpBackward_eq_error_iff hi').2
    intro k' hloop
    obtain ⟨k, hloop⟩ := h.exists_start k' hloop
    exact (jumpBackward_eq_error_iff hi).1 hjump k hloop

end Program

/-! ## Machines -/

namespace Machine

variable {m : Machine ω ι} {q : Program}

/-- The machine on another program, with its indexes replaced: `skipped` of its steps are not
counted there, and other reports stand in front of its own. -/
def relocate (q : Program) (f : Nat → Nat) (skipped : Nat) (earlier : Array RuntimeError)
    (m : Machine ω ι) : Machine ω ι :=
  ⟨q, f m.ip, m.steps - skipped, m.state.relocate f earlier⟩

theorem target_relocate (h : m.program.Relocates q f m.ip) (skipped : Nat)
    (xs : Array RuntimeError) :
    (m.relocate q f skipped xs).target = Program.relocateTarget f m.target := by
  have hcommand : (m.relocate q f skipped xs).command? = m.command? := h.command
  have hcell : (m.relocate q f skipped xs).cell = m.cell := rfl
  by_cases hip : m.ip < m.program.size
  · by_cases hstart : m.command? = some .loopStart
    · rw [target_of_start hstart, target_of_start (hcommand.trans hstart), hcell]
      by_cases hzero : m.cell = 0
      · rw [if_pos hzero, if_pos hzero]
        exact h.jumpForward hstart
      · rw [if_neg hzero, if_neg hzero, Program.relocateTarget, h.next hip]
        rfl
    · by_cases hend : m.command? = some .loopEnd
      · rw [target_of_end hend, target_of_end (hcommand.trans hend), hcell]
        by_cases hzero : m.cell = 0
        · rw [if_pos hzero, if_pos hzero, Program.relocateTarget, h.next hip]
          rfl
        · rw [if_neg hzero, if_neg hzero]
          exact h.jumpBackward hend
      · rw [← hcommand] at hstart hend
        rw [target_of_ne (h.lt_size_iff.2 hip) hstart hend]
        rw [hcommand] at hstart hend
        rw [target_of_ne hip hstart hend, Program.relocateTarget, h.next hip]
        rfl
  · have hip' : ¬ f m.ip < q.size := fun hlt ↦ hip (h.lt_size_iff.1 hlt)
    rw [target_of_size_le (Nat.not_lt.1 hip), target_of_size_le (Nat.not_lt.1 hip')]
    rfl

variable [OutputDevice ω] [InputDevice ι]

/-- A step of the relocated machine is the relocated step. -/
theorem step_relocate {skipped : Nat} (h : m.program.Relocates q f m.ip)
    (hskipped : skipped ≤ m.steps) (xs : Array RuntimeError) :
    (m.relocate q f skipped xs).step =
      m.step.map (Except.mapError (RuntimeError.relocate f)) (relocate q f skipped xs) := by
  have htarget := target_relocate h skipped xs
  have hcommand : (m.relocate q f skipped xs).command? = m.command? := h.command
  cases hm : m.target with
  | error e =>
    rw [hm] at htarget
    rw [step_of_target_error hm, step_of_target_error htarget]
    rfl
  | ok next =>
    rw [hm] at htarget
    rw [step_of_target_ok hm, step_of_target_ok htarget, hcommand]
    have hexec := State.exec_relocate f xs m.state m.ip m.command?
    have hsteps : m.steps - skipped + 1 = m.steps + 1 - skipped := by omega
    simp only [relocate, hexec, hsteps, Prod.map_fst, Prod.map_snd, Prod.map_apply]

/-- Steps of the relocated machine are the relocated steps, as long as every symbol on the way can
be relocated. -/
theorem stepAll_relocate {n skipped : Nat}
    (h : ∀ k, k < n → m.program.Relocates q f (stepAll k m).2.ip) (hskipped : skipped ≤ m.steps)
    (xs : Array RuntimeError) :
    stepAll n (m.relocate q f skipped xs) =
      (stepAll n m).map (List.map (Except.mapError (RuntimeError.relocate f)))
        (relocate q f skipped xs) := by
  induction n generalizing m with
  | zero => rfl
  | succ n ih =>
    have hfirst := step_relocate (h 0 (Nat.succ_pos n)) hskipped xs
    have hrest : ∀ k, k < n → m.step.2.program.Relocates q f (stepAll k m.step.2).2.ip := by
      intro k hk
      have hnext := h (k + 1) (Nat.succ_lt_succ hk)
      rw [stepAll_succ] at hnext
      rw [step_program]
      exact hnext
    rw [stepAll_succ, stepAll_succ, hfirst]
    simp only [Prod.map_fst, Prod.map_snd]
    have hcount : skipped ≤ m.step.2.steps := by
      rw [step_steps]
      omega
    rw [ih hrest hcount]
    rfl

end Machine

end Brainfuck
