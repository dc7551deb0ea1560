import Brainfuck.Machine.State
import Mathlib.Tactic.Common

/-!
# Failures and the policy

The policy is asked only when a device has failed. Whatever a symbol does before that, and whether
its device fails, is the same under every policy and with every list of reports. So a symbol either
does its work under every policy, or its device fails under every policy with the same fault and
leaves the same state for the policy to deal with. Only `.` and `,` can fail.
-/

namespace Brainfuck.State

variable {ω ι : Type}

/-- The state with another policy and other reports. -/
def under (s : State ω ι) (policy : FailurePolicy) (reports : Array RuntimeError) : State ω ι :=
  { s with policy, reports }

@[simp] theorem under_self (s : State ω ι) : s.under s.policy s.reports = s := rfl

/-- The state with one more failure counted. -/
def counted (s : State ω ι) : State ω ι := { s with failures := s.failures + 1 }

theorem fail_report (s : State ω ι) (xs : Array RuntimeError) (e : RuntimeError) :
    (s.under .report xs).fail e = (.ok (), s.counted.under .report (xs.push e)) := rfl

theorem fail_halt (s : State ω ι) (xs : Array RuntimeError) (e : RuntimeError) :
    (s.under .halt xs).fail e = (.error e, s.counted.under .halt xs) := rfl

variable [OutputDevice ω] [InputDevice ι]

/-- The symbol at index `i` does its work under every policy, and the state is then `t`. -/
def Works (s : State ω ι) (i : Nat) (c : Option Command) (t : State ω ι) : Prop :=
  t.failures = s.failures ∧ ∀ k xs, (s.under k xs).exec i c = (.ok (), t.under k xs)

/-- The device of the symbol at index `i` fails under every policy: with the error `e`, and with the
state `t` left for the policy to deal with. -/
def Fails (s : State ω ι) (i : Nat) (c : Option Command) (e : RuntimeError) (t : State ω ι) :
    Prop :=
  t.failures = s.failures ∧ t.tape = s.tape ∧ t.head = s.head ∧
    (∃ op f, c = some op ∧ (op = .output ∨ op = .input) ∧ e = .device i op.toChar f) ∧
      ∀ k xs, (s.under k xs).exec i c = (t.under k xs).fail e

theorem works_or_fails_write (s : State ω ι) (i : Nat) :
    (∃ t, s.Works i (some .output) t) ∨ ∃ e t, s.Fails i (some .output) e t := by
  cases hd : s.output with
  | none =>
    refine Or.inl ⟨s, rfl, fun k xs ↦ ?_⟩
    simp only [exec, write, under, hd]
  | some d =>
    rcases hemit : OutputDevice.emit s.cell d with ⟨f | _, d'⟩
    · refine Or.inr ⟨.device i Command.output.toChar f, { s with output := some d' }, rfl, rfl, rfl,
        ⟨.output, f, rfl, Or.inl rfl, rfl⟩, fun k xs ↦ ?_⟩
      have hcell : OutputDevice.emit (s.under k xs).cell d = (.error f, d') := hemit
      simp only [exec, write, under, hd] at hcell ⊢
      rw [hcell]
    · refine Or.inl ⟨{ s with output := some d' }, rfl, fun k xs ↦ ?_⟩
      have hcell : OutputDevice.emit (s.under k xs).cell d = (.ok (), d') := hemit
      simp only [exec, write, under, hd] at hcell ⊢
      rw [hcell]

theorem works_or_fails_read (s : State ω ι) (i : Nat) :
    (∃ t, s.Works i (some .input) t) ∨ ∃ e t, s.Fails i (some .input) e t := by
  cases hd : s.input with
  | none =>
    refine Or.inl ⟨s, rfl, fun k xs ↦ ?_⟩
    simp only [exec, read, under, hd]
  | some d =>
    rcases hpoll : InputDevice.poll d with ⟨f | b, d'⟩
    · refine Or.inr ⟨.device i Command.input.toChar f, { s with input := some d' }, rfl, rfl, rfl,
        ⟨.input, f, rfl, Or.inr rfl, rfl⟩, fun k xs ↦ ?_⟩
      simp only [exec, read, under, hd, hpoll]
    · refine Or.inl ⟨store { s with input := some d' } (b.getD notReady), rfl, fun k xs ↦ ?_⟩
      simp only [exec, read, under, hd, hpoll, store]

/-- Every symbol works or fails, whatever the policy. -/
theorem works_or_fails (s : State ω ι) (i : Nat) (c : Option Command) :
    (∃ t, s.Works i c t) ∨ ∃ e t, s.Fails i c e t := by
  cases c with
  | none => exact Or.inl ⟨s, rfl, fun _ _ ↦ rfl⟩
  | some op =>
    cases op with
    | right => exact Or.inl ⟨{ s with head := s.head + 1 }, rfl, fun _ _ ↦ rfl⟩
    | left => exact Or.inl ⟨{ s with head := s.head - 1 }, rfl, fun _ _ ↦ rfl⟩
    | increment =>
      exact Or.inl ⟨{ s with tape := (s.tape.increment s.head).2 }, rfl, fun _ _ ↦ rfl⟩
    | decrement =>
      exact Or.inl ⟨{ s with tape := (s.tape.decrement s.head).2 }, rfl, fun _ _ ↦ rfl⟩
    | output => exact works_or_fails_write s i
    | input => exact works_or_fails_read s i
    | loopStart => exact Or.inl ⟨s, rfl, fun _ _ ↦ rfl⟩
    | loopEnd => exact Or.inl ⟨s, rfl, fun _ _ ↦ rfl⟩

/-- A symbol gives an error only if its device fails and the policy is to halt. -/
theorem exec_eq_error {s t : State ω ι} {i : Nat} {c : Option Command} {e : RuntimeError}
    (h : s.exec i c = (.error e, t)) :
    s.policy = .halt ∧ ∃ op f, c = some op ∧ (op = .output ∨ op = .input) ∧
      e = .device i op.toChar f := by
  rcases works_or_fails s i c with ⟨u, -, hexec⟩ | ⟨e', u, -, -, -, hdevice, hexec⟩
  · have hok := hexec s.policy s.reports
    rw [under_self, h] at hok
    cases hok
  · have hfail := hexec s.policy s.reports
    rw [under_self, h] at hfail
    cases hpolicy : s.policy with
    | report =>
      rw [hpolicy, fail_report] at hfail
      cases hfail
    | halt =>
      rw [hpolicy, fail_halt] at hfail
      obtain rfl := Except.error.inj (Prod.mk.inj hfail).1
      exact ⟨rfl, hdevice⟩

/-- No symbol changes the policy. -/
theorem exec_policy (s : State ω ι) (i : Nat) (c : Option Command) :
    (s.exec i c).2.policy = s.policy := by
  rcases works_or_fails s i c with ⟨t, -, hexec⟩ | ⟨e, t, -, -, -, -, hexec⟩
  · have h := hexec s.policy s.reports
    rw [under_self] at h
    rw [h]
    rfl
  · have h := hexec s.policy s.reports
    rw [under_self] at h
    rw [h]
    cases hpolicy : s.policy with
    | report => rw [fail_report]; rfl
    | halt => rw [fail_halt]; rfl

end Brainfuck.State
