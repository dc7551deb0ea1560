import Brainfuck.Proofs.Machine.Steps

/-!
# Two machines in lockstep

Two machines that differ in something that does not matter make the same steps. What does not matter
is said by a relation between machines, which may have devices of different types. It has to be such
that related machines come to the end of their programs together, that their steps have the same
results, and that the machines behind the steps are related again. This is all that has to be shown
of a relation; that counted steps and runs of any length agree follows once for all.
-/

namespace Option

variable {α β γ δ : Type} {r r' : α → β → Prop} {s : β → γ → Prop} {t : α → γ → Prop}
  {o : Option α} {o' : Option β} {o'' : Option γ}

/-- Weaken what holds of two answers. -/
theorem Rel.imp (h : Option.Rel r o o') (himp : ∀ a b, r a b → r' a b) : Option.Rel r' o o' := by
  cases h with
  | some hab => exact .some (himp _ _ hab)
  | none => exact .none

/-- What holds of two answers holds of what is made of them. -/
theorem Rel.map {f : α → γ} {g : β → δ} {s : γ → δ → Prop} (h : Option.Rel r o o')
    (hfg : ∀ a b, r a b → s (f a) (g b)) : Option.Rel s (o.map f) (o'.map g) := by
  cases h with
  | some hab => exact .some (hfg _ _ hab)
  | none => exact .none

theorem Rel.map_left {f : α → γ} {s : γ → β → Prop} (h : Option.Rel r o o')
    (hf : ∀ a b, r a b → s (f a) b) : Option.Rel s (o.map f) o' := by
  have hmap := h.map (g := id) hf
  rwa [Option.map_id] at hmap

/-- Two answers are related by way of a third one. -/
theorem Rel.comp (h : Option.Rel r o o') (h' : Option.Rel s o' o'')
    (ht : ∀ a b c, r a b → s b c → t a c) : Option.Rel t o o'' := by
  cases h with
  | some hab =>
    cases h' with
    | some hbc => exact .some (ht _ _ _ hab hbc)
  | none =>
    cases h' with
    | none => exact .none

theorem Rel.map_eq {f : α → γ} {g : β → γ} (h : Option.Rel r o o') (hr : ∀ a b, r a b → f a = g b) :
    o.map f = o'.map g := by
  cases h with
  | some hab => exact congrArg Option.some (hr _ _ hab)
  | none => rfl

end Option

namespace Brainfuck.Machine

variable {ω ω' ι ι' : Type} [OutputDevice ω] [OutputDevice ω'] [InputDevice ι] [InputDevice ι']

/-- Machines that `R` relates go through their programs side by side. -/
structure Lockstep (R : Machine ω ι → Machine ω' ι' → Prop) : Prop where
  /-- They come to the end together. -/
  terminated : ∀ {m m'}, R m m' → m.terminated = m'.terminated
  /-- Their steps have the same result. -/
  result : ∀ {m m'}, R m m' → m.step.1 = m'.step.1
  /-- Their steps lead to machines that are related again. -/
  step : ∀ {m m'}, R m m' → R m.step.2 m'.step.2

namespace Lockstep

variable {R : Machine ω ι → Machine ω' ι' → Prop} {m m₁ : Machine ω ι} {m' : Machine ω' ι'}
  {r : Except RuntimeError Unit}

/-- A step of one machine comes with a step of the other. -/
theorem exists_step (hR : Lockstep R) (h : R m m') (hstep : m.step = (r, m₁)) :
    ∃ m₁', m'.step = (r, m₁') ∧ R m₁ m₁' := by
  have hr := hR.result h
  have hm₁ := hR.step h
  rw [hstep] at hr hm₁
  exact ⟨m'.step.2, Prod.ext hr.symm rfl, hm₁⟩

theorem stepAll (hR : Lockstep R) (h : R m m') (n : Nat) :
    (Machine.stepAll n m).1 = (Machine.stepAll n m').1 ∧
      R (Machine.stepAll n m).2 (Machine.stepAll n m').2 := by
  induction n generalizing m m' with
  | zero => exact ⟨rfl, h⟩
  | succ n ih =>
    obtain ⟨hresults, hmachines⟩ := ih (hR.step h)
    rw [stepAll_succ, stepAll_succ, hR.result h, hresults]
    exact ⟨rfl, hmachines⟩

/-- Runs of both have an answer with the same fuel or not at all, and the same one. -/
theorem run (hR : Lockstep R) (h : R m m') (fuel : Nat) :
    Option.Rel (fun x x' ↦ x.1 = x'.1 ∧ R x.2 x'.2) (Machine.run fuel m)
      (Machine.run fuel m') := by
  induction fuel, m using run.induct generalizing m' with
  | case1 fuel m hm =>
    rw [run_of_terminated hm, run_of_terminated ((hR.terminated h).symm.trans hm)]
    exact .some ⟨rfl, h⟩
  | case2 m hm =>
    have hm := Bool.of_not_eq_true hm
    rw [run_zero hm, run_zero ((hR.terminated h).symm.trans hm)]
    exact .none
  | case3 m _ fuel m₁ hstep ih =>
    obtain ⟨m₁', hstep', h₁⟩ := hR.exists_step h hstep
    rw [run_succ_of_ok hstep, run_succ_of_ok hstep']
    exact ih h₁
  | case4 m hm fuel e m₁ hstep =>
    have hm := Bool.of_not_eq_true hm
    obtain ⟨m₁', hstep', h₁⟩ := hR.exists_step h hstep
    rw [run_succ_of_error hm hstep, run_succ_of_error ((hR.terminated h).symm.trans hm) hstep']
    exact .some ⟨rfl, h₁⟩

end Lockstep

end Brainfuck.Machine
