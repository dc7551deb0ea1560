import Brainfuck.Machine.Run
import Brainfuck.Proofs.Machine.Jumps
import Brainfuck.Proofs.Program.Pairing

/-!
# Jumps by a table

A machine looks for the partner of a bracket each time it makes a jump. It could instead pair all
brackets of its program in one pass, before the first step, and look partners up in the table from
then on. Nothing that can be observed would change: the jumps go to the same places, brackets
without a partner give the same errors, and so every step and every run is the same. This holds of
every program, whether its brackets match or not.
-/

namespace Brainfuck

/-! ## Tables -/

namespace Pairing

/-- The `]` that the table gives for the `[` at index `i`. -/
def closing? (q : Pairing) (i : Nat) : Option Nat := q.pairs.lookup i

/-- The `[` that the table gives for the `]` at index `j`. -/
def opening? (q : Pairing) (j : Nat) : Option Nat := (q.pairs.map Prod.swap).lookup j

/-- Where the jump from the `[` at index `i` goes by the table. -/
def jumpForward (q : Pairing) (i : Nat) : Except RuntimeError Nat :=
  match q.closing? i with
  | some j => .ok (j + 1)
  | none => .error (.unmatched i .opening)

/-- Where the jump from the `]` at index `i` goes by the table. -/
def jumpBackward (q : Pairing) (i : Nat) : Except RuntimeError Nat :=
  match q.opening? i with
  | some j => .ok (j + 1)
  | none => .error (.unmatched i .closing)

/-- In a list that gives no two values to a key, a value is found if it is there. -/
theorem lookup_eq_some_iff_mem {l : List (Nat × Nat)} {a b : Nat}
    (hunique : ∀ b', (a, b) ∈ l → (a, b') ∈ l → b' = b) : l.lookup a = some b ↔ (a, b) ∈ l := by
  have hmem : ∀ {b' : Nat}, l.lookup a = some b' → (a, b') ∈ l := by
    intro b' h
    obtain ⟨l₁, l₂, rfl, -⟩ := List.lookup_eq_some_iff.1 h
    exact List.mem_append_right l₁ List.mem_cons_self
  refine ⟨hmem, fun h ↦ ?_⟩
  cases hfound : l.lookup a with
  | none =>
    have := List.lookup_eq_none_iff.1 hfound (a, b) h
    simp at this
  | some b' => rw [hunique b' h (hmem hfound)]

end Pairing

namespace Program

variable {p : Program} {i j : Nat}

theorem closing?_pairing_eq_some_iff : p.pairing.closing? i = some j ↔ p.IsLoop i j := by
  rw [Pairing.closing?, Pairing.lookup_eq_some_iff_mem, ← Paired, paired_iff_isLoop]
  intro j' h h'
  exact (paired_iff_isLoop.1 h').end_unique (paired_iff_isLoop.1 h)

theorem opening?_pairing_eq_some_iff : p.pairing.opening? j = some i ↔ p.IsLoop i j := by
  have hswap : ∀ k, (j, k) ∈ p.pairing.pairs.map Prod.swap ↔ p.IsLoop k j := by
    intro k
    rw [← paired_iff_isLoop, Paired, List.mem_map]
    constructor
    · rintro ⟨⟨a, b⟩, hab, heq⟩
      obtain ⟨rfl, rfl⟩ := Prod.mk.inj heq
      exact hab
    · intro h
      exact ⟨(k, j), h, rfl⟩
  rw [Pairing.opening?, Pairing.lookup_eq_some_iff_mem, hswap]
  intro i' h h'
  exact ((hswap i').1 h').start_unique ((hswap i).1 h)

/-- By the table, every `[` jumps to where the scan leads. -/
theorem jumpForward_pairing (h : p.commandAt i = some .loopStart) :
    p.pairing.jumpForward i = p.jumpForward i := by
  have hpartner : p.pairing.closing? i = p.closing? i := by
    refine Option.ext fun j ↦ ?_
    rw [closing?_pairing_eq_some_iff, closing?_eq_some_iff h]
  rw [Pairing.jumpForward, hpartner]
  rfl

/-- By the table, every `]` jumps to where the scan leads. -/
theorem jumpBackward_pairing (h : p.commandAt j = some .loopEnd) :
    p.pairing.jumpBackward j = p.jumpBackward j := by
  have hpartner : p.pairing.opening? j = p.opening? j := by
    refine Option.ext fun i ↦ ?_
    rw [opening?_pairing_eq_some_iff, opening?_eq_some_iff h]
  rw [Pairing.jumpBackward, hpartner]
  rfl

end Program

/-! ## Machines with a table -/

namespace Machine

variable {ω ι : Type}

/-- Where control goes, if jumps go by the table `q`. -/
def tableTarget (q : Pairing) (m : Machine ω ι) : Except RuntimeError Nat :=
  if m.ip < m.program.size then
    match m.command? with
    | some .loopStart => if m.cell = 0 then q.jumpForward m.ip else .ok (m.ip + 1)
    | some .loopEnd => if m.cell = 0 then .ok (m.ip + 1) else q.jumpBackward m.ip
    | _ => .ok (m.ip + 1)
  else .error (.terminated m.ip)

theorem tableTarget_pairing (m : Machine ω ι) : m.tableTarget m.program.pairing = m.target := by
  rw [tableTarget]
  split
  · next hip =>
    split
    · next hstart => rw [target_of_start hstart, Program.jumpForward_pairing hstart]
    · next hend => rw [target_of_end hend, Program.jumpBackward_pairing hend]
    · next hstart hend => rw [target_of_ne hip hstart hend]
  · next hip => rw [target_of_size_le (Nat.not_lt.1 hip)]

variable [OutputDevice ω] [InputDevice ι]

/-- Execute one symbol, if jumps go by the table `q`. -/
def tableStep (q : Pairing) (m : Machine ω ι) : Except RuntimeError Unit × Machine ω ι :=
  match m.tableTarget q with
  | .error e => (.error e, m)
  | .ok next =>
    let (r, state) := m.state.exec m.ip m.command?
    (r, { m with ip := next, steps := m.steps + 1, state })

/-- Execute symbols until the program ends or a step fails, for `fuel` steps at most, if jumps go by
the table `q`. -/
def tableRun (q : Pairing) :
    (fuel : Nat) → Machine ω ι → Option (Except RuntimeError Unit × Machine ω ι)
  | fuel, m =>
    if m.terminated then some (.ok (), m)
    else
      match fuel with
      | 0 => none
      | fuel + 1 =>
        match m.tableStep q with
        | (.ok (), m) => tableRun q fuel m
        | (.error e, m) => some (.error e, m)

theorem tableStep_pairing (m : Machine ω ι) : m.tableStep m.program.pairing = m.step := by
  rw [tableStep, tableTarget_pairing]
  rfl

/-- A run never leaves its program, so one table serves for all of its steps. -/
theorem tableRun_pairing (fuel : Nat) (m : Machine ω ι) :
    tableRun m.program.pairing fuel m = run fuel m := by
  induction fuel generalizing m with
  | zero => rw [tableRun, run]
  | succ fuel ih =>
    rw [tableRun, run, tableStep_pairing]
    have hprogram := step_program m
    generalize m.step = next at hprogram ⊢
    obtain ⟨r, m'⟩ := next
    refine if_congr Iff.rfl rfl ?_
    cases r with
    | error e => rfl
    | ok =>
      rw [← hprogram]
      exact ih m'

/-! ## Scans and tables -/

/-- **Jumps go by pairs.** A jump from a bracket goes behind the partner that one pass with a stack
gives it, and fails exactly if the pass leaves the bracket without a partner: a `[` that is still on
the stack in the end, or a `]` that found it empty. The two directions are inverse to each other,
and a machine that looks its jumps up in the table of all pairs makes the same steps and runs. -/
theorem jumps_eq_pairing (p : Program) :
    (∀ i, p.commandAt i = some .loopStart →
      (∀ j, p.jumpForward i = .ok (j + 1) ↔ p.Paired i j) ∧
        (p.jumpForward i = .error (.unmatched i .opening) ↔ ∀ j, ¬ p.Paired i j) ∧
          (i ∈ p.pairing.stack ↔ ∀ j, ¬ p.Paired i j)) ∧
      (∀ j, p.commandAt j = some .loopEnd →
        (∀ i, p.jumpBackward j = .ok (i + 1) ↔ p.Paired i j) ∧
          (p.jumpBackward j = .error (.unmatched j .closing) ↔ ∀ i, ¬ p.Paired i j)) ∧
      (∀ i j, p.commandAt i = some .loopStart ∧ p.jumpForward i = .ok (j + 1) ↔
        p.commandAt j = some .loopEnd ∧ p.jumpBackward j = .ok (i + 1)) ∧
      ∀ m : Machine ω ι, m.program = p →
        m.tableStep p.pairing = m.step ∧ ∀ fuel, tableRun p.pairing fuel m = run fuel m := by
  refine ⟨fun i hi ↦ ⟨fun j ↦ ?_, ?_, ?_⟩, fun j hj ↦ ⟨fun i ↦ ?_, ?_⟩, fun i j ↦ ?_, ?_⟩
  · rw [Program.jumpForward_eq_ok_iff hi, Program.paired_iff_isLoop]
  · rw [Program.jumpForward_eq_error_iff hi]
    simp only [Program.paired_iff_isLoop]
  · rw [Program.mem_stack_iff, and_iff_right hi]
    simp only [Program.paired_iff_isLoop]
  · rw [Program.jumpBackward_eq_ok_iff hj, Program.paired_iff_isLoop]
  · rw [Program.jumpBackward_eq_error_iff hj]
    simp only [Program.paired_iff_isLoop]
  · constructor
    · rintro ⟨hi, hjump⟩
      have hloop := (Program.jumpForward_eq_ok_iff hi).1 hjump
      exact ⟨hloop.stop, (Program.jumpBackward_eq_ok_iff hloop.stop).2 hloop⟩
    · rintro ⟨hj, hjump⟩
      have hloop := (Program.jumpBackward_eq_ok_iff hj).1 hjump
      exact ⟨hloop.start, (Program.jumpForward_eq_ok_iff hloop.start).2 hloop⟩
  · rintro m rfl
    exact ⟨tableStep_pairing m, fun fuel ↦ tableRun_pairing fuel m⟩

/-- In `]x[[+]` the first two brackets have no partner, and the other two are partners; a machine
with this program jumps by the table of the one pair. -/
theorem jumps_eq_pairing_surplus :
    let p := Program.ofString "]x[[+]"
    let m : Machine Collector Queue := { program := p, ip := 3 }
    (p.commandAt 0 = some .loopEnd ∧ p.jumpBackward 0 = .error (.unmatched 0 .closing)) ∧
      (p.commandAt 2 = some .loopStart ∧ p.jumpForward 2 = .error (.unmatched 2 .opening)) ∧
      (p.commandAt 3 = some .loopStart ∧ p.jumpForward 3 = .ok 6) ∧
      (p.commandAt 5 = some .loopEnd ∧ p.jumpBackward 5 = .ok 4) ∧
      m.tableStep ⟨[(3, 5)], [2]⟩ = m.step := by
  intro p m
  have hpairing : p.pairing = ⟨[(3, 5)], [2]⟩ := by decide
  have hpaired : ∀ i j, p.Paired i j ↔ i = 3 ∧ j = 5 := by
    intro i j
    rw [Program.Paired, hpairing, List.mem_singleton, Prod.mk.injEq]
  have h0 : p.commandAt 0 = some .loopEnd := by decide
  have h2 : p.commandAt 2 = some .loopStart := by decide
  have h3 : p.commandAt 3 = some .loopStart := by decide
  have h5 : p.commandAt 5 = some .loopEnd := by decide
  obtain ⟨hstart, hend, -, htable⟩ := @jumps_eq_pairing Collector Queue _ _ p
  refine ⟨⟨h0, (hend 0 h0).2.2 fun i ↦ ?_⟩, ⟨h2, (hstart 2 h2).2.1.2 fun j ↦ ?_⟩,
    ⟨h3, ((hstart 3 h3).1 5).2 ?_⟩, ⟨h5, ((hend 5 h5).1 3).2 ?_⟩, ?_⟩
  · rw [hpaired]
    omega
  · rw [hpaired]
    omega
  · rw [hpaired]
    exact ⟨rfl, rfl⟩
  · rw [hpaired]
    exact ⟨rfl, rfl⟩
  · rw [← hpairing]
    exact (htable m rfl).1

end Machine

end Brainfuck
