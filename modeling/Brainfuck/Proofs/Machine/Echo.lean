import Brainfuck.Proofs.Noninterference.Input
import Mathlib.Data.List.TakeDrop

/-!
# The program that echoes its input

The program `,[.,]` reads a byte, and as long as the cell is not `0` it writes the cell and reads
the next byte. It ends at the first `0`, whether this was read or stands for a byte that was not
ready. A poll that fails leaves the cell as it was, so the byte before is written once more.

## One turn for each byte

Both brackets do the same in this program. They stand behind a `,`, and lead to the `.` if the cell
is not `0`, and to the end if it is. So a run is a row of turns that each begin with a `,`: it is
polled, the bracket behind it tests the cell, and unless that is the end, the cell is written and
the next turn begins. The induction is on the answers of the device that are still to come.
-/

namespace Brainfuck

/-- The program that writes what it reads, up to the first `0`. -/
def Program.echo : Program := .ofString ",[.,]"

/-! ## Devices that follow a script -/

namespace InputDevice

/-- The device gives the answers in the script one after the other, and has no byte ready when the
script has run out. -/
def AnswersAs {ι : Type} [InputDevice ι] (d : ι) (script : List (Except Fault (Option UInt8))) :
    Prop :=
  ∀ n, (polls n d).1 = script.takeD n (.ok none)

section

variable {ι : Type} [InputDevice ι] {d : ι} {script : List (Except Fault (Option UInt8))}

theorem answersAs_nil (h : poll d = (.ok none, d)) : AnswersAs d [] := by
  intro n
  induction n with
  | zero => rfl
  | succ n ih => rw [polls_succ, h, ih, List.takeD_succ, List.tail_nil]; rfl

theorem answersAs_cons {d' : ι} {r : Except Fault (Option UInt8)} (h : poll d = (r, d'))
    (hrest : AnswersAs d' script) : AnswersAs d (r :: script) := by
  intro n
  cases n with
  | zero => rfl
  | succ n => rw [polls_succ, h, hrest n]; rfl

/-- The first answer is the first of the script, and the others follow. -/
theorem AnswersAs.poll (h : AnswersAs d script) :
    (poll d).1 = script.head?.getD (.ok none) ∧ AnswersAs (InputDevice.poll d).2 script.tail := by
  refine ⟨?_, fun n ↦ ?_⟩
  · have hfirst := h 1
    rw [polls_succ, List.takeD_succ] at hfirst
    exact (List.cons.inj hfirst).1
  · have hall := h (n + 1)
    rw [polls_succ, List.takeD_succ] at hall
    exact (List.cons.inj hall).2

end

theorem answersAs_scripted (script : List (Except Fault (Option UInt8))) :
    AnswersAs (⟨script⟩ : ScriptedInput) script := by
  induction script with
  | nil => exact answersAs_nil rfl
  | cons r script ih => exact answersAs_cons rfl ih

theorem answersAs_queue (q : List UInt8) : AnswersAs (⟨q⟩ : Queue) (q.map (.ok ∘ some)) := by
  induction q with
  | nil => exact answersAs_nil rfl
  | cons b q ih => exact answersAs_cons rfl ih

theorem answersAs_channel (q : List UInt8) (connected : Bool) :
    AnswersAs (⟨q, connected⟩ : Channel) (q.map (.ok ∘ some)) := by
  induction q with
  | nil => exact answersAs_nil rfl
  | cons b q ih => exact answersAs_cons rfl ih

end InputDevice

open InputDevice

/-! ## The cell after each poll -/

/-- What a cell that held `c` holds after a poll: the byte that was ready, or `0` if none was, or
what it held before if the poll failed. -/
def heldAfter (c : UInt8) : Except Fault (Option UInt8) → UInt8
  | .ok (some b) => b
  | .ok none => 0
  | .error _ => c

/-- What a cell that held `c` at first holds after each of the polls. -/
def heldAfterEach (c : UInt8) : List (Except Fault (Option UInt8)) → List UInt8
  | [] => []
  | r :: script => heldAfter c r :: heldAfterEach (heldAfter c r) script

/-- The bytes that are echoed when a cell that held `c` at first is polled into: what it holds after
each poll, up to the first `0`. -/
def echoed (c : UInt8) (script : List (Except Fault (Option UInt8))) : List UInt8 :=
  (heldAfterEach c script).takeWhile (· ≠ 0)

theorem echoed_cons_of_zero {c : UInt8} {r : Except Fault (Option UInt8)} (h : heldAfter c r = 0)
    (script : List (Except Fault (Option UInt8))) : echoed c (r :: script) = [] := by
  simp [echoed, heldAfterEach, h]

theorem echoed_cons_of_ne {c : UInt8} {r : Except Fault (Option UInt8)} (h : heldAfter c r ≠ 0)
    (script : List (Except Fault (Option UInt8))) :
    echoed c (r :: script) = heldAfter c r :: echoed (heldAfter c r) script := by
  simp [echoed, heldAfterEach, h]

/-- Bytes that are all ready are echoed up to the first `0`. -/
theorem echoed_ready (c : UInt8) (q : List UInt8) :
    echoed c (q.map (.ok ∘ some)) = q.takeWhile (· ≠ 0) := by
  induction q generalizing c with
  | nil => rfl
  | cons b q ih =>
    have hheld : heldAfter c ((.ok ∘ some) b) = b := rfl
    rw [List.map_cons]
    by_cases hb : b = 0
    · rw [echoed_cons_of_zero (hheld.trans hb)]
      simp [hb]
    · rw [echoed_cons_of_ne (fun h ↦ hb (hheld.symm.trans h)), hheld, ih]
      simp [hb]

/-! ## States -/

variable {ι : Type} [InputDevice ι]

/-- What matters about the state of an echoing machine: the head is where it started, over a cell
that holds `c`, the bytes in `out` have been written, and so many polls have failed. -/
structure State.Echoing (out : List UInt8) (d : ι) (failures : Nat) (c : UInt8)
    (s : State Collector ι) : Prop where
  head : s.head = 0
  cell : s.cell = c
  output : s.output = some ⟨out.toArray⟩
  input : s.input = some d
  policy : s.policy = .report
  failures : s.failures = failures

namespace State.Echoing

variable {out : List UInt8} {d : ι} {failures : Nat} {c : UInt8} {s : State Collector ι}

theorem read (h : s.Echoing out d failures c) (i : Nat) :
    (s.read i).2.Echoing out (poll d).2 (failures + if !(poll d).1.isOk then 1 else 0)
      (heldAfter c (poll d).1) := by
  obtain ⟨hhead, hcell, houtput, hinput, hpolicy, hfailures⟩ := h
  rcases hpoll : poll d with ⟨f | b, d'⟩
  · have hread : s.read i = (.ok (), { s with
        input := some d'
        failures := s.failures + 1
        reports := s.reports.push (.device i Command.input.toChar f) }) := by
      simp only [State.read, hinput, hpoll, fail, hpolicy]
    rw [hread]
    exact ⟨hhead, hcell, houtput, rfl, hpolicy, congrArg (· + 1) hfailures⟩
  · have hread : s.read i = (.ok (), store { s with input := some d' } (b.getD notReady)) := by
      simp only [State.read, hinput, hpoll]
    rw [hread]
    refine ⟨hhead, ?_, houtput, rfl, hpolicy, hfailures⟩
    rw [State.cell, store, Tape.get_set_self]
    cases b with
    | none => rfl
    | some b => rfl

omit [InputDevice ι] in
theorem write (h : s.Echoing out d failures c) (i : Nat) :
    (s.write i).2.Echoing (out ++ [c]) d failures c := by
  obtain ⟨hhead, hcell, houtput, hinput, hpolicy, hfailures⟩ := h
  have hwrite : s.write i = (.ok (), { s with output := some ⟨(out ++ [c]).toArray⟩ }) := by
    simp [State.write, houtput, hcell]
  rw [hwrite]
  exact ⟨hhead, hcell, rfl, hinput, hpolicy, hfailures⟩

end State.Echoing

/-! ## Machines -/

namespace Machine

section

variable {ω : Type} [OutputDevice ω] {m m₁ m' : Machine ω ι} {a b k l : Nat}

/-- The machine makes `a` steps to `m'`, none of which fails, and polls `k` times. -/
structure Polls (m : Machine ω ι) (a k : Nat) (m' : Machine ω ι) : Prop where
  steps : stepMany a m = (.ok (), m')
  count : countSteps readsNext a m = k

theorem Polls.trans (h : m.Polls a k m₁) (h' : m₁.Polls b l m') :
    m.Polls (a + b) (k + l) m' where
  steps := by rw [stepMany_add_of_ok h.steps, h'.steps]
  count := by rw [countSteps_add, stepAll_of_stepMany_ok h.steps, h.count, h'.count]

theorem polls_of_step (h : m.step = (.ok (), m')) :
    m.Polls 1 (if m.readsNext then 1 else 0) m' where
  steps := stepMany_succ_of_ok h 0
  count := rfl

end

variable {out : List UInt8} {d : ι} {failures i : Nat} {c : UInt8} {s : State Collector ι}

/-- The program has two `,`. -/
theorem polls_echo_read (hi : i = 0 ∨ i = 3) (hpolicy : s.policy = .report) (n : Nat) :
    Polls ⟨.echo, i, n, s⟩ 1 1 ⟨.echo, i + 1, n + 1, (s.read i).2⟩ := by
  have hop : command? (⟨.echo, i, n, s⟩ : Machine Collector ι) = some .input := by
    rcases hi with rfl | rfl
    · rfl
    · rfl
  have hok : (s.read i).1 = .ok () := State.exec_fst_of_report hpolicy i (some .input)
  have hstep : step (⟨.echo, i, n, s⟩ : Machine Collector ι) =
      (.ok (), ⟨.echo, i + 1, n + 1, (s.read i).2⟩) := by
    rw [step_of_target_ok (target_of_device hop (Or.inr rfl)), hop]
    exact Prod.ext hok rfl
  have hpolls := polls_of_step hstep
  rwa [readsNext, hop] at hpolls

theorem polls_echo_write (h : s.Echoing out d failures c) (n : Nat) :
    Polls ⟨.echo, 2, n, s⟩ 1 0 ⟨.echo, 3, n + 1, (s.write 2).2⟩ := by
  have hop : command? (⟨.echo, 2, n, s⟩ : Machine Collector ι) = some .output := rfl
  have hok : (s.write 2).1 = .ok () := State.exec_fst_of_report h.policy 2 (some .output)
  have hstep : step (⟨.echo, 2, n, s⟩ : Machine Collector ι) =
      (.ok (), ⟨.echo, 3, n + 1, (s.write 2).2⟩) := by
    rw [step_of_target_ok (target_of_device hop (Or.inl rfl)), hop]
    exact Prod.ext hok rfl
  exact polls_of_step hstep

/-- Both brackets lead to the `.`, or to the end. -/
theorem polls_echo_test (hi : i = 1 ∨ i = 4) (n : Nat) (s : State Collector ι) :
    Polls ⟨.echo, i, n, s⟩ 1 0 ⟨.echo, if s.cell = 0 then 5 else 2, n + 1, s⟩ := by
  have htarget : target (⟨.echo, i, n, s⟩ : Machine Collector ι) =
      .ok (if s.cell = 0 then 5 else 2) := by
    rcases hi with rfl | rfl
    · rw [target_of_start rfl]
      exact (apply_ite Except.ok _ _ _).symm
    · rw [target_of_end rfl]
      exact (apply_ite Except.ok _ _ _).symm
  have hstep : step (⟨.echo, i, n, s⟩ : Machine Collector ι) =
      (.ok (), ⟨.echo, if s.cell = 0 then 5 else 2, n + 1, s⟩) := by
    rw [step_of_target_ok htarget]
    rcases hi with rfl | rfl
    · rfl
    · rfl
  have hpolls := polls_of_step hstep
  rcases hi with rfl | rfl
  · exact hpolls
  · exact hpolls

/-- A turn begins with a poll and a test of the cell. -/
theorem polls_echo_turn (hi : i = 0 ∨ i = 3) (h : s.Echoing out d failures c) (n : Nat) :
    Polls ⟨.echo, i, n, s⟩ 2 1
      ⟨.echo, if heldAfter c (poll d).1 = 0 then 5 else 2, n + 2, (s.read i).2⟩ := by
  have hread := polls_echo_read hi h.policy n
  have htest := polls_echo_test (i := i + 1) (hi.imp (congrArg (· + 1)) (congrArg (· + 1))) (n + 1)
    (s.read i).2
  rw [(h.read i).cell] at htest
  exact hread.trans htest

/-- From the first `,` of a turn on, a byte is echoed for each turn that does not find a `0`, and
the turn after these is the last. -/
theorem polls_echo (script : List (Except Fault (Option UInt8))) (hi : i = 0 ∨ i = 3)
    (h : s.Echoing out d failures c) (hd : AnswersAs d script) (n : Nat) :
    let k := (echoed c script).length
    ∃ s', Polls ⟨.echo, i, n, s⟩ (2 + 3 * k) (k + 1) ⟨.echo, 5, n + (2 + 3 * k), s'⟩ ∧
      s'.Echoing (out ++ echoed c script) (polls (k + 1) d).2
        (failures + (script.take (k + 1)).countP fun r ↦ !r.isOk) 0 := by
  induction script generalizing i s out d failures c n with
  | nil =>
    obtain ⟨hanswer, -⟩ := hd.poll
    have hturn := polls_echo_turn hi h n
    have hread := h.read i
    rw [hanswer] at hturn hread
    refine ⟨(s.read i).2, hturn, ?_⟩
    rw [echoed, heldAfterEach, List.takeWhile_nil, List.append_nil]
    exact hread
  | cons r script ih =>
    obtain ⟨hanswer, hrest⟩ := hd.poll
    have hturn := polls_echo_turn hi h n
    have hread := h.read i
    rw [hanswer, List.head?_cons, Option.getD_some] at hturn hread
    by_cases hzero : heldAfter c r = 0
    · -- the cell is `0`, and what is left of the script is not asked for
      rw [if_pos hzero] at hturn
      rw [hzero] at hread
      refine ⟨(s.read i).2, ?_, ?_⟩
      · rw [echoed_cons_of_zero hzero]
        exact hturn
      · rw [echoed_cons_of_zero hzero, List.append_nil, List.length_nil, List.take_succ_cons,
          List.countP_cons, List.take_zero, List.countP_nil, Nat.zero_add, Nat.zero_add]
        exact hread
    · -- the byte is written, and the second `,` begins the next turn
      rw [if_neg hzero] at hturn
      have hwrite := polls_echo_write hread (n + 2)
      obtain ⟨s', hmore, hs'⟩ := ih (Or.inr rfl) (hread.write 2) hrest (n + 2 + 1)
      have hall := (hturn.trans hwrite).trans hmore
      rw [echoed_cons_of_ne hzero, List.length_cons]
      refine ⟨s', ?_, ?_⟩
      · have hsteps : 2 + 3 * ((echoed (heldAfter c r) script).length + 1) =
            2 + 1 + (2 + 3 * (echoed (heldAfter c r) script).length) := by omega
        have hcount : (echoed (heldAfter c r) script).length + 1 + 1 =
            1 + 0 + ((echoed (heldAfter c r) script).length + 1) := by omega
        rw [hsteps, hcount, ← Nat.add_assoc n]
        exact hall
      · rw [List.append_cons, List.take_succ_cons, List.countP_cons, Nat.add_comm (List.countP _ _),
          ← Nat.add_assoc]
        exact hs'

/-! ## Runs -/

/-- What a run of the program comes to on the input device `d`: it ends well, has written the bytes
in `out`, after one poll more than these and two steps more than three for each of them, with so
many failures, and leaves a `0` under the head, which is back where it was. -/
def Echoes (d : ι) (out : List UInt8) (failures : Nat) : Prop :=
  let start : Machine Collector ι :=
    { program := .echo, state := { output := some {}, input := some d, policy := .report } }
  let n := 2 + 3 * out.length
  ∃ m, run n start = some (.ok (), m) ∧ m.state.output = some ⟨out.toArray⟩ ∧
    countSteps readsNext n start = out.length + 1 ∧
    m.state.input = some (polls (out.length + 1) d).2 ∧ m.steps = n ∧
    m.state.failures = failures ∧ m.ip = 5 ∧ m.state.head = 0 ∧ m.state.tape.get 0 = 0

theorem echoes_of_answersAs {script : List (Except Fault (Option UInt8))}
    (hd : AnswersAs d script) :
    Echoes d (echoed 0 script)
      ((script.take ((echoed 0 script).length + 1)).countP fun r ↦ !r.isOk) := by
  have hstart : State.Echoing [] d 0 0
      ({ output := some {}, input := some d, policy := .report } : State Collector ι) :=
    ⟨rfl, Tape.get_blank 0, rfl, rfl, rfl, rfl⟩
  obtain ⟨s, hpolls, hs⟩ := polls_echo script (Or.inl rfl) hstart hd 0
  rw [Nat.zero_add] at hpolls
  have hrun := run_add_of_stepMany_ok hpolls.steps 0
  have hend := run_of_terminated (m := ⟨.echo, 5, 2 + 3 * (echoed 0 script).length, s⟩) rfl 0
  rw [hend] at hrun
  have hcell := hs.cell
  rw [State.cell, hs.head] at hcell
  refine ⟨_, hrun, ?_, hpolls.count, hs.input, rfl, ?_, rfl, hs.head, hcell⟩
  · exact hs.output
  · exact hs.failures.trans (Nat.zero_add _)

/-- **The echo.** Let the input device of `,[.,]` give any answers, bytes, failures or that no byte
is ready, and after these never have a byte ready. Under the policy to report the program ends well.
It writes the values that the cell holds after each poll, up to the first `0`, and `k` bytes take
`k + 1` polls and `2 + 3 * k` steps. The failures are those among the polls. In particular a queue
or a channel is echoed up to the first `0` in it. -/
theorem echo_stops_at_zero :
    (∀ {ι : Type} [InputDevice ι] (d : ι) (script : List (Except Fault (Option UInt8))),
        AnswersAs d script →
          let out := (heldAfterEach 0 script).takeWhile (· ≠ 0)
          Echoes d out ((script.take (out.length + 1)).countP fun r ↦ !r.isOk)) ∧
      (∀ script, AnswersAs (⟨script⟩ : ScriptedInput) script) ∧
      (∀ q, Echoes (⟨q⟩ : Queue) (q.takeWhile (· ≠ 0)) 0) ∧
      ∀ q connected, Echoes (⟨q, connected⟩ : Channel) (q.takeWhile (· ≠ 0)) 0 := by
  have hready : ∀ (q : List UInt8) (k : Nat),
      ((q.map (Except.ok ∘ some : UInt8 → Except Fault (Option UInt8))).take k).countP
        (fun r ↦ !r.isOk) = 0 := by
    intro q k
    rw [List.countP_eq_zero]
    intro r hr
    obtain ⟨b, -, rfl⟩ := List.mem_map.1 (List.mem_of_mem_take hr)
    exact Bool.false_ne_true
  refine ⟨fun d script hd ↦ echoes_of_answersAs hd, answersAs_scripted, fun q ↦ ?_,
    fun q connected ↦ ?_⟩
  · have hechoes := echoes_of_answersAs (answersAs_queue q)
    rwa [hready, echoed_ready] at hechoes
  · have hechoes := echoes_of_answersAs (answersAs_channel q connected)
    rwa [hready, echoed_ready] at hechoes

/-- A poll that fails has the byte before it written again, and what is behind a `0` is not read. -/
theorem echo_stops_at_zero_failing :
    let script := [.ok (some 65), .error FaultKind.brokenPipe.fault, .ok none, .ok (some 66)]
    AnswersAs (⟨script⟩ : ScriptedInput) script ∧
      Echoes (⟨script⟩ : ScriptedInput) [65, 65] 1 ∧
      Echoes (⟨[72, 105, 0, 33], false⟩ : Channel) [72, 105] 0 := by
  intro script
  obtain ⟨hdevices, hscripted, -, hchannel⟩ := echo_stops_at_zero
  exact ⟨hscripted script, hdevices _ script (hscripted script), hchannel [72, 105, 0, 33] false⟩

end Machine

end Brainfuck
