import Brainfuck.Proofs.Machine.Calls
import Brainfuck.Proofs.Noninterference.Input

/-!
# Sending to a machine while it runs

A machine whose input is a channel makes its steps while the other end sends bytes and at some time
hangs up. Nothing is known about the order of these events but that the steps are made one after the
other, and that nothing is sent after the sender has hung up.

## Nothing is lost and nothing is made up

What a poll gives was sent, and what was sent and not yet given waits on the channel. So the bytes
that were stored because a poll found them, and behind them the bytes that wait, are the bytes that
were sent: this is kept by every event. A poll that finds nothing has found the channel empty,
whether or not the sender is still there, and stores `0`. It is not a failure.

A channel is therefore a queue for all that a machine can see of it, to which the same bytes are
added at the same points.
-/

namespace Brainfuck

open InputDevice

/-! ## Events -/

namespace Channel

/-- What can happen to a machine whose input is a channel, and to the channel. -/
inductive Event where
  /-- The machine makes a step. -/
  | step
  /-- A byte is sent. -/
  | send (b : UInt8)
  /-- The sender hangs up. -/
  | hangUp
deriving DecidableEq

namespace Event

/-- The byte that is sent. -/
def byte? : Event → Option UInt8
  | send b => some b
  | step | hangUp => none

/-- What an event does to the channel, the steps of the machine apart. -/
def onChannel : Event → Channel → Channel
  | send b, c => c.send [b]
  | hangUp, c => c.hangup
  | step, c => c

/-- What an event does to a queue in the place of the channel. -/
def onQueue : Event → Queue → Queue
  | send b, q => q.append [b]
  | step, q | hangUp, q => q

/-- The bytes that are sent before the sender hangs up. -/
def sent (events : List Event) : List UInt8 := (events.takeWhile (· ≠ hangUp)).filterMap byte?

/-- The events that make a difference: all steps, and what is sent while the sender is connected. -/
def heard : (connected : Bool) → List Event → List Event
  | _, [] => []
  | connected, step :: events => step :: heard connected events
  | connected, send b :: events => (if connected then [send b] else []) ++ heard connected events
  | _, hangUp :: events => heard false events

/-- The bytes that are heard are those that are sent before the sender hangs up. -/
theorem filterMap_byte?_heard (connected : Bool) (events : List Event) :
    (heard connected events).filterMap byte? = if connected then sent events else [] := by
  induction events generalizing connected with
  | nil =>
    rw [heard]
    exact (ite_self _).symm
  | cons e events ih =>
    cases e with
    | step =>
      rw [heard, List.filterMap_cons_none rfl, ih]
      rfl
    | send b =>
      rw [heard, List.filterMap_append, ih]
      cases connected with
      | true => rfl
      | false => rfl
    | hangUp =>
      rw [heard, ih]
      exact (ite_self _).symm

end Event

theorem poll_eq (c : Channel) : poll c = (.ok c.bytes.head?, { c with bytes := c.bytes.tail }) := by
  obtain ⟨bytes, connected⟩ := c
  cases bytes with
  | nil => rfl
  | cons b bytes => rfl

theorem send_eq (c : Channel) (bs : List UInt8) :
    c.send bs = { c with bytes := c.bytes ++ if c.connected then bs else [] } := by
  obtain ⟨bytes, connected⟩ := c
  cases connected with
  | true => rfl
  | false => exact congrArg (Channel.mk · false) (List.append_nil bytes).symm

/-- What a machine can see of a channel is the queue of the bytes that wait. -/
def asQueue (c : Channel) : Queue := ⟨c.bytes⟩

end Channel

theorem Queue.poll_eq (q : Queue) : poll q = (.ok q.bytes.head?, ⟨q.bytes.tail⟩) := by
  obtain ⟨bytes⟩ := q
  cases bytes with
  | nil => rfl
  | cons b bytes => rfl

namespace Machine

open Channel (Event)

variable {ω ι : Type} [OutputDevice ω] [InputDevice ι]

/-- Let one event happen after the other: the results of the steps, and the machine after all. -/
def play (change : Event → ι → ι) :
    List Event → Machine ω ι → List (Except RuntimeError Unit) × Machine ω ι
  | [], m => ([], m)
  | .step :: events, m =>
    let (rs, m') := play change events m.step.2
    (m.step.1 :: rs, m')
  | e :: events, m => play change events (m.supply (change e))

/-- The machines that are about to execute a `,` while the events happen, in order. -/
def readers (change : Event → ι → ι) : List Event → Machine ω ι → List (Machine ω ι)
  | [], _ => []
  | .step :: events, m =>
    (if m.command? = some .input then [m] else []) ++ readers change events m.step.2
  | e :: events, m => readers change events (m.supply (change e))

/-- Whether a poll of the input device finds a byte ready. -/
def findsByte (m : Machine ω ι) : Bool :=
  match m.state.input.map fun d ↦ (poll d).1 with
  | some (.ok (some _)) => true
  | _ => false

/-! ## One step -/

variable {m : Machine ω Channel} {c : Channel}

/-- A `,` stores the first of the bytes that wait, or `0` if none does. -/
theorem step_of_channel (hop : m.command? = some .input) (hc : m.state.input = some c) :
    m.step =
      (.ok (),
        { m with
          ip := m.ip + 1
          steps := m.steps + 1
          state := State.store { m.state with input := some { c with bytes := c.bytes.tail } }
            (c.bytes.head?.getD State.notReady) }) := by
  rw [step_of_target_ok (target_of_device hop (Or.inr rfl)), hop]
  simp only [State.exec, State.read, hc, c.poll_eq]

omit [OutputDevice ω] in
theorem findsByte_of_channel (hc : m.state.input = some c) :
    m.findsByte = c.bytes.head?.isSome := by
  rw [findsByte, hc, Option.map_some, c.poll_eq]
  cases c.bytes.head? with
  | none => rfl
  | some b => rfl

theorem step_cell_of_channel (hop : m.command? = some .input) (hc : m.state.input = some c) :
    m.step.2.cell = c.bytes.head?.getD State.notReady := by
  rw [step_of_channel hop hc]
  exact Tape.get_set_self _ _ _

/-- A `,` takes the first of the bytes that wait, and no other symbol does. -/
theorem step_channel (hc : m.state.input = some c) :
    m.step.2.state.input =
      some { c with bytes := if m.command? = some .input then c.bytes.tail else c.bytes } := by
  by_cases hop : m.command? = some .input
  · rw [step_of_channel hop hc, if_pos hop]
    rfl
  · rw [(step_withInput_of_ne hop m.state.input).2, hc, if_neg hop]

/-- What a step stores because it finds it, and what waits afterwards, waited before. -/
theorem step_stored_append_waiting (hc : m.state.input = some c) :
    ((if m.command? = some .input then [m] else []).filter findsByte).map (·.step.2.cell) ++
      (if m.command? = some .input then c.bytes.tail else c.bytes) = c.bytes := by
  by_cases hop : m.command? = some .input
  · have hcell := step_cell_of_channel hop hc
    rw [if_pos hop, if_pos hop]
    cases hbytes : c.bytes with
    | nil =>
      -- the `0` that is stored here was not found
      rw [List.filter_cons_of_neg (by simp [findsByte_of_channel hc, hbytes])]
      rfl
    | cons b bytes =>
      rw [List.filter_cons_of_pos (by simp [findsByte_of_channel hc, hbytes])]
      rw [hbytes] at hcell
      exact congrArg (· :: bytes) hcell
  · rw [if_neg hop, if_neg hop]
    rfl

/-! ## Many events -/

/-- The bytes that are stored because a poll finds them, in order. -/
def stored (change : Event → ι → ι) (events : List Event) (m : Machine ω ι) : List UInt8 :=
  ((readers change events m).filter findsByte).map (·.step.2.cell)

theorem stored_step (change : Event → ι → ι) (events : List Event) (m : Machine ω ι) :
    stored change (.step :: events) m =
      ((if m.command? = some .input then [m] else []).filter findsByte).map (·.step.2.cell) ++
        stored change events m.step.2 := by
  rw [stored, readers, List.filter_append, List.map_append]
  rfl

omit [OutputDevice ω] in
theorem supply_input (change : Channel → Channel) (hc : m.state.input = some c) :
    (m.supply change).state.input = some (change c) :=
  congrArg (Option.map change) hc

/-- The bytes that are stored, and behind them those that wait, are those that waited at first, and
behind them those that are heard. -/
theorem stored_append_waiting (events : List Event) (hc : m.state.input = some c) :
    ∃ c', (play Event.onChannel events m).2.state.input = some c' ∧
      stored Event.onChannel events m ++ c'.bytes =
        c.bytes ++ (Event.heard c.connected events).filterMap Event.byte? := by
  -- the channel changes on the way, and whether it is connected decides what is heard of the rest
  induction events generalizing m c with
  | nil => exact ⟨c, hc, (List.append_nil c.bytes).symm⟩
  | cons e events ih =>
    cases e with
    | step =>
      obtain ⟨c', hc', hbytes⟩ := ih (step_channel hc)
      refine ⟨c', hc', ?_⟩
      rw [stored_step, List.append_assoc, hbytes, ← List.append_assoc,
        step_stored_append_waiting hc, Event.heard, List.filterMap_cons_none rfl]
    | send b =>
      obtain ⟨c', hc', hbytes⟩ := ih (supply_input (Event.send b).onChannel hc)
      refine ⟨c', hc', hbytes.trans ?_⟩
      rw [Event.onChannel, Channel.send_eq, Event.heard, List.filterMap_append, List.append_assoc]
      cases c.connected with
      | true => rfl
      | false => rfl
    | hangUp => exact ih (supply_input Event.hangUp.onChannel hc)

/-- Each machine that is about to execute a `,` has a channel to poll. -/
theorem exists_channel_of_mem_readers {events : List Event} {r : Machine ω Channel}
    (hc : m.state.input = some c) (hr : r ∈ readers Event.onChannel events m) :
    r.command? = some .input ∧ ∃ c', r.state.input = some c' := by
  induction events generalizing m c with
  | nil => cases hr
  | cons e events ih =>
    cases e with
    | step =>
      rw [readers, List.mem_append] at hr
      rcases hr with hr | hr
      · split at hr
        · next hop =>
          obtain rfl := List.mem_singleton.1 hr
          exact ⟨hop, c, hc⟩
        · cases hr
      · exact ih (step_channel hc) hr
    | send b => exact ih (supply_input (Event.send b).onChannel hc) hr
    | hangUp => exact ih (supply_input Event.hangUp.onChannel hc) hr

theorem play_append (change : Event → ι → ι) (events more : List Event) (m : Machine ω ι) :
    play change (events ++ more) m =
      ((play change events m).1 ++ (play change more (play change events m).2).1,
        (play change more (play change events m).2).2) := by
  induction events generalizing m with
  | nil => rfl
  | cons e events ih =>
    cases e with
    | step =>
      rw [List.cons_append, play, ih]
      rfl
    | send b => exact ih (m.supply (change (.send b)))
    | hangUp => exact ih (m.supply (change .hangUp))

/-! ## A queue in the place of the channel -/

/-- The machine with the bytes that wait on its channel in a queue. -/
def withQueue (m : Machine ω Channel) : Machine ω Queue :=
  m.withInput (m.state.input.map Channel.asQueue)

omit [OutputDevice ω] in
theorem supply_withQueue {f : Channel → Channel} {g : Queue → Queue}
    (hc : m.state.input = some c) (h : (f c).asQueue = g c.asQueue) :
    (m.supply f).withQueue = m.withQueue.supply g := by
  have hqueue : (m.state.input.map f).map Channel.asQueue =
      (m.state.input.map Channel.asQueue).map g := by
    rw [hc]
    exact congrArg some h
  exact congrArg m.withInput hqueue

omit [OutputDevice ω] in
/-- What leaves the bytes that wait as they are cannot be seen. -/
theorem supply_withQueue_self {f : Channel → Channel} (hc : m.state.input = some c)
    (h : (f c).asQueue = c.asQueue) : (m.supply f).withQueue = m.withQueue := by
  rw [supply_withQueue (g := id) hc h, supply, Option.map_id]
  rfl

theorem step_withQueue (hc : m.state.input = some c) :
    m.withQueue.step = (m.step.1, m.step.2.withQueue) := by
  rw [withQueue, withQueue, step_channel hc, hc]
  by_cases hop : m.command? = some .input
  · have hagree : AgreeUpTo 1 m.state.input (some c.asQueue) := by
      rw [hc]
      show [(poll c).1] = [(poll c.asQueue).1]
      rw [c.poll_eq, Queue.poll_eq]
      rfl
    have hstep := (step_withInput_of_input hop hagree).1
    rw [Option.map_some, Queue.poll_eq] at hstep
    rw [if_pos hop]
    exact hstep
  · rw [if_neg hop]
    exact (step_withInput_of_ne hop _).1

/-- A machine cannot tell a channel from a queue to which the bytes are added that it hears. -/
theorem play_withQueue (events : List Event) (hc : m.state.input = some c) :
    play Event.onQueue (Event.heard c.connected events) m.withQueue =
      ((play Event.onChannel events m).1, (play Event.onChannel events m).2.withQueue) := by
  induction events generalizing m c with
  | nil => rfl
  | cons e events ih =>
    cases e with
    | step =>
      rw [Event.heard, play, step_withQueue hc, ih (step_channel hc)]
      rfl
    | send b =>
      have hmore := ih (supply_input (Event.send b).onChannel hc)
      obtain ⟨bytes, connected⟩ := c
      cases connected with
      | true =>
        rw [supply_withQueue (g := (Event.send b).onQueue) hc rfl] at hmore
        exact hmore
      | false =>
        -- the byte does not come to the channel, and it is not added to the queue either
        rw [supply_withQueue_self hc rfl] at hmore
        exact hmore
    | hangUp =>
      rw [Event.heard, ← supply_withQueue_self (f := Channel.hangup) hc rfl]
      exact ih (supply_input Event.hangUp.onChannel hc)

/-! ## All interleavings -/

/-- **A channel delivers what was sent.** Let a machine make steps while bytes are sent to its
channel, in any order, and let the sender hang up at any time. The bytes that were stored because a
poll found them, and behind them those that wait on the channel, are the bytes that were sent before
the sender hung up. No `,` fails, and one that finds no byte has found the channel empty and stores
`0`. That the sender hangs up changes nothing else. A machine with a queue, to which the same bytes
are added at the same points, gives the same results and is in the same state. -/
theorem channel_delivers_what_was_sent (p : Program) (output : Option ω) (policy : FailurePolicy)
    (events : List Event) :
    let start : Machine ω Channel :=
      { program := p, state := { output, input := some {}, policy } }
    let reached := play Event.onChannel events start
    ∃ c, reached.2.state.input = some c ∧
      stored Event.onChannel events start ++ c.bytes = Event.sent events ∧
      (∀ r ∈ readers Event.onChannel events start,
        r.command? = some .input ∧ r.step.1 = .ok () ∧
          r.step.2.state.failures = r.state.failures ∧
          r.step.2.state.tape = r.state.tape.set r.state.head r.step.2.cell ∧
          (r.findsByte = false →
            r.step.2.cell = 0 ∧ ∃ c', r.state.input = some c' ∧ c'.bytes = [])) ∧
      play Event.onChannel (events ++ [.hangUp]) start =
        (reached.1, reached.2.withInput (some { c with connected := false })) ∧
      play Event.onQueue (Event.heard true events)
          { program := p, state := { output, input := some {}, policy } } =
        (reached.1, reached.2.withInput (some (⟨c.bytes⟩ : Queue))) := by
  intro start reached
  obtain ⟨c, hc, hbytes⟩ := stored_append_waiting (m := start) events rfl
  rw [Event.filterMap_byte?_heard] at hbytes
  refine ⟨c, hc, hbytes, fun r hr ↦ ?_, ?_, ?_⟩
  · obtain ⟨hop, c', hc'⟩ := exists_channel_of_mem_readers rfl hr
    have hstep := step_of_channel hop hc'
    have hcell := step_cell_of_channel hop hc'
    refine ⟨hop, ?_, ?_, ?_, fun hnone ↦ ?_⟩
    · rw [hstep]
    · rw [hstep]
      rfl
    · rw [hcell, hstep]
      rfl
    · rw [findsByte_of_channel hc', Option.isSome_eq_false_iff, Option.isNone_iff_eq_none] at hnone
      rw [hnone] at hcell
      exact ⟨hcell, c', hc', List.head?_eq_none_iff.1 hnone⟩
  · have hhangUp : reached.2.supply Event.hangUp.onChannel =
        reached.2.withInput (some { c with connected := false }) :=
      congrArg reached.2.withInput (congrArg (Option.map Channel.hangup) hc)
    rw [play_append, play, play, hhangUp, List.append_nil]
    · rintro ⟨⟩
  · have hqueue := play_withQueue (m := start) events rfl
    rw [withQueue, withQueue, hc] at hqueue
    exact hqueue

/-- The second `,` comes before its byte is sent, and stores `0`. The third finds the byte although
the sender has hung up, and what is sent afterwards is not heard. -/
theorem channel_delivers_what_was_sent_late :
    let events : List Event :=
      [.send 65, .step, .step, .send 66, .hangUp, .send 67, .step, .step]
    let start : Machine Collector Channel :=
      { program := Program.ofString ",,,,", state := { input := some {} } }
    (readers Event.onChannel events start).map (·.findsByte) = [true, false, true, false] ∧
      (readers Event.onChannel events start).map (·.step.2.cell) = [65, 0, 66, 0] ∧
      (∀ r ∈ readers Event.onChannel events start, r.step.1 = .ok ()) ∧
      ∃ c, (play Event.onChannel events start).2.state.input = some c ∧
        stored Event.onChannel events start ++ c.bytes = [65, 66] := by
  intro events start
  obtain ⟨c, hc, hbytes, hreaders, -⟩ := channel_delivers_what_was_sent (Program.ofString ",,,,")
    (none : Option Collector) .standard events
  have hsent : Event.sent events = [65, 66] := by decide
  refine ⟨by decide, by decide, fun r hr ↦ (hreaders r hr).2.1, c, ?_, hbytes.trans hsent⟩
  rw [hc]

end Machine

end Brainfuck
