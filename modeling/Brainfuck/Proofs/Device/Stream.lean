import Brainfuck.Proofs.Device.Feed

/-!
# A feed is a queue

What waits in a feed waits in three places, and there is more than one way from one place to the
next. To its holder all this is one queue of *items*: the bytes that wait, and behind them the fault
that ended the reader. A poll takes the first item, or finds nothing if there is none. Waiting
leaves the queue as it is, and a read lengthens it at the end.

## Why no chunk is empty

A poll that opens an empty chunk would find nothing although there may be items behind it. The
reader never sends an empty chunk, because it takes an empty read for the end of the input, so it
is enough to carry this along as one more part of the invariant.
-/

namespace Brainfuck.Feed

variable {f : Feed}

/-- Something that a poll can hand out: a byte, or the fault that ended the reader. -/
abbrev Item := Except Fault UInt8

/-- What an answer to a poll hands out, if it hands out anything. -/
def itemOf : Except Fault (Option UInt8) → Option Item
  | .ok none => none
  | .ok (some b) => some (.ok b)
  | .error e => some (.error e)

/-- The answer to a poll that finds the given item, or none. -/
def answerOf : Option Item → Except Fault (Option UInt8)
  | none => .ok none
  | some (.ok b) => .ok (some b)
  | some (.error e) => .error e

@[simp] theorem answerOf_itemOf (a : Except Fault (Option UInt8)) : answerOf (itemOf a) = a := by
  rcases a with e | _ | b
  · rfl
  · rfl
  · rfl

/-- Bytes, and behind them the fault that ended the reader, if one did. -/
def itemsFrom (bytes : List UInt8) (faults : List Fault) : List Item :=
  bytes.map .ok ++ faults.map .error

/-- The items that wait in a feed, in the order in which they are handed out. -/
def items (f : Feed) : List Item := itemsFrom f.waitingBytes f.waitingFaults

theorem itemsFrom_append (xs ys : List UInt8) (faults : List Fault) :
    itemsFrom (xs ++ ys) faults = xs.map .ok ++ itemsFrom ys faults := by
  rw [itemsFrom, itemsFrom, List.map_append, List.append_assoc]

/-- The bytes of the chunk that was opened last come first. -/
theorem items_eq_pending_append (f : Feed) :
    f.items = f.pending.map .ok ++ itemsFrom f.sentBytes f.waitingFaults :=
  itemsFrom_append f.pending f.sentBytes f.waitingFaults

/-! ## Polling and waiting -/

/-- A poll hands out the first item, and the others go on waiting. -/
theorem Ordered.items_poll (h : f.Ordered) :
    (itemOf f.poll.1).toList ++ f.poll.2.items = f.items := by
  have hbytes := waitingBytes_poll f
  have hfaults := waitingFaults_poll f
  rcases hanswer : f.poll.1 with e | _ | b
  · -- a fault is handed out behind all bytes
    rw [hanswer] at hbytes hfaults
    have hnone : f.waitingBytes = [] := h.waitingBytes_of_error hanswer
    have hnone' : f.poll.2.waitingBytes = [] := hbytes.trans hnone
    rw [items, items, hnone, hnone', ← hfaults]
    rfl
  · rw [hanswer] at hbytes hfaults
    rw [items, items, ← hbytes, ← hfaults]
    rfl
  · rw [hanswer] at hbytes hfaults
    rw [items, items, ← hbytes, ← hfaults]
    rfl

/-- A poll finds nothing exactly if no item waits. -/
theorem Ordered.poll_eq_none_iff (h : f.Ordered) (hchunks : .ok [] ∉ f.channel) :
    f.poll.1 = .ok none ↔ f.items = [] := by
  constructor
  · fun_cases Feed.poll f with
    | case1 b rest hpending => rintro ⟨⟩
    | case2 hpending e hdeferred => rintro ⟨⟩
    | case3 hpending hdeferred hdone =>
      intro _
      rw [items, waitingBytes, waitingFaults, sentBytes, sentFaults, hpending, hdeferred,
        (h.empty_of_done hdone).2.2]
      rfl
    | case4 hpending hdeferred hdone chunk rest hchannel =>
      intro hnone
      obtain rfl : chunk = [] := List.head?_eq_none_iff.1 (Except.ok.inj hnone)
      exact absurd (hchannel ▸ List.mem_cons_self) hchunks
    | case5 hpending hdeferred hdone e rest hchannel => rintro ⟨⟩
    | case6 hpending hdeferred hdone hchannel =>
      intro _
      rw [items, waitingBytes, waitingFaults, sentBytes, sentFaults, hpending, hdeferred, hchannel]
      rfl
  · intro hitems
    have hpoll := h.items_poll
    rw [hitems, List.append_eq_nil_iff, Option.toList_eq_nil_iff] at hpoll
    rw [← answerOf_itemOf f.poll.1, hpoll.1]
    rfl

/-- A poll takes the first item off the queue, and finds nothing if there is none. -/
theorem Ordered.poll_eq (h : f.Ordered) (hchunks : .ok [] ∉ f.channel) :
    f.poll.1 = answerOf f.items.head? ∧ f.poll.2.items = f.items.tail := by
  have hpoll := h.items_poll
  have hanswer := answerOf_itemOf f.poll.1
  cases hitem : itemOf f.poll.1 with
  | none =>
    rw [hitem] at hpoll hanswer
    have hnone : f.items = [] := (h.poll_eq_none_iff hchunks).1 hanswer.symm
    rw [hnone] at hpoll ⊢
    exact ⟨hanswer.symm, hpoll⟩
  | some x =>
    rw [hitem] at hpoll hanswer
    rw [← hpoll]
    exact ⟨hanswer.symm, rfl⟩

theorem items_await (f : Feed) : f.await.items = f.items := by
  rw [items, items, waitingBytes_await, waitingFaults_await]

/-! ## The channel -/

theorem mem_channel_of_poll {r : ReadResult} (h : r ∈ f.poll.2.channel) : r ∈ f.channel := by
  revert h
  fun_cases poll f with
  | case1 b rest hpending => exact id
  | case2 hpending e hdeferred => exact id
  | case3 hpending hdeferred hdone => exact id
  | case4 hpending hdeferred hdone chunk rest hchannel =>
    rw [hchannel]
    exact List.mem_cons_of_mem _
  | case5 hpending hdeferred hdone e rest hchannel =>
    rw [hchannel]
    exact List.mem_cons_of_mem _
  | case6 hpending hdeferred hdone hchannel => exact id

theorem mem_channel_of_await {r : ReadResult} (h : r ∈ f.await.channel) : r ∈ f.channel := by
  revert h
  fun_cases await f with
  | case1 hempty chunk rest hchannel =>
    rw [hchannel]
    exact List.mem_cons_of_mem _
  | case2 hempty e rest hchannel =>
    rw [hchannel]
    exact List.mem_cons_of_mem _
  | case3 hempty hchannel => exact id
  | case4 hheld => exact id

/-- The reader sends no empty chunk. -/
theorem ok_nil_not_mem_channel_pass (hchunks : .ok [] ∉ f.channel) (r : ReadResult) :
    .ok [] ∉ (f.pass r).channel := by
  have hsend : ∀ r : ReadResult, r ≠ .ok [] → .ok [] ∉ (f.send r).channel := by
    intro r hr
    rw [send]
    split
    · rw [List.mem_append, List.mem_singleton]
      rintro (hmem | heq)
      · exact hchunks hmem
      · exact hr heq.symm
    · exact hchunks
  fun_cases pass f r with
  | case1 => exact hchunks
  | case2 bytes hne => exact hsend _ fun heq ↦ hne (Except.ok.inj heq)
  | case3 e hkind => exact hchunks
  | case4 e hkind => exact hsend _ (by rintro ⟨⟩)

namespace History

variable {h : History}

/-! ## Answers -/

/-- The answer that the holder gets by a move: one if it polls, and none otherwise. -/
def answersTo (h : History) : Move → List (Except Fault (Option UInt8))
  | .poll => [h.feed.poll.1]
  | _ => []

/-- The answers that the holder gets while some moves are made. -/
def answersDuring : History → List Move → List (Except Fault (Option UInt8))
  | _, [] => []
  | h, m :: moves => h.answersTo m ++ answersDuring (h.after m) moves

theorem answers_after (h : History) (m : Move) :
    (h.after m).answers = h.answers ++ h.answersTo m := by
  cases m with
  | read r =>
    rw [after, answersTo, List.append_nil]
    · split
      · rfl
      · rfl
    · rintro ⟨⟩
  | hangUp =>
    rw [after, answersTo, List.append_nil]
    · split
      · rfl
      · rfl
    · rintro ⟨⟩
  | poll => rfl
  | await => exact (List.append_nil h.answers).symm

/-- Answers are recorded one behind the other. -/
theorem answers_afterAll (h : History) (moves : List Move) :
    (h.afterAll moves).answers = h.answers ++ h.answersDuring moves := by
  induction moves generalizing h with
  | nil => exact (List.append_nil h.answers).symm
  | cons m moves ih => rw [afterAll_cons, ih, answers_after, answersDuring, List.append_assoc]

/-! ## Histories of queues -/

/-- A history is regular if it is sound and no chunk on the channel is empty. -/
structure Regular (h : History) : Prop extends Sound h where
  /-- The reader has sent no empty chunk. -/
  chunks : .ok [] ∉ h.feed.channel

theorem Regular.after (hr : h.Regular) (m : Move) : (h.after m).Regular := by
  refine ⟨hr.toSound.after m, ?_⟩
  cases m with
  | read r =>
    rw [History.after]
    split
    · exact hr.chunks
    · exact ok_nil_not_mem_channel_pass hr.chunks r
  | hangUp =>
    rw [History.after]
    split
    · exact hr.chunks
    · exact hr.chunks
  | poll => exact fun hmem ↦ hr.chunks (mem_channel_of_poll hmem)
  | await => exact fun hmem ↦ hr.chunks (mem_channel_of_await hmem)

theorem Regular.afterAll (hr : h.Regular) (moves : List Move) : (h.afterAll moves).Regular := by
  induction moves generalizing h with
  | nil => exact hr
  | cons m moves ih => exact ih (hr.after m)

theorem regular_ofMoves (moves : List Move) : (ofMoves moves).Regular :=
  Regular.afterAll ⟨sound_new, List.not_mem_nil⟩ moves

/-- A read of a reader that has not read its last puts what it gives behind all items. -/
theorem Regular.items_pass (hr : h.Regular) (hfinished : h.finished = false) (r : ReadResult) :
    (h.feed.pass r).items = h.feed.items ++ itemsFrom (bytesOf r) (finalFault r).toList := by
  have hnone : h.feed.waitingFaults = [] := (hr.waitingFaults_eq_nil hfinished).1
  rw [items, items, waitingBytes_pass r hr.held, waitingFaults_pass r hr.held, hnone, itemsFrom,
    itemsFrom, itemsFrom, List.map_append, List.map_nil, List.append_nil, List.nil_append,
    List.append_assoc]

theorem Regular.poll_eq (hr : h.Regular) :
    h.feed.poll.1 = answerOf h.feed.items.head? ∧ h.feed.poll.2.items = h.feed.items.tail :=
  hr.ordered.poll_eq hr.chunks

theorem Regular.poll_eq_none_iff (hr : h.Regular) :
    h.feed.poll.1 = .ok none ↔ h.feed.items = [] :=
  hr.ordered.poll_eq_none_iff hr.chunks

end History

end Brainfuck.Feed
