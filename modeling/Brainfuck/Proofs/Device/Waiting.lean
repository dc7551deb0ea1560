import Brainfuck.Proofs.Device.Stream

/-!
# Waiting changes nothing

Waiting and polling take from the same channel, but not in the same way. A poll that takes a fault
off the channel reports it at once, and waiting defers it. Either of them may be the one to find out
that the reader has hung up. Still the holder cannot tell afterwards whether it has waited, for the
items in the feed are the same and the answers to polls depend on nothing else.

## What waiting tells

After waiting the feed says whether it is ready. If it is, the bytes that are pending are the first
items, and they stay first whatever the reader does, because a read only adds items at the end. If
it is not, there is no byte anywhere in the feed: a chunk on the channel would have been opened.
-/

namespace Brainfuck.Feed

variable {f : Feed}

/-- If the feed is not ready after waiting, the next poll gives no byte. It reports the fault that
was deferred, if there is one. -/
theorem poll_await_of_not_ready (hchunks : .ok [] ∉ f.channel) (hready : f.await.ready = false) :
    (∃ e, f.await.deferred = some e ∧ f.await.poll.1 = .error e) ∨
      (f.await.deferred = none ∧ f.await.poll.1 = .ok none) := by
  have hpending : f.await.pending = [] := by simpa [ready] using hready
  cases hdeferred : f.await.deferred with
  | some e =>
    refine .inl ⟨e, rfl, ?_⟩
    simp only [poll, hpending, hdeferred]
  | none =>
    refine .inr ⟨rfl, ?_⟩
    -- nothing was taken off the channel, so it is empty or the feed is done
    have hempty : f.await.done = true ∨ f.await.channel = [] := by
      revert hpending hdeferred
      fun_cases await f with
      | case1 hempty chunk rest hchannel =>
        intro hnil _
        obtain rfl : chunk = [] := hnil
        exact absurd (hchannel ▸ List.mem_cons_self) hchunks
      | case2 hempty e rest hchannel => rintro - ⟨⟩
      | case3 hempty hchannel => exact fun _ _ ↦ .inr hchannel
      | case4 hnot =>
        intro hnil hnone
        refine .inl ?_
        by_contra hdone
        exact hnot ⟨hnil, Bool.eq_false_iff.2 hdone, hnone⟩
    simp only [poll, hpending, hdeferred]
    split
    · rfl
    · next hdone => rw [hempty.resolve_left hdone]

namespace History

variable {h h' : History}

/-! ## Histories that look alike -/

/-- The same items wait for the holder, and the readers have read their last or not. -/
structure Alike (h h' : History) : Prop where
  items_eq : h.feed.items = h'.feed.items
  finished_eq : h.finished = h'.finished

/-- Whether a read is the last does not depend on the state of the feed, as long as it is held. -/
theorem Regular.isLast_eq (hr : h.Regular) (hr' : h'.Regular) (r : ReadResult) :
    h.feed.isLast r = h'.feed.isLast r := by
  cases r with
  | error e => rfl
  | ok bytes =>
    cases bytes with
    | nil => rfl
    | cons b bytes => rw [isLast, isLast, hr.held, hr'.held] <;> simp

/-- Alike histories give the same answers and stay alike. -/
theorem Alike.after (ha : Alike h h') (hr : h.Regular) (hr' : h'.Regular) (m : Move) :
    Alike (h.after m) (h'.after m) ∧ h.answersTo m = h'.answersTo m := by
  cases m with
  | poll =>
    obtain ⟨hanswer, hrest⟩ := hr.poll_eq
    obtain ⟨hanswer', hrest'⟩ := hr'.poll_eq
    refine ⟨⟨?_, ha.finished_eq⟩, ?_⟩
    · rw [ha.items_eq, ← hrest'] at hrest
      exact hrest
    · rw [answersTo, answersTo, hanswer, hanswer', ha.items_eq]
  | await =>
    refine ⟨⟨?_, ha.finished_eq⟩, rfl⟩
    rw [History.after, History.after, items_await, items_await]
    exact ha.items_eq
  | hangUp =>
    refine ⟨?_, rfl⟩
    rw [History.after, History.after, ha.finished_eq]
    split
    · exact ⟨ha.items_eq, rfl⟩
    · exact ha
  | read r =>
    refine ⟨?_, rfl⟩
    have hfinished := ha.finished_eq
    rw [History.after, History.after, hfinished]
    split
    · exact ha
    · next hnot =>
      have hnot := Bool.eq_false_iff.2 hnot
      refine ⟨?_, hr.isLast_eq hr' r⟩
      rw [hr.items_pass (hfinished.trans hnot), hr'.items_pass hnot, ha.items_eq]

theorem Alike.answersDuring_eq (ha : Alike h h') (hr : h.Regular) (hr' : h'.Regular)
    (later : List Move) : h.answersDuring later = h'.answersDuring later := by
  induction later generalizing h h' with
  | nil => rfl
  | cons m later ih =>
    obtain ⟨hnext, hanswers⟩ := ha.after hr hr' m
    rw [answersDuring, answersDuring, hanswers, ih hnext (hr.after m) (hr'.after m)]

/-- Waiting any number of times leaves a history as it looks. -/
theorem alike_afterAll_await (h : History) (n : Nat) :
    Alike (h.afterAll (List.replicate n .await)) h := by
  induction n generalizing h with
  | zero => exact ⟨rfl, rfl⟩
  | succ n ih =>
    obtain ⟨hitems, hfinished⟩ := ih (h.after .await)
    rw [List.replicate_succ, afterAll_cons]
    exact ⟨hitems.trans (items_await h.feed), hfinished⟩

/-! ## The first items -/

/-- Moves other than polls only add items at the end. -/
theorem Regular.items_after (hr : h.Regular) {m : Move} (hm : h.answersTo m = []) :
    ∃ more, (h.after m).feed.items = h.feed.items ++ more := by
  cases m with
  | poll => cases hm
  | await => exact ⟨[], (items_await h.feed).trans (List.append_nil _).symm⟩
  | hangUp =>
    refine ⟨[], ?_⟩
    rw [History.after, List.append_nil]
    split
    · rfl
    · rfl
  | read r =>
    rw [History.after]
    split
    · exact ⟨[], (List.append_nil _).symm⟩
    · next hnot => exact ⟨_, hr.items_pass (Bool.eq_false_iff.2 hnot) r⟩

/-- Bytes that are first in the queue are what the next polls give, whatever happens in between. -/
theorem Regular.take_answersDuring (hr : h.Regular) {bytes : List UInt8} {rest : List Item}
    (hitems : h.feed.items = bytes.map .ok ++ rest) (later : List Move) :
    (h.answersDuring later).take bytes.length =
      (bytes.map fun b ↦ .ok (some b)).take (h.answersDuring later).length := by
  induction later generalizing h bytes rest with
  | nil => rw [answersDuring, List.take_nil, List.length_nil, List.take_zero]
  | cons m later ih =>
    have hnext := hr.after m
    by_cases hm : h.answersTo m = []
    · obtain ⟨more, hmore⟩ := hr.items_after hm
      rw [hitems, List.append_assoc] at hmore
      rw [answersDuring, hm, List.nil_append]
      exact ih hnext hmore
    · obtain rfl : m = .poll := by
        cases m with
        | poll => rfl
        | _ => exact absurd rfl hm
      cases bytes with
      | nil => rfl
      | cons b bytes =>
        obtain ⟨hanswer, hrest⟩ := hr.poll_eq
        rw [hitems] at hanswer hrest
        have hanswers : h.answersTo .poll = [.ok (some b)] := congrArg ([·]) hanswer
        rw [answersDuring, hanswers]
        exact congrArg (Except.ok (some b) :: ·) (ih hnext hrest)

/-- **Waiting is transparent, and what it tells is true.** In every state that a feed can reach,
waiting any number of times changes none of the answers to later polls, whatever else happens in
between. If the feed is ready after waiting, the pending bytes are what the next polls give, however
the reader goes on. If it is not, the next poll gives no byte: it reports a fault that waiting has
taken off the channel, or finds nothing. -/
theorem await_is_transparent (moves : List Move) :
    let h := ofMoves moves
    let waited := h.after .await
    (∀ n later, (h.afterAll (List.replicate n .await)).answersDuring later =
        h.answersDuring later) ∧
      (waited.feed.ready = true → waited.feed.pending ≠ [] ∧ ∀ later,
        (waited.answersDuring later).take waited.feed.pending.length =
          (waited.feed.pending.map fun b ↦ .ok (some b)).take
            (waited.answersDuring later).length) ∧
      (waited.feed.ready = false →
        (∃ e, waited.feed.deferred = some e ∧ waited.feed.poll.1 = .error e) ∨
          (waited.feed.deferred = none ∧ waited.feed.poll.1 = .ok none)) := by
  intro h waited
  have hr : h.Regular := regular_ofMoves moves
  refine ⟨fun n later ↦ ?_, fun hready ↦ ⟨?_, fun later ↦ ?_⟩, poll_await_of_not_ready hr.chunks⟩
  · exact (alike_afterAll_await h n).answersDuring_eq (hr.afterAll _) hr later
  · rintro hnil
    rw [ready, hnil] at hready
    cases hready
  · exact (hr.after .await).take_answersDuring (items_eq_pending_append _) later

/-- Waiting opens a chunk of two bytes, which come first even if a broken pipe is read before they
are polled for. Waiting for a broken pipe defers it, and it is reported once all the same. -/
theorem await_is_transparent_brokenPipe :
    let fault := FaultKind.brokenPipe.fault
    let full := (ofMoves [.read (.ok [65, 66])]).after .await
    let broken := (ofMoves [.read (.error fault)]).after .await
    full.feed.ready = true ∧
      (full.answersDuring [.read (.error fault), .poll, .hangUp, .poll, .poll]).take 2 =
        [.ok (some 65), .ok (some 66)] ∧
      broken.feed.ready = false ∧ broken.feed.poll.1 = .error fault ∧
      ((ofMoves [.read (.error fault)]).afterAll (List.replicate 3 .await)).answersDuring
        [.poll, .poll] = [.error fault, .ok none] := by
  intro fault full broken
  have hready : full.feed.ready = true := rfl
  have hnot : broken.feed.ready = false := rfl
  obtain ⟨-, hfull, -⟩ := await_is_transparent [.read (.ok [65, 66])]
  obtain ⟨hbroken, -, hfails⟩ := await_is_transparent [.read (.error fault)]
  refine ⟨hready, (hfull hready).2 _, hnot, ?_, hbroken 3 _⟩
  rcases hfails hnot with ⟨e, hdeferred, hpoll⟩ | ⟨hnone, -⟩
  · cases hdeferred
    exact hpoll
  · cases hnone

end History

end Brainfuck.Feed
