import Brainfuck.Device.Feed.History
import Mathlib.Tactic.Common

/-!
# Feeds lose nothing

What a reader reads reaches the holder of the feed in order, whatever the order in which the two
take their turns. Between a read and its answer, bytes wait on the channel or in `pending`, and the
fault that ends the reader waits on the channel or in `deferred`.

## The invariant

It has two layers. The feed alone is *ordered*: only the last thing on the channel can be a fault, a
deferred fault has nothing before it, and a feed that is done is empty. Polling and waiting keep it
ordered by themselves, and conserve what waits in it. The history is *sound* if its feed is
ordered, if what was handed out and what waits make up what was read, and if every sign of the end
(a fault, a reader that hung up, a feed that is done) comes from a reader that has read its last. It
is the last part that keeps the reader from sending behind a fault or to a feed that is done.
-/

namespace Brainfuck.Feed

variable {f : Feed}

/-! ## What waits in a feed -/

theorem waitingBytes_poll (f : Feed) :
    (byteOf f.poll.1).toList ++ f.poll.2.waitingBytes = f.waitingBytes := by
  fun_cases poll f with
  | case1 b rest hpending => rw [waitingBytes, waitingBytes, hpending]; rfl
  | case2 hpending e hdeferred => rfl
  | case3 hpending hdeferred hdone => rfl
  | case4 hpending hdeferred hdone chunk rest hchannel =>
    rw [waitingBytes, waitingBytes, sentBytes, sentBytes, hpending, hchannel]
    cases chunk with
    | nil => rfl
    | cons b chunk => rfl
  | case5 hpending hdeferred hdone e rest hchannel =>
    rw [waitingBytes, waitingBytes, sentBytes, sentBytes, hchannel]
    rfl
  | case6 hpending hdeferred hdone hchannel => rfl

theorem waitingFaults_poll (f : Feed) :
    (faultOf f.poll.1).toList ++ f.poll.2.waitingFaults = f.waitingFaults := by
  fun_cases poll f with
  | case1 b rest hpending => rfl
  | case2 hpending e hdeferred => rw [waitingFaults, waitingFaults, hdeferred]; rfl
  | case3 hpending hdeferred hdone => rfl
  | case4 hpending hdeferred hdone chunk rest hchannel =>
    rw [waitingFaults, waitingFaults, sentFaults, sentFaults, hchannel]
    rfl
  | case5 hpending hdeferred hdone e rest hchannel =>
    rw [waitingFaults, waitingFaults, sentFaults, sentFaults, hdeferred, hchannel]
    rfl
  | case6 hpending hdeferred hdone hchannel => rfl

theorem waitingBytes_await (f : Feed) : f.await.waitingBytes = f.waitingBytes := by
  fun_cases await f with
  | case1 hempty chunk rest hchannel =>
    rw [waitingBytes, waitingBytes, sentBytes, sentBytes, hempty.1, hchannel]
    rfl
  | case2 hempty e rest hchannel =>
    rw [waitingBytes, waitingBytes, sentBytes, sentBytes, hchannel]
    rfl
  | case3 hempty hchannel => rfl
  | case4 hheld => rfl

theorem waitingFaults_await (f : Feed) : f.await.waitingFaults = f.waitingFaults := by
  fun_cases await f with
  | case1 hempty chunk rest hchannel =>
    rw [waitingFaults, waitingFaults, sentFaults, sentFaults, hchannel]
    rfl
  | case2 hempty e rest hchannel =>
    rw [waitingFaults, waitingFaults, sentFaults, sentFaults, hempty.2.2, hchannel]
    rfl
  | case3 hempty hchannel => rfl
  | case4 hheld => rfl

/-- The reader either has nothing to pass on, or it sends what it has read. -/
theorem pass_cases (r : ReadResult) (hheld : f.held = true) :
    (f.pass r = f ∧ bytesOf r = [] ∧ History.finalFault r = none) ∨
      (f.pass r = { f with channel := f.channel ++ [r] } ∧
        History.finalFault r = faultOf r) := by
  fun_cases pass f r with
  | case1 => exact .inl ⟨rfl, rfl, rfl⟩
  | case2 bytes hne => exact .inr ⟨by rw [send, if_pos hheld], rfl⟩
  | case3 e hkind => exact .inl ⟨rfl, rfl, by simp [History.finalFault, faultOf, hkind]⟩
  | case4 e hkind =>
    exact .inr ⟨by rw [send, if_pos hheld], by simp [History.finalFault, faultOf, hkind]⟩

theorem waitingBytes_pass (r : ReadResult) (hheld : f.held = true) :
    (f.pass r).waitingBytes = f.waitingBytes ++ bytesOf r := by
  rcases pass_cases r hheld with ⟨hpass, hbytes, -⟩ | ⟨hpass, -⟩
  · rw [hpass, hbytes, List.append_nil]
  · rw [hpass, waitingBytes, waitingBytes, sentBytes, sentBytes, List.flatMap_append,
      List.flatMap_singleton, List.append_assoc]

theorem waitingFaults_pass (r : ReadResult) (hheld : f.held = true) :
    (f.pass r).waitingFaults = f.waitingFaults ++ (History.finalFault r).toList := by
  rcases pass_cases r hheld with ⟨hpass, -, hfault⟩ | ⟨hpass, hfault⟩
  · rw [hpass, hfault, Option.toList_none, List.append_nil]
  · rw [hpass, hfault, waitingFaults, waitingFaults, sentFaults, sentFaults, List.filterMap_append,
      List.append_assoc]
    cases r with
    | ok bytes => rfl
    | error e => rfl

/-! ## Order -/

/-- Nothing overtakes a fault, and a feed that is done is empty. -/
structure Ordered (f : Feed) : Prop where
  /-- Only the last thing on the channel can be a fault. -/
  fault_last : ∀ r ∈ f.channel.dropLast, faultOf r = none
  /-- A deferred fault has nothing before it and nothing behind it. -/
  empty_of_deferred : f.deferred ≠ none → f.pending = [] ∧ f.channel = []
  /-- A feed that is done is empty. -/
  empty_of_done : f.done = true → f.pending = [] ∧ f.deferred = none ∧ f.channel = []

theorem ordered_new : Ordered {} :=
  ⟨fun _ hr ↦ (List.not_mem_nil hr).elim, fun h ↦ (h rfl).elim, fun h ↦ (Bool.false_ne_true h).elim⟩

/-- Taking something off the channel leaves only the last thing a possible fault. -/
theorem Ordered.fault_last_tail {r : ReadResult} {rest : List ReadResult} (h : f.Ordered)
    (hchannel : f.channel = r :: rest) : ∀ s ∈ rest.dropLast, faultOf s = none := by
  intro s hs
  have hne : rest ≠ [] := by
    rintro rfl
    exact List.not_mem_nil hs
  apply h.fault_last
  rw [hchannel, List.dropLast_cons_of_ne_nil hne]
  exact List.mem_cons_of_mem _ hs

/-- A fault that is first on the channel is alone there. -/
theorem Ordered.eq_nil_of_fault {e : Fault} {rest : List ReadResult} (h : f.Ordered)
    (hchannel : f.channel = .error e :: rest) : rest = [] := by
  by_contra hne
  have hfault : faultOf (.error e : ReadResult) = none := by
    apply h.fault_last
    rw [hchannel, List.dropLast_cons_of_ne_nil hne]
    exact List.mem_cons_self
  cases hfault

/-- Behind a deferred fault nothing is on the channel. -/
theorem Ordered.eq_nil_of_deferred {e : Fault} (h : f.Ordered) (hdeferred : f.deferred = some e) :
    f.channel = [] := by
  apply (h.empty_of_deferred _).2
  rw [hdeferred]
  exact Option.some_ne_none e

theorem Ordered.poll (h : f.Ordered) : f.poll.2.Ordered := by
  fun_cases Feed.poll f with
  | case1 b rest hpending =>
    refine ⟨h.fault_last, fun hdeferred ↦ ?_, fun hdone ↦ ?_⟩
    · rw [(h.empty_of_deferred hdeferred).1] at hpending
      cases hpending
    · rw [(h.empty_of_done hdone).1] at hpending
      cases hpending
  | case2 hpending e hdeferred =>
    have hchannel : f.channel = [] := h.eq_nil_of_deferred hdeferred
    exact ⟨h.fault_last, fun hne ↦ (hne rfl).elim, fun _ ↦ ⟨hpending, rfl, hchannel⟩⟩
  | case3 hpending hdeferred hdone => exact h
  | case4 hpending hdeferred hdone chunk rest hchannel =>
    exact ⟨h.fault_last_tail hchannel, fun hne ↦ (hne hdeferred).elim, fun hd ↦ (hdone hd).elim⟩
  | case5 hpending hdeferred hdone e rest hchannel =>
    exact ⟨h.fault_last_tail hchannel, fun hne ↦ (hne hdeferred).elim,
      fun _ ↦ ⟨hpending, hdeferred, h.eq_nil_of_fault hchannel⟩⟩
  | case6 hpending hdeferred hdone hchannel =>
    exact ⟨h.fault_last, fun hne ↦ (hne hdeferred).elim,
      fun _ ↦ ⟨hpending, hdeferred, hchannel⟩⟩

theorem Ordered.await (h : f.Ordered) : f.await.Ordered := by
  fun_cases Feed.await f with
  | case1 hempty chunk rest hchannel =>
    obtain ⟨hpending, hdone, hdeferred⟩ := hempty
    refine ⟨h.fault_last_tail hchannel, fun hne ↦ (hne hdeferred).elim, fun hd ↦ ?_⟩
    exact (Bool.false_ne_true (hdone.symm.trans hd)).elim
  | case2 hempty e rest hchannel =>
    obtain ⟨hpending, hdone, hdeferred⟩ := hempty
    refine ⟨h.fault_last_tail hchannel, fun _ ↦ ⟨hpending, h.eq_nil_of_fault hchannel⟩,
      fun hd ↦ ?_⟩
    exact (Bool.false_ne_true (hdone.symm.trans hd)).elim
  | case3 hempty hchannel =>
    obtain ⟨hpending, hdone, hdeferred⟩ := hempty
    exact ⟨h.fault_last, fun hne ↦ (hne hdeferred).elim,
      fun _ ↦ ⟨hpending, hdeferred, hchannel⟩⟩
  | case4 => exact h

/-- The reader may send to a feed that is not done and in which no fault waits. -/
theorem Ordered.pass (h : f.Ordered) (r : ReadResult) (hheld : f.held = true)
    (hfaults : f.waitingFaults = []) (hdone : f.done = false) : (f.pass r).Ordered := by
  rw [waitingFaults, List.append_eq_nil_iff, Option.toList_eq_nil_iff] at hfaults
  obtain ⟨hdeferred, hsent⟩ := hfaults
  rcases pass_cases r hheld with ⟨hpass, -, -⟩ | ⟨hpass, -⟩
  · rw [hpass]
    exact h
  · rw [hpass]
    refine ⟨fun s hs ↦ ?_, fun hne ↦ (hne hdeferred).elim, fun hd ↦ ?_⟩
    · rw [List.dropLast_concat] at hs
      exact List.filterMap_eq_nil_iff.1 hsent s hs
    · exact (Bool.false_ne_true (hdone.symm.trans hd)).elim

theorem Ordered.hangUp (h : f.Ordered) : f.hangUp.Ordered :=
  ⟨h.fault_last, h.empty_of_deferred, h.empty_of_done⟩

/-! ## How a feed ends -/

@[simp] theorem pass_held (f : Feed) (r : ReadResult) : (f.pass r).held = f.held := by
  fun_cases pass f r <;> simp only [send] <;> split <;> rfl

@[simp] theorem pass_reading (f : Feed) (r : ReadResult) : (f.pass r).reading = f.reading := by
  fun_cases pass f r <;> simp only [send] <;> split <;> rfl

@[simp] theorem pass_done (f : Feed) (r : ReadResult) : (f.pass r).done = f.done := by
  fun_cases pass f r <;> simp only [send] <;> split <;> rfl

@[simp] theorem poll_held (f : Feed) : f.poll.2.held = f.held := by
  fun_cases poll f <;> rfl

@[simp] theorem poll_reading (f : Feed) : f.poll.2.reading = f.reading := by
  fun_cases poll f <;> rfl

@[simp] theorem await_held (f : Feed) : f.await.held = f.held := by
  fun_cases await f <;> rfl

@[simp] theorem await_reading (f : Feed) : f.await.reading = f.reading := by
  fun_cases await f <;> rfl

/-- A poll ends a feed only by reporting a fault, or because the reader has hung up. -/
theorem poll_done (h : f.poll.2.done = true) :
    f.done = true ∨ f.waitingFaults ≠ [] ∨ f.reading = false := by
  revert h
  fun_cases poll f with
  | case1 b rest hpending => exact .inl
  | case2 hpending e hdeferred =>
    intro _
    refine .inr (.inl ?_)
    rw [waitingFaults, hdeferred]
    exact List.cons_ne_nil _ _
  | case3 hpending hdeferred hdone => exact .inl
  | case4 hpending hdeferred hdone chunk rest hchannel => exact .inl
  | case5 hpending hdeferred hdone e rest hchannel =>
    intro _
    refine .inr (.inl ?_)
    rw [waitingFaults, hdeferred, sentFaults, hchannel]
    exact List.cons_ne_nil _ _
  | case6 hpending hdeferred hdone hchannel =>
    intro h
    exact .inr (.inr (by simpa using h))

/-- Waiting ends a feed only because the reader has hung up. -/
theorem await_done (h : f.await.done = true) : f.done = true ∨ f.reading = false := by
  revert h
  fun_cases await f with
  | case1 hempty chunk rest hchannel => exact .inl
  | case2 hempty e rest hchannel => exact .inl
  | case3 hempty hchannel =>
    intro h
    exact .inr (by simpa using h)
  | case4 hheld => exact .inl

theorem Ordered.poll_of_done (h : f.Ordered) (hdone : f.done = true) : f.poll = (.ok none, f) := by
  obtain ⟨hpending, hdeferred, -⟩ := h.empty_of_done hdone
  simp only [Feed.poll, hpending, hdeferred, hdone, if_true]

theorem await_of_done (hdone : f.done = true) : f.await = f := by
  rw [await, if_neg]
  rintro ⟨-, hnot, -⟩
  exact Bool.false_ne_true (hnot.symm.trans hdone)

/-- When a poll reports a fault, no byte waits. -/
theorem Ordered.waitingBytes_of_error {e : Fault} (h : f.Ordered) (hpoll : f.poll.1 = .error e) :
    f.waitingBytes = [] := by
  revert hpoll
  fun_cases Feed.poll f with
  | case1 b rest hpending => rintro ⟨⟩
  | case2 hpending e' hdeferred =>
    intro _
    rw [waitingBytes, sentBytes, hpending, h.eq_nil_of_deferred hdeferred]
    rfl
  | case3 hpending hdeferred hdone => rintro ⟨⟩
  | case4 hpending hdeferred hdone chunk rest hchannel => rintro ⟨⟩
  | case5 hpending hdeferred hdone e' rest hchannel =>
    intro _
    rw [waitingBytes, sentBytes, hpending, hchannel, h.eq_nil_of_fault hchannel]
    rfl
  | case6 hpending hdeferred hdone hchannel => rintro ⟨⟩

namespace History

variable {h : History}

/-! ## Soundness of a history -/

/-- What was read has been handed out or waits in the feed, and the end comes from the reader. -/
structure Sound (h : History) : Prop where
  /-- Nobody has let go of the feed. -/
  held : h.feed.held = true
  /-- The feed is in order. -/
  ordered : h.feed.Ordered
  /-- The bytes that were handed out and those that wait are the bytes that were read. -/
  bytes_eq : h.handedOut ++ h.feed.waitingBytes = h.bytes
  /-- The fault is reported or waits. -/
  faults_eq : h.reported ++ h.feed.waitingFaults = h.fault.toList
  /-- A fault is the last that the reader has read. -/
  finished_of_fault : h.fault ≠ none → h.finished = true
  /-- Only a reader that has read its last hangs up. -/
  finished_of_hangUp : h.feed.reading = false → h.finished = true
  /-- Only a reader that has read its last leaves a feed that is done. -/
  finished_of_done : h.feed.done = true → h.finished = true

theorem sound_new : Sound {} where
  held := rfl
  ordered := ordered_new
  bytes_eq := rfl
  faults_eq := rfl
  finished_of_fault := fun h ↦ (h rfl).elim
  finished_of_hangUp := fun h ↦ (Bool.true_eq_false.mp h).elim
  finished_of_done := fun h ↦ (Bool.false_ne_true h).elim

theorem handedOut_after_poll (h : History) :
    (h.after .poll).handedOut = h.handedOut ++ (byteOf h.feed.poll.1).toList := by
  rw [handedOut, handedOut, after, List.filterMap_append, List.filterMap_cons]
  cases byteOf h.feed.poll.1 with
  | none => rfl
  | some b => rfl

theorem reported_after_poll (h : History) :
    (h.after .poll).reported = h.reported ++ (faultOf h.feed.poll.1).toList := by
  rw [reported, reported, after, List.filterMap_append, List.filterMap_cons]
  cases faultOf h.feed.poll.1 with
  | none => rfl
  | some e => rfl

/-- While the reader still reads, no fault waits. -/
theorem Sound.waitingFaults_eq_nil (hs : h.Sound) (hfinished : h.finished = false) :
    h.feed.waitingFaults = [] ∧ h.reported = [] := by
  have hfault : h.fault = none := by
    by_contra hne
    exact Bool.false_ne_true (hfinished.symm.trans (hs.finished_of_fault hne))
  have heq := hs.faults_eq
  rw [hfault, Option.toList_none, List.append_eq_nil_iff] at heq
  exact ⟨heq.2, heq.1⟩

/-- A fault that waits is the fault of a reader that has read its last. -/
theorem Sound.finished_of_waitingFaults (hs : h.Sound) (hne : h.feed.waitingFaults ≠ []) :
    h.finished = true := by
  by_contra hfinished
  exact hne (hs.waitingFaults_eq_nil (Bool.eq_false_iff.2 hfinished)).1

theorem isLast_of_finalFault {r : ReadResult} (hne : finalFault r ≠ none) :
    h.feed.isLast r = true := by
  cases r with
  | ok bytes => exact (hne rfl).elim
  | error e =>
    rw [isLast, decide_eq_true_iff]
    intro hkind
    exact hne (by simp [finalFault, faultOf, hkind])

theorem Sound.read (hs : h.Sound) (r : ReadResult) : (h.after (.read r)).Sound := by
  by_cases hfinished : h.finished = true
  · rw [after, if_pos hfinished]
    exact hs
  · rw [after, if_neg hfinished]
    have hdone : h.feed.done = false := by
      rw [Bool.eq_false_iff]
      intro hdone
      exact hfinished (hs.finished_of_done hdone)
    -- no fault waits yet, so what is sent now comes behind none
    obtain ⟨hwaiting, hreported⟩ := hs.waitingFaults_eq_nil (Bool.eq_false_iff.2 hfinished)
    refine ⟨?_, ?_, ?_, ?_, ?_, ?_, ?_⟩
    · exact (pass_held h.feed r).trans hs.held
    · exact hs.ordered.pass r hs.held hwaiting hdone
    · rw [waitingBytes_pass r hs.held, ← List.append_assoc]
      exact congrArg (· ++ bytesOf r) hs.bytes_eq
    · rw [waitingFaults_pass r hs.held, hwaiting]
      exact congrArg (· ++ (finalFault r).toList) hreported
    · exact isLast_of_finalFault
    · intro hreading
      rw [pass_reading] at hreading
      exact (hfinished (hs.finished_of_hangUp hreading)).elim
    · intro hd
      rw [pass_done] at hd
      exact (hfinished (hs.finished_of_done hd)).elim

theorem Sound.hangUp (hs : h.Sound) : (h.after .hangUp).Sound := by
  by_cases hfinished : h.finished = true
  · rw [after, if_pos hfinished]
    exact ⟨hs.held, hs.ordered.hangUp, hs.bytes_eq, hs.faults_eq, fun _ ↦ hfinished,
      fun _ ↦ hfinished, fun _ ↦ hfinished⟩
  · rw [after, if_neg hfinished]
    exact hs

theorem Sound.poll (hs : h.Sound) : (h.after .poll).Sound := by
  refine ⟨?_, hs.ordered.poll, ?_, ?_, hs.finished_of_fault, ?_, ?_⟩
  · exact (poll_held h.feed).trans hs.held
  · rw [handedOut_after_poll, List.append_assoc]
    exact (congrArg (h.handedOut ++ ·) (waitingBytes_poll h.feed)).trans hs.bytes_eq
  · rw [reported_after_poll, List.append_assoc]
    exact (congrArg (h.reported ++ ·) (waitingFaults_poll h.feed)).trans hs.faults_eq
  · intro hreading
    exact hs.finished_of_hangUp ((poll_reading h.feed).symm.trans hreading)
  · intro hdone
    rcases poll_done hdone with hdone | hwaiting | hreading
    · exact hs.finished_of_done hdone
    · exact hs.finished_of_waitingFaults hwaiting
    · exact hs.finished_of_hangUp hreading

theorem Sound.await (hs : h.Sound) : (h.after .await).Sound := by
  rw [after]
  refine ⟨?_, hs.ordered.await, ?_, ?_, hs.finished_of_fault, ?_, ?_⟩
  · exact (await_held h.feed).trans hs.held
  · rw [waitingBytes_await]
    exact hs.bytes_eq
  · rw [waitingFaults_await]
    exact hs.faults_eq
  · intro hreading
    rw [await_reading] at hreading
    exact hs.finished_of_hangUp hreading
  · intro hdone
    rcases await_done hdone with hdone | hreading
    · exact hs.finished_of_done hdone
    · exact hs.finished_of_hangUp hreading

theorem Sound.after (hs : h.Sound) (m : Move) : (h.after m).Sound := by
  cases m with
  | read r => exact hs.read r
  | hangUp => exact hs.hangUp
  | poll => exact hs.poll
  | await => exact hs.await

theorem Sound.afterAll (hs : h.Sound) (moves : List Move) : (h.afterAll moves).Sound := by
  induction moves generalizing h with
  | nil => exact hs
  | cons m moves ih => exact ih (hs.after m)

theorem sound_ofMoves (moves : List Move) : (ofMoves moves).Sound := sound_new.afterAll moves

/-! ## After the end -/

theorem Sound.done_after (hs : h.Sound) (hdone : h.feed.done = true) (m : Move) :
    (h.after m).feed.done = true := by
  have hfinished : h.finished = true := hs.finished_of_done hdone
  cases m with
  | read r =>
    rw [History.after, if_pos hfinished]
    exact hdone
  | hangUp =>
    rw [History.after, if_pos hfinished]
    exact hdone
  | poll =>
    rw [History.after, hs.ordered.poll_of_done hdone]
    exact hdone
  | await =>
    rw [History.after, await_of_done hdone]
    exact hdone

theorem Sound.done_afterAll (hs : h.Sound) (hdone : h.feed.done = true) (later : List Move) :
    (h.afterAll later).feed.done = true := by
  induction later generalizing h with
  | nil => exact hdone
  | cons m later ih => exact ih (hs.after m) (hs.done_after hdone m)

/-- Once a feed is done, every later poll finds nothing. -/
theorem Sound.poll_afterAll_of_done (hs : h.Sound) (hdone : h.feed.done = true)
    (later : List Move) : (h.afterAll later).feed.poll.1 = .ok none := by
  rw [(hs.afterAll later).ordered.poll_of_done (hs.done_afterAll hdone later)]

/-! ## Nothing is lost, doubled or overtaken -/

/-- The fault is reported at most once. -/
theorem Sound.length_reported_le (hs : h.Sound) : h.reported.length ≤ 1 := by
  have hlength := congrArg List.length hs.faults_eq
  rw [List.length_append] at hlength
  have hfault : h.fault.toList.length ≤ 1 := Option.length_toList_le
  omega

/-- A poll that reports a fault reports the one that ended the reader, for the first time, and all
bytes have been handed out before. -/
theorem Sound.of_poll_error {e : Fault} (hs : h.Sound) (hpoll : h.feed.poll.1 = .error e) :
    h.fault = some e ∧ h.reported = [] ∧ h.handedOut = h.bytes := by
  have hbytes := hs.bytes_eq
  rw [hs.ordered.waitingBytes_of_error hpoll, List.append_nil] at hbytes
  have hfaults : h.reported ++ e :: h.feed.poll.2.waitingFaults = h.fault.toList := by
    rw [← hs.faults_eq, ← waitingFaults_poll h.feed, hpoll]
    rfl
  refine ⟨?_, ?_, hbytes⟩
  · rw [← Option.mem_toList, ← hfaults]
    exact List.mem_append_right _ List.mem_cons_self
  · -- there is only one fault, so none was reported in front of this one
    have hlength := congrArg List.length hfaults
    rw [List.length_append, List.length_cons] at hlength
    have hfault : h.fault.toList.length ≤ 1 := Option.length_toList_le
    exact List.eq_nil_of_length_eq_zero (by omega)

/-- In every state that a reader and a holder can reach, in whatever order they move, the bytes that
were handed out, those that are pending and those on the channel are the bytes that were read, in
order. The fault that ended the reader is reported at most once, and only behind all bytes. Nothing
else waits beside a deferred fault, and a feed that is done is empty for good. -/
theorem lossless (moves : List Move) :
    let h := ofMoves moves
    h.handedOut ++ (h.feed.pending ++ h.feed.sentBytes) = h.bytes ∧
      h.reported ++ (h.feed.deferred.toList ++ h.feed.sentFaults) = h.fault.toList ∧
      h.reported.length ≤ 1 ∧
      (∀ e, h.feed.poll.1 = .error e →
        h.fault = some e ∧ h.reported = [] ∧ h.handedOut = h.bytes) ∧
      (h.feed.deferred ≠ none → h.feed.pending = [] ∧ h.feed.channel = []) ∧
      (h.feed.done = true →
        h.feed.pending = [] ∧ h.feed.deferred = none ∧ h.feed.channel = [] ∧ h.finished = true ∧
          ∀ later, (ofMoves (moves ++ later)).feed.poll.1 = .ok none) := by
  intro h
  have hs : h.Sound := sound_ofMoves moves
  refine ⟨hs.bytes_eq, hs.faults_eq, hs.length_reported_le, fun e ↦ hs.of_poll_error,
    hs.ordered.empty_of_deferred, fun hdone ↦ ?_⟩
  obtain ⟨hpending, hdeferred, hchannel⟩ := hs.ordered.empty_of_done hdone
  refine ⟨hpending, hdeferred, hchannel, hs.finished_of_done hdone, fun later ↦ ?_⟩
  rw [ofMoves_append]
  exact hs.poll_afterAll_of_done hdone later

/-- An interruption goes unseen, and a broken pipe is reported behind the two bytes before it,
although waiting has taken it off the channel. -/
theorem lossless_brokenPipe :
    let h := ofMoves [.read (.ok [65, 66]), .poll, .read (.error FaultKind.interrupted.fault),
      .read (.error FaultKind.brokenPipe.fault), .poll, .await, .hangUp]
    h.feed.poll.1 = .error FaultKind.brokenPipe.fault ∧ h.fault = some FaultKind.brokenPipe.fault ∧
      h.reported = [] ∧ h.handedOut = h.bytes :=
  ⟨rfl, (lossless _).2.2.2.1 _ rfl⟩

end History

end Brainfuck.Feed
