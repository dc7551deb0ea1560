import Brainfuck.Proofs.Device.Stream

/-!
# What a feed delivers

A reader reads some bytes and comes to an ending: the end of the input, or a fault that is not an
interruption. The bytes may come in any chunks, there may be interruptions between them, and the
holder may poll and wait whenever it likes. None of this shows in what the holder receives. It
receives all bytes in order, behind them the fault if there is one, and then nothing, ever again.

## The invariant

What has been received, followed by the items that still wait, is what the reader has read so far.
Once the reader has read its last this is a fixed list, and a poll that finds nothing shows that no
item waits. So whoever has polled until nothing was found has received that list, and it does not
matter whether the reader has already hung up.
-/

namespace Brainfuck.Feed

/-! ## What a reader supplies -/

/-- The reads among some moves. -/
def readsOf : List Move → List ReadResult
  | [] => []
  | .read r :: moves => r :: readsOf moves
  | _ :: moves => readsOf moves

/-- `Supplies reads bytes ending`: the reads give the bytes, chunk by chunk and perhaps with
interruptions, and come to the ending, which is a fault or the end of the input. -/
inductive Supplies : List ReadResult → List UInt8 → Option Fault → Prop
  /-- A read gives nothing: this is the end of the input. -/
  | ended : Supplies [.ok []] [] none
  /-- A read fails for good. -/
  | failed {e : Fault} (final : e.kind ≠ .interrupted) : Supplies [.error e] [] (some e)
  /-- A read is interrupted, and there are more. -/
  | interrupted {e : Fault} {reads : List ReadResult} {bytes : List UInt8} {ending : Option Fault}
      (again : e.kind = .interrupted) (more : Supplies reads bytes ending) :
      Supplies (.error e :: reads) bytes ending
  /-- A read gives a chunk, and there are more. -/
  | chunk {chunk : List UInt8} {reads : List ReadResult} {bytes : List UInt8}
      {ending : Option Fault} (nonempty : chunk ≠ []) (fits : chunk.length ≤ chunkSize)
      (more : Supplies reads bytes ending) :
      Supplies (.ok chunk :: reads) (chunk ++ bytes) ending

namespace History

variable {h : History} {bytes : List UInt8} {ending : Option Fault} {moves : List Move}

/-- A reader that has read its last reads no more, whatever moves are made. -/
theorem finished_afterAll (hfinished : h.finished = true) (moves : List Move) :
    (h.afterAll moves).finished = true ∧ (h.afterAll moves).bytes = h.bytes ∧
      (h.afterAll moves).fault = h.fault := by
  induction moves generalizing h with
  | nil => exact ⟨hfinished, rfl, rfl⟩
  | cons m moves ih =>
    have hnext : (h.after m).finished = true ∧ (h.after m).bytes = h.bytes ∧
        (h.after m).fault = h.fault := by
      cases m with
      | read r =>
        rw [after, if_pos hfinished]
        exact ⟨hfinished, rfl, rfl⟩
      | hangUp =>
        rw [after, if_pos hfinished]
        exact ⟨hfinished, rfl, rfl⟩
      | poll => exact ⟨hfinished, rfl, rfl⟩
      | await => exact ⟨hfinished, rfl, rfl⟩
    obtain ⟨hlast, hbytes, hfault⟩ := ih hnext.1
    exact ⟨hlast, hbytes.trans hnext.2.1, hfault.trans hnext.2.2⟩

/-- What a read of an unfinished reader does to the record. -/
theorem after_read (hfinished : h.finished = false) (r : ReadResult) :
    (h.after (.read r)).feed = h.feed.pass r ∧ (h.after (.read r)).finished = h.feed.isLast r ∧
      (h.after (.read r)).bytes = h.bytes ++ bytesOf r ∧
      (h.after (.read r)).fault = finalFault r ∧ (h.after (.read r)).answers = h.answers := by
  rw [after, hfinished]
  exact ⟨rfl, rfl, rfl, rfl, rfl⟩

/-- The record of the reader after all its reads, whatever else has happened in between. -/
theorem Regular.afterAll_of_supplies (hr : h.Regular) (hfinished : h.finished = false)
    (hs : Supplies (readsOf moves) bytes ending) :
    (h.afterAll moves).finished = true ∧ (h.afterAll moves).bytes = h.bytes ++ bytes ∧
      (h.afterAll moves).fault = ending := by
  induction moves generalizing h bytes with
  | nil => cases hs
  | cons m moves ih =>
    have hnext := hr.after m
    cases m with
    | poll => exact ih hnext hfinished hs
    | await => exact ih hnext hfinished hs
    | hangUp =>
      have hstays : h.after .hangUp = h := by
        rw [History.after, hfinished]
        rfl
      rw [afterAll_cons, hstays]
      exact ih hr hfinished hs
    | read r =>
      obtain ⟨-, hlast, hbytes, hfault, -⟩ := after_read hfinished r
      rw [readsOf] at hs
      generalize readsOf moves = reads at hs ih
      rw [afterAll_cons]
      cases hs with
      | ended =>
        obtain ⟨hend, hbytes', hfault'⟩ := finished_afterAll hlast moves
        exact ⟨hend, hbytes'.trans hbytes, hfault'.trans hfault⟩
      | failed final =>
        obtain ⟨hend, hbytes', hfault'⟩ :=
          finished_afterAll (hlast.trans (decide_eq_true final)) moves
        refine ⟨hend, hbytes'.trans hbytes, hfault'.trans (hfault.trans ?_)⟩
        simp [finalFault, faultOf, final]
      | interrupted again more =>
        have hmore := ih hnext (hlast.trans (by simp [isLast, again])) more
        rw [hbytes, bytesOf, List.append_nil] at hmore
        exact hmore
      | @chunk chunk _ bytes _ nonempty fits more =>
        have hnot : h.feed.isLast (.ok chunk) = false := by
          simp [isLast, hr.held]
        have hmore := ih hnext (hlast.trans hnot) more
        rw [hbytes, bytesOf, List.append_assoc] at hmore
        exact hmore

/-! ## What is received -/

/-- What polls have handed out, in order. -/
def received (h : History) : List Item := h.answers.filterMap itemOf

theorem received_after_poll (h : History) :
    (h.after .poll).received = h.received ++ (itemOf h.feed.poll.1).toList := by
  rw [received, received, after, List.filterMap_append, List.filterMap_cons]
  cases itemOf h.feed.poll.1 with
  | none => rfl
  | some x => rfl

/-- What was received and what waits is what was read, after any move. -/
theorem Regular.received_after (hr : h.Regular)
    (heq : h.received ++ h.feed.items = itemsFrom h.bytes h.fault.toList) (m : Move) :
    (h.after m).received ++ (h.after m).feed.items =
      itemsFrom (h.after m).bytes (h.after m).fault.toList := by
  cases m with
  | poll =>
    rw [received_after_poll, List.append_assoc]
    exact (congrArg (h.received ++ ·) hr.ordered.items_poll).trans heq
  | await =>
    rw [History.after, items_await]
    exact heq
  | hangUp =>
    rw [History.after]
    split
    · exact heq
    · exact heq
  | read r =>
    by_cases hfinished : h.finished = true
    · rw [History.after, if_pos hfinished]
      exact heq
    · -- no fault was read before, so what is read now comes behind bytes only
      have hfinished := Bool.eq_false_iff.2 hfinished
      obtain ⟨hfeed, -, hbytes, hfault, hanswers⟩ := after_read hfinished r
      have hnone : h.fault = none := by
        by_contra hne
        exact Bool.false_ne_true (hfinished.symm.trans (hr.finished_of_fault hne))
      rw [hnone, itemsFrom, Option.toList_none, List.map_nil, List.append_nil] at heq
      rw [hbytes, hfault, itemsFrom_append, received, hanswers, hfeed, hr.items_pass hfinished,
        ← List.append_assoc, ← heq]
      rfl

theorem Regular.received_afterAll (hr : h.Regular)
    (heq : h.received ++ h.feed.items = itemsFrom h.bytes h.fault.toList) (moves : List Move) :
    (h.afterAll moves).received ++ (h.afterAll moves).feed.items =
      itemsFrom (h.afterAll moves).bytes (h.afterAll moves).fault.toList := by
  induction moves generalizing h with
  | nil => exact heq
  | cons m moves ih => exact ih (hr.after m) (hr.received_after heq m)

/-- After all reads, what was received and what waits is what the reader supplies. -/
theorem received_append_items (hs : Supplies (readsOf moves) bytes ending)
    (further : List Move) :
    (ofMoves (moves ++ further)).received ++ (ofMoves (moves ++ further)).feed.items =
      itemsFrom bytes ending.toList := by
  have hnew : Regular {} := regular_ofMoves []
  obtain ⟨hfinished, hbytes, hfault⟩ := hnew.afterAll_of_supplies rfl hs
  obtain ⟨-, hbytes', hfault'⟩ := finished_afterAll hfinished further
  have heq : (ofMoves (moves ++ further)).received ++ (ofMoves (moves ++ further)).feed.items =
      itemsFrom (ofMoves (moves ++ further)).bytes (ofMoves (moves ++ further)).fault.toList :=
    hnew.received_afterAll rfl (moves ++ further)
  rw [heq, ofMoves_append, ofMoves, hbytes', hfault', hbytes, hfault]
  rfl

/-- After all reads, a poll finds nothing exactly if everything has been received. -/
theorem poll_eq_none_iff_received (hs : Supplies (readsOf moves) bytes ending)
    (further : List Move) :
    (ofMoves (moves ++ further)).feed.poll.1 = .ok none ↔
      (ofMoves (moves ++ further)).received = itemsFrom bytes ending.toList := by
  rw [(regular_ofMoves _).poll_eq_none_iff, ← received_append_items hs further,
    List.self_eq_append_right]

/-- What has been received stays received. -/
theorem received_afterAll (h : History) (later : List Move) :
    (h.afterAll later).received = h.received ++ (h.answersDuring later).filterMap itemOf := by
  rw [received, answers_afterAll, List.filterMap_append, received]

/-- Nothing comes behind everything. -/
theorem received_of_received {further : List Move} (hs : Supplies (readsOf moves) bytes ending)
    (hall : (ofMoves (moves ++ further)).received = itemsFrom bytes ending.toList)
    (later : List Move) :
    (ofMoves (moves ++ (further ++ later))).received = itemsFrom bytes ending.toList := by
  have hmore := received_append_items hs (further ++ later)
  rw [← List.append_assoc, ofMoves_append, received_afterAll, hall, List.append_assoc,
    List.append_right_eq_self, List.append_eq_nil_iff] at hmore
  rw [← List.append_assoc, ofMoves_append, received_afterAll, hall, hmore.1, List.append_nil]

/-- Polls take one item after the other. -/
theorem Regular.items_afterAll_poll (hr : h.Regular) (n : Nat) :
    (h.afterAll (List.replicate n .poll)).feed.items = h.feed.items.drop n := by
  induction n generalizing h with
  | zero => rfl
  | succ n ih =>
    rw [List.replicate_succ, afterAll_cons, ih (hr.after .poll), ← List.drop_tail]
    exact congrArg (List.drop n) hr.poll_eq.2

/-- As many polls as there are bytes and faults are enough. -/
theorem poll_eq_none_of_le (hs : Supplies (readsOf moves) bytes ending) {n : Nat}
    (hn : bytes.length + ending.toList.length ≤ n) :
    (ofMoves (moves ++ List.replicate n .poll)).feed.poll.1 = .ok none := by
  have hlength := congrArg List.length (received_append_items hs [])
  rw [List.append_nil, itemsFrom, List.length_append, List.length_append, List.length_map,
    List.length_map] at hlength
  rw [(regular_ofMoves _).poll_eq_none_iff, ofMoves_append,
    (regular_ofMoves moves).items_afterAll_poll]
  exact List.drop_eq_nil_of_le (by omega)

/-- **Neither chunks nor timing matter.** Let the reader supply some bytes and come to an ending, in
any chunks and with any interruptions, while the holder polls and waits as it likes. From the last
read on, a poll finds nothing exactly if the holder has received all bytes in order and behind them,
once, the fault if there was one. After that nothing is ever received again, and every poll finds
nothing. As many polls as there are bytes and faults are enough to come to this point. So any two
holders who have polled until nothing was found have received the same. -/
theorem delivery_is_determined (bytes : List UInt8) (ending : Option Fault) :
    (∀ moves, Supplies (readsOf moves) bytes ending →
      (∀ further,
        let h := ofMoves (moves ++ further)
        (h.feed.poll.1 = .ok none ↔ h.received = itemsFrom bytes ending.toList) ∧
          (h.feed.poll.1 = .ok none → ∀ later,
            (h.afterAll later).received = itemsFrom bytes ending.toList ∧
              (h.afterAll later).feed.poll.1 = .ok none)) ∧
      ∀ n, bytes.length + ending.toList.length ≤ n →
        (ofMoves (moves ++ List.replicate n .poll)).feed.poll.1 = .ok none) ∧
    ∀ moves moves' further further', Supplies (readsOf moves) bytes ending →
      Supplies (readsOf moves') bytes ending →
      (ofMoves (moves ++ further)).feed.poll.1 = .ok none →
      (ofMoves (moves' ++ further')).feed.poll.1 = .ok none →
      (ofMoves (moves ++ further)).received = (ofMoves (moves' ++ further')).received := by
  refine ⟨fun moves hs ↦ ⟨fun further ↦ ⟨poll_eq_none_iff_received hs further, ?_⟩,
    fun n hn ↦ poll_eq_none_of_le hs hn⟩, ?_⟩
  · intro hnone later
    have hall := received_of_received hs ((poll_eq_none_iff_received hs further).1 hnone) later
    have hstill := (poll_eq_none_iff_received hs (further ++ later)).2 hall
    rw [← List.append_assoc, ofMoves_append] at hall hstill
    exact ⟨hall, hstill⟩
  · intro moves moves' further further' hs hs' hnone hnone'
    rw [(poll_eq_none_iff_received hs further).1 hnone,
      (poll_eq_none_iff_received hs' further').1 hnone']

/-- Three bytes and a broken pipe, once in one chunk with an interruption behind it and once in two
chunks, polled and awaited at different times. -/
theorem delivery_is_determined_brokenPipe :
    let fault := FaultKind.brokenPipe.fault
    let whole : List Move := [.read (.ok [65, 66, 67]), .poll,
      .read (.error FaultKind.interrupted.fault), .await, .read (.error fault), .hangUp]
    let parts : List Move := [.poll, .read (.ok [65, 66]), .poll, .poll, .poll, .read (.ok [67]),
      .await, .read (.error fault)]
    Supplies (readsOf whole) [65, 66, 67] (some fault) ∧
      Supplies (readsOf parts) [65, 66, 67] (some fault) ∧
      (ofMoves (whole ++ List.replicate 4 .poll)).received =
        [.ok 65, .ok 66, .ok 67, .error fault] ∧
      (ofMoves (whole ++ List.replicate 4 .poll)).received =
        (ofMoves (parts ++ [.poll, .await, .hangUp, .poll])).received := by
  intro fault whole parts
  have hwhole : Supplies (readsOf whole) [65, 66, 67] (some fault) :=
    .chunk (by decide) (by decide) (.interrupted rfl (.failed (by decide)))
  have hparts : Supplies (readsOf parts) [65, 66, 67] (some fault) :=
    @Supplies.chunk [65, 66] _ _ _ (by decide) (by decide)
      (@Supplies.chunk [67] _ _ _ (by decide) (by decide) (.failed (by decide)))
  obtain ⟨hdelivers, hsame⟩ := delivery_is_determined [65, 66, 67] (some fault)
  have hnone := (hdelivers whole hwhole).2 4 (by decide)
  refine ⟨hwhole, hparts, ((hdelivers whole hwhole).1 _).1.1 hnone, ?_⟩
  exact hsame whole parts _ _ hwhole hparts hnone rfl

end History

end Brainfuck.Feed
