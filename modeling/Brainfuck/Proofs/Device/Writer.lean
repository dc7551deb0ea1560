import Brainfuck.Device.Writer
import Mathlib.Data.List.TakeDrop

/-!
# The accounts of a writer

A writer makes calls and gets replies, in the order of two scripts. What it has made of the bytes it
was offered can be told from the scripts and the numbers of calls alone, without going through the
phases of a byte.

## One verdict for each byte

A reply to a call of write either says that the call was interrupted, and then the same byte is
tried again, or it settles the byte: that is its *verdict*. So the verdicts are the replies that are
no interruptions, and the first verdict belongs to the first byte, the second to the second, and so
on. The bytes that are accepted are those with the verdict `taken`. Each of them is followed by one
call of flush.

A byte counts as failed if its verdict is not `taken`, or if the flush behind it fails. It cannot
fail for both reasons.
-/

namespace Brainfuck

/-- The reply says that the call was interrupted. -/
def WriteReply.isInterruption : WriteReply → Bool
  | .fault f => f.kind = .interrupted
  | .taken | .nothing => false

namespace Writer

/-- The replies that settle a byte. -/
def verdicts (replies : List WriteReply) : List WriteReply :=
  replies.filter fun reply ↦ !reply.isInterruption

/-- The bytes whose verdict is that they are taken. -/
def takenBytes (offered : List UInt8) (verdicts : List WriteReply) : List UInt8 :=
  ((offered.zip verdicts).filter fun x ↦ x.2 = .taken).map Prod.fst

/-- What has become of the bytes in `offered` when the writer `d` has come to be `d'`, by so many
calls of write and so many calls of flush. The replies are those of the scripts, and when a script
has run out every call succeeds. -/
structure Handles (d : Writer) (offered : List UInt8) (failed calls flushed : Nat)
    (d' : Writer) : Prop where
  writeCalls_eq : d'.writeCalls = d.writeCalls + calls
  writes_eq : d'.writes = d.writes.drop calls
  flushCalls_eq : d'.flushCalls = d.flushCalls + flushed
  flushes_eq : d'.flushes = d.flushes.drop flushed
  /-- Every byte has one verdict. -/
  length_verdicts : (verdicts (d.writes.takeD calls .taken)).length = offered.length
  /-- The bytes that are taken are accepted, in order. -/
  bytes_eq : d'.bytes.toList =
    d.bytes.toList ++ takenBytes offered (verdicts (d.writes.takeD calls .taken))
  /-- Every byte that is taken is flushed once. -/
  flushed_eq : flushed = (takenBytes offered (verdicts (d.writes.takeD calls .taken))).length
  /-- What fails is a byte that is not taken, or a flush. -/
  failed_eq : failed = (verdicts (d.writes.takeD calls .taken)).countP (· ≠ .taken) +
    (d.flushes.takeD flushed none).countP Option.isSome

/-! ## Scripts -/

theorem takeD_add {α : Type} (a b : Nat) (script : List α) (x : α) :
    script.takeD (a + b) x = script.takeD a x ++ (script.drop a).takeD b x := by
  induction a generalizing script with
  | zero => rw [Nat.zero_add, List.takeD_zero, List.nil_append, List.drop_zero]
  | succ a ih =>
    rw [Nat.add_right_comm, List.takeD_succ, ih, List.takeD_succ, List.drop_tail]
    rfl

theorem verdicts_append (xs ys : List WriteReply) :
    verdicts (xs ++ ys) = verdicts xs ++ verdicts ys :=
  List.filter_append xs ys

theorem takenBytes_append {offered more : List UInt8} {xs ys : List WriteReply}
    (h : xs.length = offered.length) :
    takenBytes (offered ++ more) (xs ++ ys) = takenBytes offered xs ++ takenBytes more ys := by
  rw [takenBytes, List.zip_append h.symm, List.filter_append, List.map_append]
  rfl

/-- There is a reply for each verdict and one for each interruption. -/
theorem length_eq_verdicts_add (replies : List WriteReply) :
    replies.length = (verdicts replies).length + replies.countP WriteReply.isInterruption := by
  have hcount := replies.length_eq_countP_add_countP WriteReply.isInterruption
  rw [verdicts, ← List.countP_eq_length_filter, Nat.add_comm]
  simpa using hcount

/-! ## One byte -/

/-- The write phase ends with the first verdict, and succeeds if that is `taken`. -/
theorem writePhase_eq (writes : List WriteReply) :
    (writePhase writes).2.2 = writes.drop (writePhase writes).2.1 ∧
      ∃ verdict, verdicts (writes.takeD (writePhase writes).2.1 .taken) = [verdict] ∧
        ((writePhase writes).1.isOk = true ↔ verdict = .taken) := by
  fun_induction writePhase writes with
  | case1 => exact ⟨rfl, .taken, rfl, iff_of_true rfl rfl⟩
  | case2 rest => exact ⟨rfl, .taken, rfl, iff_of_true rfl rfl⟩
  | case3 rest => exact ⟨rfl, .nothing, rfl, iff_of_false Bool.false_ne_true (by simp)⟩
  | case4 f rest hkind r calls left hphase ih =>
    -- an interruption settles nothing: the verdict is the one of the calls behind it
    rw [hphase] at ih
    obtain ⟨hleft, verdict, hverdicts, hresult⟩ := ih
    refine ⟨hleft, verdict, ?_, hresult⟩
    rw [← hverdicts]
    simp [verdicts, WriteReply.isInterruption, hkind]
  | case5 f rest hkind =>
    refine ⟨rfl, .fault f, ?_, iff_of_false Bool.false_ne_true (by simp)⟩
    simp [verdicts, WriteReply.isInterruption, hkind]

theorem flushPhase_eq (flushes : List (Option Fault)) :
    (flushPhase flushes).2 = flushes.drop 1 ∧
      (flushes.takeD 1 none).countP Option.isSome =
        if (flushPhase flushes).1.isOk then 0 else 1 := by
  fun_cases flushPhase flushes with
  | case1 => exact ⟨rfl, rfl⟩
  | case2 rest => exact ⟨rfl, rfl⟩
  | case3 f rest => exact ⟨rfl, rfl⟩

/-- A byte is handled by a write phase and, if that succeeds, a flush phase. -/
theorem handles_emit (b : UInt8) (d : Writer) :
    ∃ calls flushed,
      d.Handles [b] (if (emit b d).1.isOk then 0 else 1) calls flushed (emit b d).2 := by
  obtain ⟨hwrites, verdict, hverdict, hresult⟩ := writePhase_eq d.writes
  obtain ⟨hflushes, hcount⟩ := flushPhase_eq d.flushes
  rcases hphase : writePhase d.writes with ⟨f | _, calls, writes⟩
  · -- the byte is not taken, and there is no flush
    rw [hphase] at hwrites hverdict hresult
    have hrefused : verdict ≠ .taken := fun h ↦ Bool.false_ne_true (hresult.2 h)
    refine ⟨calls, 0, ?_⟩
    rw [emit, hphase]
    refine ⟨rfl, hwrites, rfl, rfl, ?_, ?_, ?_, ?_⟩
    · rw [hverdict]
      rfl
    · simp [hverdict, takenBytes, hrefused]
    · simp [hverdict, takenBytes, hrefused]
    · simp [hverdict, hrefused, Except.isOk, Except.toBool]
  · -- the byte is taken, and it depends on the flush whether it counts as failed
    rw [hphase] at hwrites hverdict hresult
    obtain rfl : verdict = .taken := hresult.1 rfl
    refine ⟨calls, 1, ?_⟩
    rw [emit, hphase]
    refine ⟨rfl, hwrites, rfl, hflushes, ?_, ?_, ?_, ?_⟩
    · rw [hverdict]
      rfl
    · rw [hverdict]
      exact Array.toList_push
    · rw [hverdict]
      rfl
    · rw [hverdict, hcount]
      exact (Nat.zero_add _).symm

/-! ## One byte after another -/

theorem Handles.refl (d : Writer) : d.Handles [] 0 0 0 d :=
  ⟨rfl, rfl, rfl, rfl, rfl, (List.append_nil _).symm, rfl, rfl⟩

theorem Handles.trans {d d' d'' : Writer} {offered more : List UInt8}
    {failed failed' calls calls' flushed flushed' : Nat}
    (h : d.Handles offered failed calls flushed d')
    (h' : d'.Handles more failed' calls' flushed' d'') :
    d.Handles (offered ++ more) (failed + failed') (calls + calls') (flushed + flushed') d'' := by
  have hverdicts : verdicts (d.writes.takeD (calls + calls') .taken) =
      verdicts (d.writes.takeD calls .taken) ++ verdicts (d'.writes.takeD calls' .taken) := by
    rw [takeD_add, verdicts_append, h.writes_eq]
  have hflushes : d.flushes.takeD (flushed + flushed') none =
      d.flushes.takeD flushed none ++ d'.flushes.takeD flushed' none := by
    rw [takeD_add, h.flushes_eq]
  -- there is one verdict for each byte, so those of the first bytes end where the bytes do
  have htaken : takenBytes (offered ++ more) (verdicts (d.writes.takeD calls .taken) ++
      verdicts (d'.writes.takeD calls' .taken)) =
        takenBytes offered (verdicts (d.writes.takeD calls .taken)) ++
          takenBytes more (verdicts (d'.writes.takeD calls' .taken)) :=
    takenBytes_append h.length_verdicts
  refine ⟨?_, ?_, ?_, ?_, ?_, ?_, ?_, ?_⟩
  · rw [h'.writeCalls_eq, h.writeCalls_eq, Nat.add_assoc]
  · rw [h'.writes_eq, h.writes_eq, List.drop_drop]
  · rw [h'.flushCalls_eq, h.flushCalls_eq, Nat.add_assoc]
  · rw [h'.flushes_eq, h.flushes_eq, List.drop_drop]
  · rw [hverdicts, List.length_append, List.length_append, h.length_verdicts, h'.length_verdicts]
  · rw [hverdicts, htaken, h'.bytes_eq, h.bytes_eq, List.append_assoc]
  · rw [hverdicts, htaken, List.length_append, ← h.flushed_eq, ← h'.flushed_eq]
  · rw [hverdicts, hflushes, List.countP_append, List.countP_append, h.failed_eq, h'.failed_eq]
    omega

end Writer

end Brainfuck
