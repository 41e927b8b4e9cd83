/-
  Sponge.TcpReceiver.Indexing

  Where the receiver puts what it gets, over whole runs.

  The receiver never stores a stream index: it keeps the sequence number of the
  first SYN and recovers the index of each segment from 32 bits, next to the
  number of bytes written so far.  For segments without the SYN flag that is
  exact within half a period (`indexing_run`).

  A SYN takes up a sequence number of its own, and `segment_received` skips it
  only on the first receipt.  On any later copy the payload is looked for one
  index before the start of the stream, which is index `2^32 - 1`
  (`payloadIndex_again`), so a copy recovers nothing of what the first receipt had
  to refuse; `synCopy_iff` says when the difference cannot be seen.
-/

import Sponge.TcpReceiver

namespace Sponge

open Lib (Run Guarded exec Span)
open Lib.Span (Covers Separated)

attribute [ext] StreamReassembler

namespace StreamReassembler

-- ============================================================================
-- Pushes at and beyond `_index`
-- ============================================================================

/-- Once the announced end is reached the output has ended. -/
def EndsWhenReached (r : StreamReassembler) : Prop :=
  r.eofSet = true → r.index = r.eof → r.output.inputEnded = true

theorem EndsWhenReached.pushData {r : StreamReassembler} (h : r.EndsWhenReached)
    (data : List UInt8) (index : Nat) : (r.pushData data index).EndsWhenReached := by
  have hcase := pushData_cases r data index
  generalize r.pushData data index = r' at hcase ⊢
  cases hcase with
  | ignored _ => exact h
  | stored _ _ _ _ _ => exact h
  | flushed b rest _ _ _ =>
      intro hset heof
      rw [flushFront_output, if_pos ⟨heof, hset⟩]
      rfl

theorem EndsWhenReached.pushSubstring {r r' : StreamReassembler} (h : r.EndsWhenReached)
    {data : List UInt8} {index : Nat} {eof : Bool}
    (hpush : r.pushSubstring data index eof = some r') : r'.EndsWhenReached := by
  cases step_cases (show r.step (.push data index eof) = some r' from hpush) with
  | pushed => exact h.pushData data index
  | announced _ _ r₁ h₁ =>
      obtain ⟨hidx, -, heof, -, hout, -⟩ := setEof_some h₁
      apply EndsWhenReached.pushData
      intro _ hreached
      rw [hout, if_pos (by omega)]
      rfl

/-- A push that starts after `_index` moves nothing to the output. -/
theorem Inv.pushData_ahead {r : StreamReassembler} (hinv : r.Inv) {data : List UInt8}
    {index : Nat} (hlt : r.index < index) :
    r.pushData data index = if r.Ignored data index then r else
      { r with unassembled := insertSorted (r.cut data index) r.unassembled } := by
  have hcase := pushData_cases r data index
  generalize r.pushData data index = r' at hcase ⊢
  cases hcase with
  | ignored hig => rw [if_pos hig]
  | stored h rest hig hl hne => rw [if_neg hig, hl]
  | flushed h rest hig hl heq =>
      exact absurd ((hinv.front_due_iff hl).mp heq) (Nat.not_le_of_lt hlt)

/-- Writing the empty string changes nothing: an end that is reached was announced. -/
theorem flushFront_nil {r : StreamReassembler} (hends : r.EndsWhenReached) :
    r.flushFront ⟨r.index, []⟩ r.unassembled = r := by
  have hwrite : r.output.write [] = (0, r.output) := by
    simp [ByteStream.write, ByteStream.bytesToWrite]
  apply StreamReassembler.ext
  case output =>
    rw [flushFront_output, accepted, ← ByteStream.write_fst, hwrite]
    split
    · next hend =>
        have hended := hends hend.2 hend.1
        simp only [ByteStream.endInput, ← hended]
    · rfl
  case index => rw [flushFront_index, accepted, ← ByteStream.write_fst, hwrite]; rfl
  all_goals rfl

/-- With no room in the output a push at or before `_index` changes nothing. -/
theorem Inv.pushData_full {r : StreamReassembler} (hinv : r.Inv) (hends : r.EndsWhenReached)
    {data : List UInt8} {index : Nat} (hle : index ≤ r.index)
    (hfull : r.output.bufferSize = r.capacity.toNat) : r.pushData data index = r := by
  have hcut : r.cut data index = ⟨r.index, []⟩ := by
    simp only [cut, Nat.max_eq_right hle, rightBound_index, room, hfull, Nat.sub_self,
      List.take_zero]
  have hins : insertSorted (r.cut data index) r.unassembled = ⟨r.index, []⟩ :: r.unassembled := by
    have hsep := hinv.separated
    rw [hcut]
    unfold spans at hsep
    cases hun : r.unassembled with
    | nil => rfl
    | cons b rest =>
        rw [hun] at hsep
        have hlo : r.index + 1 ≤ b.index := hsep.1
        simp only [insertSorted, List.length_nil, Nat.add_zero]
        rw [if_pos (by omega)]
  have hcase := pushData_cases r data index
  generalize r.pushData data index = r' at hcase ⊢
  cases hcase with
  | ignored _ => rfl
  | stored h rest _ hl hne =>
      rw [hins] at hl
      obtain ⟨rfl, rfl⟩ := List.cons_eq_cons.mp hl
      exact absurd rfl hne
  | flushed h rest _ hl _ =>
      rw [hins] at hl
      obtain ⟨rfl, rfl⟩ := List.cons_eq_cons.mp hl
      exact flushFront_nil hends

/-- With room in the output a push across `_index` moves it on. -/
theorem Inv.lt_index_pushData {r : StreamReassembler} (hinv : r.Inv) (data : List UInt8)
    {index : Nat} (hle : index ≤ r.index) (hnew : ¬ r.Ignored data index)
    (hroom : r.output.bufferSize < r.capacity.toNat) :
    r.index < (r.pushData data index).index := by
  have hcase := pushData_cases r data index
  generalize r.pushData data index = r' at hcase ⊢
  cases hcase with
  | ignored hig => exact absurd hig hnew
  | stored b rest _ hl hne => exact absurd ((hinv.front_due_iff hl).mpr hle) hne
  | flushed b rest _ hl hb =>
      rw [flushFront_index]
      by_contra hnot
      -- what is written would end at `_index`, but the byte there comes with the push
      obtain ⟨-, -, -, -, -, hend⟩ := (hinv.writesUpTo_iff hnew hl hb r.index).mpr (by omega)
      refine hend.elim (fun hfull => ?_) fun hnone =>
        hnone (Or.inl ⟨hle, (lt_of_not_ignored hnew).1⟩)
      unfold room at hfull
      omega

/-- When a push at or before `_index` changes nothing. -/
theorem Inv.pushData_eq_self_iff {r : StreamReassembler} (hinv : r.Inv)
    (hends : r.EndsWhenReached) (data : List UInt8) {index : Nat} (hle : index ≤ r.index) :
    r.pushData data index = r ↔
      r.Ignored data index ∨ r.output.bufferSize = r.capacity.toNat := by
  have hfits : r.output.bufferSize ≤ r.capacity.toNat := r.sized ▸ r.output.fits
  constructor
  · intro heq
    by_contra hno
    obtain ⟨hnew, hroom⟩ := not_or.mp hno
    have hlt := hinv.lt_index_pushData data hle hnew (by omega)
    rw [heq] at hlt
    omega
  · rintro (hold | hfull)
    · exact if_pos hold
    · exact hinv.pushData_full hends hle hfull

/-- What it takes for a push at index `2^32 - 1` to be as good as a push at index 0.
    Without `eof` neither of them may change anything: at index 0 there is nothing new or
    no room, and at `2^32 - 1` it is ignored, or what fits of it is pending already.  With
    `eof` they announce different ends, so both would have to run into the erasure of
    `end()` in `set_eof`. -/
def MisplacedHarmlessly (r : StreamReassembler) (data : List UInt8) : Bool → Prop
  | false =>
      (r.Ignored data 0 ∨ r.output.bufferSize = r.capacity.toNat) ∧
      (r.Ignored data (2 ^ 32 - 1) ∨
        ∃ b ∈ r.unassembled, Has b ⟨2 ^ 32 - 1, data.take (r.rightBound (2 ^ 32 - 1))⟩)
  | true =>
      ¬ r.CanAnnounce (lastIndex data 0) ∧ ¬ r.CanAnnounce (lastIndex data (2 ^ 32 - 1))

instance (r : StreamReassembler) (data : List UInt8) :
    ∀ eof, Decidable (r.MisplacedHarmlessly data eof)
  | false => inferInstanceAs (Decidable (_ ∧ _))
  | true => inferInstanceAs (Decidable (_ ∧ _))

theorem Inv.pushData_ahead_eq_self_iff {r : StreamReassembler} (hinv : r.Inv)
    (data : List UInt8) {index : Nat} (hlt : r.index < index) :
    r.pushData data index = r ↔
      r.Ignored data index ∨
        ∃ b ∈ r.unassembled, Has b ⟨index, data.take (r.rightBound index)⟩ := by
  have hcut : r.cut data index = ⟨index, data.take (r.rightBound index)⟩ := by
    have hmax : max index r.index = index := by omega
    have hsub : r.index - index = 0 := by omega
    rw [cut, hmax, hsub, List.drop_zero]
  rw [hinv.pushData_ahead hlt, hcut, ← insertSorted_eq_self_iff hinv.separated]
  split
  · next hig => simp [hig]
  · next hig =>
      rw [or_iff_right hig]
      exact ⟨congrArg StreamReassembler.unassembled, fun heq => by rw [heq]⟩

theorem Inv.pushData_eq_iff {r : StreamReassembler} (hinv : r.Inv) (hends : r.EndsWhenReached)
    (hidx : r.index < 2 ^ 31) (data : List UInt8) :
    r.pushData data (2 ^ 32 - 1) = r.pushData data 0 ↔ r.MisplacedHarmlessly data false := by
  have hlt : r.index < 2 ^ 32 - 1 := by omega
  have hzero := hinv.pushData_eq_self_iff hends data (Nat.zero_le r.index)
  have hahead := hinv.pushData_ahead_eq_self_iff data hlt
  unfold MisplacedHarmlessly
  rw [← hzero, ← hahead]
  constructor
  · intro heq
    -- the push ahead leaves `_index`, so the one at 0 has nothing to write
    have hstay : (r.pushData data 0).index = r.index := by
      rw [← heq, hinv.pushData_ahead hlt]
      split <;> rfl
    have hself : r.pushData data 0 = r := by
      have hfits : r.output.bufferSize ≤ r.capacity.toNat := r.sized ▸ r.output.fits
      rw [hzero]
      by_contra hno
      obtain ⟨hnew, hroom⟩ := not_or.mp hno
      have hmoves := hinv.lt_index_pushData data (Nat.zero_le _) hnew (by omega)
      omega
    exact ⟨hself, heq.trans hself⟩
  · rintro ⟨hself, hself'⟩
    rw [hself, hself']

/-- The end announced by a push is the one it carries. -/
theorem eof_pushSubstring {r r' : StreamReassembler} {data : List UInt8} {index : Nat}
    (h : r.pushSubstring data index true = some r') : r'.eof = lastIndex data index := by
  obtain ⟨r₁, h₁, rfl⟩ := Option.map_eq_some_iff.mp h
  rw [pushData_eof]
  exact (setEof_some h₁).2.2.1

theorem Inv.pushSubstring_eq_iff {r : StreamReassembler} (hinv : r.Inv)
    (hends : r.EndsWhenReached) (hidx : r.index < 2 ^ 31) (data : List UInt8) (eof : Bool) :
    r.pushSubstring data (2 ^ 32 - 1) eof = r.pushSubstring data 0 eof ↔
      r.MisplacedHarmlessly data eof := by
  cases eof with
  | false =>
      rw [← hinv.pushData_eq_iff hends hidx]
      exact Option.some_inj
  | true =>
      have hnone : ∀ index, ¬ r.CanAnnounce (lastIndex data index) ↔
          r.pushSubstring data index true = none := by
        intro index
        rw [pushSubstring_eq_none_iff, and_iff_right rfl]
      rw [MisplacedHarmlessly, hnone, hnone]
      constructor
      · intro heq
        cases hpush : r.pushSubstring data 0 true with
        | none => exact ⟨rfl, heq.trans hpush⟩
        | some r' =>
            have h0 := eof_pushSubstring hpush
            have h1 := eof_pushSubstring (heq.trans hpush)
            unfold lastIndex at h0 h1
            omega
      · rintro ⟨h0, h1⟩
        rw [h0, h1]

end StreamReassembler

namespace TCPReceiver

-- ============================================================================
-- Runs of a receiver
-- ============================================================================

/-- What can be done to a receiver: it gets a segment, or its output is used. -/
inductive Op
  | segmentReceived (seg : TCPSegment)
  | read (len : Nat)
  | popOutput (len : Nat)
  | setError

/-- One operation. -/
def step (r : TCPReceiver) : Op → Option TCPReceiver
  | .segmentReceived seg => r.segmentReceived seg
  | .read len => some (r.read len)
  | .popOutput len => some (r.popOutput len)
  | .setError => some r.setError

/-- The sequence number a SYN segment gives as the initial one. -/
def Op.synSeqno : Op → Option WrappingInt32
  | .segmentReceived seg => if seg.header.syn then some seg.header.seqno else none
  | _ => none

/-- The initial sequence number of a run: that of its first SYN segment. -/
def initialSeqno (ops : List Op) : Option WrappingInt32 := ops.findSome? Op.synSeqno

theorem initialSeqno_snoc (ops : List Op) (op : Op) :
    initialSeqno (ops ++ [op]) = (initialSeqno ops).or op.synSeqno := by
  rw [initialSeqno, List.findSome?_append]
  simp [initialSeqno]

/-- `stream_out().bytes_written()` in the `size_t` the source computes with. -/
def bytesWritten (r : TCPReceiver) : UInt64 := UInt64.ofNat r.streamOut.bytesWritten

/-- The effect of pushing the payload into the reassembler at index `i`, with the
    segment's FIN flag. -/
def pushAt (r : TCPReceiver) (seg : TCPSegment) (i : Nat) : Option TCPReceiver :=
  (r.reassembler.pushSubstring seg.payload i seg.header.fin).map
    fun reassembler => { r with reassembler := reassembler }

theorem pushAt_inj {r : TCPReceiver} {seg : TCPSegment} {i j : Nat} :
    r.pushAt seg i = r.pushAt seg j ↔
      r.reassembler.pushSubstring seg.payload i seg.header.fin =
        r.reassembler.pushSubstring seg.payload j seg.header.fin := by
  refine (Option.map_injective ?_).eq_iff
  intro a b hab
  exact congrArg TCPReceiver.reassembler hab

/-- After the SYN every segment is pushed at the index its number unwraps to. -/
theorem segmentReceived_synRecv {r : TCPReceiver} (h : r.synRecv = true) (seg : TCPSegment) :
    r.segmentReceived seg = r.pushAt seg (r.unwrappedIndex seg.header.seqno.rawValue) := by
  simp only [segmentReceived, h, if_true]
  rfl

/-- What a run has made of the receiver: the initial sequence number is that of the
    first SYN, and the reassembler keeps its invariants. -/
structure Reached (ops : List Op) (r : TCPReceiver) : Prop where
  inv : r.reassembler.Inv
  ends : r.reassembler.EndsWhenReached
  isn : initialSeqno ops = if r.synRecv then some ⟨r.isn⟩ else none
  /-- Nothing is written before the SYN. -/
  idle : r.synRecv = false → r.streamOut.bytesWritten = 0

theorem reached_new (endNode : List ByteString → Nat) (capacity : UInt64) :
    Reached [] (new endNode capacity) where
  inv := StreamReassembler.inv_new endNode capacity
  ends := nofun
  isn := rfl
  idle := fun _ => rfl

theorem Reached.segmentReceived {ops : List Op} {r r' : TCPReceiver} (h : Reached ops r)
    {seg : TCPSegment} (hs : r.segmentReceived seg = some r') :
    Reached (ops ++ [.segmentReceived seg]) r' := by
  have hisn := h.isn
  obtain ⟨hrecv, hsyn, rfl⟩ | ⟨hpushed, reassembler, hpush, rfl⟩ := segmentReceived_cases hs
  · refine ⟨h.inv, h.ends, ?_, h.idle⟩
    rw [initialSeqno_snoc, hisn]
    simp [Op.synSeqno, hrecv, hsyn]
  · refine ⟨h.inv.pushSubstring hpush, h.ends.pushSubstring hpush, ?_, by simp⟩
    rw [initialSeqno_snoc, hisn]
    by_cases hrecv : r.synRecv = true
    · simp [synced, hrecv]
    · have hsyn := hpushed.resolve_left hrecv
      simp [synced, hrecv, Op.synSeqno, hsyn]

/-- An operation on the output leaves the initial sequence number and the index. -/
theorem Reached.output {ops : List Op} {r r' : TCPReceiver} (h : Reached ops r) {op : Op}
    (hop : op.synSeqno = none) (hinv : r'.reassembler.Inv)
    (hends : r'.reassembler.EndsWhenReached) (hsyn : r'.synRecv = r.synRecv)
    (hisn : r'.isn = r.isn) (hw : r'.streamOut.bytesWritten = r.streamOut.bytesWritten) :
    Reached (ops ++ [op]) r' where
  inv := hinv
  ends := hends
  isn := by rw [initialSeqno_snoc, hop, Option.or_none, h.isn, hsyn, hisn]
  idle := by rw [hsyn, hw]; exact h.idle

theorem Reached.step {ops : List Op} {r r' : TCPReceiver} (h : Reached ops r) {op : Op}
    (hs : r.step op = some r') : Reached (ops ++ [op]) r' := by
  cases op with
  | segmentReceived seg => exact h.segmentReceived hs
  | read len =>
      obtain rfl := Option.some.inj hs
      exact h.output rfl (h.inv.read len) h.ends rfl rfl rfl
  | popOutput len =>
      obtain rfl := Option.some.inj hs
      exact h.output rfl (h.inv.popOutput len) h.ends rfl rfl rfl
  | setError =>
      obtain rfl := Option.some.inj hs
      exact h.output rfl h.inv.setError h.ends rfl rfl rfl

/-- The state of a receiver after the operations `ops` on a new one. -/
abbrev RunsTo (endNode : List ByteString → Nat) (capacity : UInt64) (ops : List Op)
    (r : TCPReceiver) : Prop :=
  Run (Guarded (fun _ _ => True) step) (new endNode capacity) ops r

theorem reached_run {endNode : List ByteString → Nat} {capacity : UInt64} {ops : List Op}
    {r : TCPReceiver} (h : RunsTo endNode capacity ops r) : Reached ops r :=
  Run.invariant_hist (reached_new endNode capacity) (fun _ _ _ _ ht hs => ht.step hs.2) h

theorem Reached.synRecv {ops : List Op} {r : TCPReceiver} {isn : WrappingInt32}
    (h : Reached ops r) (hsyn : initialSeqno ops = some isn) :
    r.synRecv = true ∧ isn = ⟨r.isn⟩ := by
  have hisn := h.isn
  rw [hsyn] at hisn
  split at hisn
  · next hrecv => exact ⟨hrecv, Option.some.inj hisn⟩
  · cases hisn

-- ============================================================================
-- Segments without the SYN flag
-- ============================================================================

/-- A receiver that works with the initial sequence number `isn`: its acknowledgement
    counts the SYN, the bytes and the FIN from there, and a segment goes where its
    sequence number says, within half a period of the bytes written. -/
structure Indexes (isn : WrappingInt32) (r : TCPReceiver) : Prop where
  ackno_eq : r.ackno =
    some (wrap (1 + r.streamOut.bytesWritten + if r.streamOut.inputEnded then 1 else 0) isn)
  pushes : ∀ (seg : TCPSegment) (i : UInt64), seg.header.syn = false →
    seg.header.seqno = wrap (i.toNat + 1) isn → distance i r.bytesWritten < 2 ^ 31 →
    r.segmentReceived seg = r.pushAt seg i.toNat

theorem wrap_succ (n : Nat) (isn : UInt32) : wrap (n + 1) ⟨isn⟩ = wrap n ⟨isn + 1⟩ := by
  rw [Nat.add_comm, ← wrap_wrap]
  rfl

theorem unwrappedIndex_wrap (r : TCPReceiver) {i : UInt64}
    (h : distance i r.bytesWritten < 2 ^ 31) :
    r.unwrappedIndex (wrap (i.toNat + 1) ⟨r.isn⟩).rawValue = i.toNat := by
  unfold distance at h
  rw [wrap_succ]
  exact unwrap_wrap i.toNat_lt (by unfold bytesWritten at h; omega)
    (by unfold bytesWritten at h; omega)

/-- In every state a receiver can reach after a SYN, streams of any length are indexed
    from the sequence number of that SYN. -/
theorem indexing_run (endNode : List ByteString → Nat) (capacity : UInt64) (ops : List Op)
    (r : TCPReceiver) (isn : WrappingInt32) (hrun : RunsTo endNode capacity ops r)
    (hsyn : initialSeqno ops = some isn) : r.Indexes isn := by
  obtain ⟨hrecv, rfl⟩ := (reached_run hrun).synRecv hsyn
  refine ⟨?_, ?_⟩
  · rw [TCPReceiver.ackno_eq, if_pos hrecv]
  · intro seg i _ hseq hdist
    rw [segmentReceived_synRecv hrecv, hseq, unwrappedIndex_wrap r hdist]

/-- A SYN just below the end of the 32-bit range, and a byte with the FIN behind it. -/
def acrossWrap : List Op :=
  [.segmentReceived ⟨{ seqno := ⟨4294967295⟩, syn := true }, []⟩,
   .segmentReceived ⟨{ seqno := ⟨0⟩, fin := true }, [97]⟩, .read 1]

theorem indexing_run_acrossWrap :
    ∃ r, RunsTo List.length 4 acrossWrap r ∧ initialSeqno acrossWrap = some ⟨4294967295⟩ ∧
      r.Indexes ⟨4294967295⟩ :=
  have hrun := Run.of_exec (fun _ _ => True) step (new List.length 4) acrossWrap (by decide)
  ⟨_, hrun, rfl, indexing_run List.length 4 acrossWrap _ _ hrun rfl⟩

-- ============================================================================
-- Copies of the SYN segment
-- ============================================================================

/-- A copy of the SYN segment is looked for one index before the start of the stream. -/
theorem payloadIndex_again {r : TCPReceiver} (h : r.streamOut.bytesWritten < 2 ^ 31) :
    r.unwrappedIndex r.isn = 2 ^ 32 - 1 := by
  have hseq : (⟨r.isn⟩ : WrappingInt32) = wrap (2 ^ 32 - 1) ⟨r.isn + 1⟩ := by
    apply WrappingInt32.ext_toNat
    rw [← wrap_succ, wrap_toNat]
    have := r.isn.toNat_lt
    show r.isn.toNat = (r.isn.toNat + (2 ^ 32 - 1 + 1)) % 2 ^ 32
    omega
  have hcheckpoint : (UInt64.ofNat r.streamOut.bytesWritten).toNat = r.streamOut.bytesWritten :=
    UInt64.toNat_ofNat_of_lt' (by show _ < 2 ^ 64; omega)
  unfold unwrappedIndex
  rw [hseq, unwrap_toNat _ _ hcheckpoint rfl, centerCandidate, wrap_sub_toNat]
  split_ifs <;> omega

/-- On first receipt the payload of a SYN segment is pushed at index 0. -/
theorem segmentReceived_first {endNode : List ByteString → Nat} {capacity : UInt64}
    {ops : List Op} {r : TCPReceiver} (hrun : RunsTo endNode capacity ops r)
    (hnone : initialSeqno ops = none) {seg : TCPSegment} (hsyn : seg.header.syn = true) :
    r.segmentReceived seg = (r.synced seg).pushAt seg 0 := by
  have hreached := reached_run hrun
  have hrecv : r.synRecv = false := by
    have hisn := hreached.isn
    rw [hnone] at hisn
    by_contra hno
    simp [hno] at hisn
  have hsynced : r.synced seg =
      { r with synRecv := true, isn := seg.header.seqno.rawValue } := by
    simp only [synced, hrecv, Bool.false_eq_true, if_false]
  have hidx : (r.synced seg).unwrappedIndex (seg.header.seqno.rawValue + 1) = 0 := by
    have hzero : (unwrap (wrap 0 ⟨seg.header.seqno.rawValue + 1⟩)
        ⟨seg.header.seqno.rawValue + 1⟩ 0).toNat = 0 :=
      unwrap_wrap (by omega) (by simp) (by simp)
    rw [wrap_zero] at hzero
    have hw := hreached.idle hrecv
    rw [streamOut] at hw
    rw [hsynced, unwrappedIndex, streamOut, hw]
    exact hzero
  simp only [segmentReceived, hrecv, hsyn, if_true, Bool.false_eq_true, if_false]
  rw [← hsynced, pushAt, pushPayload, hidx]

/-- A copy of the SYN segment has the effect of pushing its payload at index 0 exactly
    when nothing depends on where it is pushed. -/
theorem synCopy_iff (endNode : List ByteString → Nat) (capacity : UInt64) (ops : List Op)
    (r : TCPReceiver) (isn : WrappingInt32) (hrun : RunsTo endNode capacity ops r)
    (hsyn : initialSeqno ops = some isn) (hwritten : r.streamOut.bytesWritten < 2 ^ 31)
    (seg : TCPSegment) (hseg : seg.header.syn = true ∧ seg.header.seqno = isn) :
    r.segmentReceived seg = r.pushAt seg 0 ↔
      r.reassembler.MisplacedHarmlessly seg.payload seg.header.fin := by
  have hreached := reached_run hrun
  obtain ⟨hrecv, rfl⟩ := hreached.synRecv hsyn
  have hidx : r.reassembler.index < 2 ^ 31 := hreached.inv.written ▸ hwritten
  rw [segmentReceived_synRecv hrecv, hseg.2, payloadIndex_again hwritten, pushAt_inj]
  exact hreached.inv.pushSubstring_eq_iff hreached.ends hidx seg.payload seg.header.fin

/-- A SYN segment that carries "abc". -/
def synData : TCPSegment := ⟨{ syn := true }, [97, 98, 99]⟩

/-- With room for two bytes the "c" is refused; then the two are read. -/
def refused : List Op := [.segmentReceived synData, .read 2]

theorem synCopy_fails :
    ¬ ∀ (endNode : List ByteString → Nat) (capacity : UInt64) (ops : List Op) (r : TCPReceiver)
      (isn : WrappingInt32), RunsTo endNode capacity ops r → initialSeqno ops = some isn →
      r.streamOut.bytesWritten < 2 ^ 31 → ∀ seg : TCPSegment,
      seg.header.syn = true ∧ seg.header.seqno = isn →
      r.segmentReceived seg = r.pushAt seg 0 := by
  intro h
  have hrun := Run.of_exec (fun _ _ => True) step (new List.length 2) refused (by decide)
  have heq := h _ _ _ _ _ hrun rfl (by decide) synData ⟨rfl, rfl⟩
  -- the copy should bring the third byte, and does not
  exact absurd (congrArg (Option.map fun r => r.streamOut.bytesWritten) heq) (by decide)

theorem synCopy_iff_taken :
    ∃ r, RunsTo List.length 4 [.segmentReceived synData] r ∧
      initialSeqno [.segmentReceived synData] = some ⟨0⟩ ∧
      r.streamOut.bytesWritten < 2 ^ 31 ∧
      r.reassembler.MisplacedHarmlessly [97, 98, 99] false ∧
      r.segmentReceived synData = r.pushAt synData 0 :=
  have hrun := Run.of_exec (fun _ _ => True) step (new List.length 4) [.segmentReceived synData]
    (by decide)
  ⟨_, hrun, rfl, by decide, by decide,
    (synCopy_iff List.length 4 _ _ ⟨0⟩ hrun rfl (by decide) synData ⟨rfl, rfl⟩).mpr (by decide)⟩

end TCPReceiver

end Sponge
