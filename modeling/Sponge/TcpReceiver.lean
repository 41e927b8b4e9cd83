/-
  Sponge.TcpReceiver

  The receiving half of a connection (`tcp_receiver.hh`, `tcp_receiver.cc`).

  `segment_received` is partial because the reassembler's `push_substring` is:
  see `Sponge.StreamReassembler.Basic`.  The member `_ack_bytes` is never read and
  is left out.
-/

import Sponge.StreamReassembler.Coverage
import Sponge.StreamReassembler.Pruning
import Sponge.TcpSegment

namespace Sponge

/-- `TCPReceiver` -/
structure TCPReceiver where
  reassembler : StreamReassembler
  capacity : UInt64
  synRecv : Bool
  isn : UInt32

namespace TCPReceiver

/-- `TCPReceiver(capacity)` -/
def new (endNode : List ByteString → Nat) (capacity : UInt64) : TCPReceiver where
  reassembler := .new endNode capacity
  capacity := capacity
  synRecv := false
  isn := 0

/-- `stream_out()` -/
def streamOut (r : TCPReceiver) : ByteStream := r.reassembler.output

/-- The stream index that goes with a raw sequence number. -/
def unwrappedIndex (r : TCPReceiver) (seqno : UInt32) : Nat :=
  (unwrap ⟨seqno⟩ ⟨r.isn + 1⟩ (UInt64.ofNat r.streamOut.bytesWritten)).toNat

/-- The end of `segment_received`: the payload goes to the reassembler. -/
def pushPayload (r : TCPReceiver) (seqno : UInt32) (seg : TCPSegment) : Option TCPReceiver :=
  (r.reassembler.pushSubstring seg.payload (r.unwrappedIndex seqno) seg.header.fin).map
    fun reassembler => { r with reassembler := reassembler }

/-- `segment_received(seg)` -/
def segmentReceived (r : TCPReceiver) (seg : TCPSegment) : Option TCPReceiver :=
  let seqno := seg.header.seqno.rawValue
  if r.synRecv then r.pushPayload seqno seg
  else if seg.header.syn then
    -- skip the SYN, which is not a data byte
    { r with synRecv := true, isn := seqno }.pushPayload (seqno + 1) seg
  else some r

/-- `ackno()` -/
def ackno (r : TCPReceiver) : Option WrappingInt32 :=
  if r.synRecv then
    let ackBytes := UInt32.ofNat r.streamOut.bytesWritten + 1
    some ⟨r.isn + if r.streamOut.inputEnded then ackBytes + 1 else ackBytes⟩
  else none

/-- `window_size()` -/
def windowSize (r : TCPReceiver) : Nat := sizeSub r.capacity.toNat r.streamOut.bufferSize

/-- `stream_out().read(len)`: the receiver after it. -/
def read (r : TCPReceiver) (len : Nat) : TCPReceiver :=
  { r with reassembler := r.reassembler.read len }

/-- `stream_out().pop_output(len)` -/
def popOutput (r : TCPReceiver) (len : Nat) : TCPReceiver :=
  { r with reassembler := r.reassembler.popOutput len }

/-- `stream_out().set_error()` -/
def setError (r : TCPReceiver) : TCPReceiver := { r with reassembler := r.reassembler.setError }

-- ============================================================================
-- What a segment does
-- ============================================================================

/-- The receiver's state just before the payload is pushed. -/
def synced (r : TCPReceiver) (seg : TCPSegment) : TCPReceiver :=
  if r.synRecv then r else { r with synRecv := true, isn := seg.header.seqno.rawValue }

/-- The stream index at which the payload is pushed. -/
def payloadIndex (r : TCPReceiver) (seg : TCPSegment) : Nat :=
  (r.synced seg).unwrappedIndex
    (if r.synRecv then seg.header.seqno.rawValue else seg.header.seqno.rawValue + 1)

/-- A segment is ignored as long as no SYN has come, and pushed otherwise. -/
theorem segmentReceived_eq (r : TCPReceiver) (seg : TCPSegment) :
    r.segmentReceived seg =
      if r.synRecv = true ∨ seg.header.syn = true then
        (r.reassembler.pushSubstring seg.payload (r.payloadIndex seg) seg.header.fin).map
          fun reassembler => { r.synced seg with reassembler := reassembler }
      else some r := by
  by_cases hrecv : r.synRecv = true
  · have hsynced : r.synced seg = r := if_pos hrecv
    rw [segmentReceived, if_pos hrecv, if_pos (Or.inl hrecv), payloadIndex, hsynced,
      if_pos hrecv]
    rfl
  · unfold segmentReceived payloadIndex synced
    by_cases hsyn : seg.header.syn = true
    · simp only [hrecv, hsyn, if_true, or_true]
      rfl
    · simp only [hrecv, hsyn, or_self, if_false, Bool.false_eq_true]

theorem segmentReceived_cases {r r' : TCPReceiver} {seg : TCPSegment}
    (h : r.segmentReceived seg = some r') :
    (r.synRecv = false ∧ seg.header.syn = false ∧ r' = r) ∨
    ((r.synRecv = true ∨ seg.header.syn = true) ∧ ∃ reassembler,
      r.reassembler.pushSubstring seg.payload (r.payloadIndex seg) seg.header.fin =
        some reassembler ∧
      r' = { r.synced seg with reassembler := reassembler }) := by
  rw [segmentReceived_eq] at h
  split at h
  · next hpushed =>
      obtain ⟨reassembler, hpush, rfl⟩ := Option.map_eq_some_iff.mp h
      exact Or.inr ⟨hpushed, reassembler, hpush, rfl⟩
  · next hnot =>
      obtain ⟨hrecv, hsyn⟩ := not_or.mp hnot
      exact Or.inl ⟨by simpa using hrecv, by simpa using hsyn, (Option.some.inj h).symm⟩

/-- The segment can be taken: if its payload is pushed with a FIN, the reassembler can
    announce the end that it brings. -/
def CanTake (r : TCPReceiver) (seg : TCPSegment) : Prop :=
  r.synRecv = true ∨ seg.header.syn = true → seg.header.fin = true →
    r.reassembler.CanAnnounce (StreamReassembler.lastIndex seg.payload (r.payloadIndex seg))

instance (r : TCPReceiver) (seg : TCPSegment) : Decidable (r.CanTake seg) :=
  inferInstanceAs (Decidable (_ → _ → _))

theorem segmentReceived_eq_none_iff {r : TCPReceiver} {seg : TCPSegment} :
    r.segmentReceived seg = none ↔ ¬ r.CanTake seg := by
  rw [segmentReceived_eq, CanTake]
  split
  · next hpushed =>
      rw [Option.map_eq_none_iff, StreamReassembler.pushSubstring_eq_none_iff]
      simp only [hpushed, true_imp_iff, Classical.not_imp]
  · next hnot => simp [hnot]

@[simp] theorem synced_synRecv (r : TCPReceiver) (seg : TCPSegment) :
    (r.synced seg).synRecv = true := by
  unfold synced
  split
  · assumption
  · rfl

/-- What a segment cannot undo: the SYN, the end of the stream and the bytes written
    stay, and the error flag is left alone. -/
theorem segmentReceived_keeps {r r' : TCPReceiver} {seg : TCPSegment}
    (h : r.segmentReceived seg = some r') :
    r'.streamOut.error = r.streamOut.error ∧
    (r.streamOut.inputEnded = true → r'.streamOut.inputEnded = true) ∧
    r.streamOut.bytesWritten ≤ r'.streamOut.bytesWritten ∧
    (r.synRecv = true → r'.synRecv = true) := by
  obtain ⟨-, -, rfl⟩ | ⟨-, reassembler, hpush, rfl⟩ := segmentReceived_cases h
  · exact ⟨rfl, id, Nat.le_refl _, id⟩
  · obtain ⟨⟨bytes, -, hwritten⟩, herr, hend, -⟩ := StreamReassembler.pushSubstring_output hpush
    refine ⟨herr, hend, ?_, fun _ => synced_synRecv r seg⟩
    show r.reassembler.output.bytesWritten ≤ reassembler.output.bytesWritten
    omega

/-- The segment completes the stream: its payload is pushed, and the push ends the output. -/
def EndsStream (r : TCPReceiver) (seg : TCPSegment) : Prop :=
  (r.synRecv = true ∨ seg.header.syn = true) ∧
    r.reassembler.EndsOutput seg.payload (r.payloadIndex seg) seg.header.fin

instance (r : TCPReceiver) (seg : TCPSegment) : Decidable (r.EndsStream seg) :=
  inferInstanceAs (Decidable (_ ∧ _))

theorem segmentReceived_inputEnded_iff {r r' : TCPReceiver} (hinv : r.reassembler.Inv)
    (hopen : r.streamOut.inputEnded = false) {seg : TCPSegment}
    (h : r.segmentReceived seg = some r') :
    r'.streamOut.inputEnded = true ↔ r.EndsStream seg := by
  obtain ⟨hrecv, hsyn, rfl⟩ | ⟨hpushed, reassembler, hpush, rfl⟩ := segmentReceived_cases h
  · simp [hopen, EndsStream, hrecv, hsyn]
  · rw [EndsStream, and_iff_right hpushed]
    exact hinv.pushSubstring_inputEnded_iff hopen hpush

/-- The acknowledgement counts the SYN, the bytes written and the FIN. -/
theorem ackno_eq (r : TCPReceiver) :
    r.ackno = if r.synRecv then
      some (wrap (1 + r.streamOut.bytesWritten + if r.streamOut.inputEnded then 1 else 0) ⟨r.isn⟩)
    else none := by
  unfold ackno
  split
  · -- the truncated sum and the truncated terms are the same word
    apply congrArg some
    apply WrappingInt32.ext_toNat
    rw [wrap_toNat]
    show (r.isn + if r.streamOut.inputEnded then _ else _).toNat = _
    split
    · simp only [UInt32.toNat_add, UInt32.toNat_ofNat', UInt32.toNat_one]
      omega
    · simp only [UInt32.toNat_add, UInt32.toNat_ofNat', UInt32.toNat_one]
      omega
  · rfl

end TCPReceiver

end Sponge
