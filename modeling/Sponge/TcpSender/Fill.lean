/-
  Sponge.TcpSender.Fill

  What the operations of a sender can do.

  `fill_window` sends new segments one after the other.  Each of them is an
  `Emit` step: `Fresh` says what such a segment can be, `afterSend` is its whole
  effect on the sender.  `fillWindow_run` cuts `fill_window` into these steps, and
  `fillWindow_full` says where it stops.
-/

import Sponge.TcpSender.Basic
import Sponge.Lib.Run

namespace Sponge

open Lib (Run Guarded)

namespace TCPSender

-- ============================================================================
-- Sending one new segment
-- ============================================================================

/-- What can be sent next as a new segment; `stream` is the stream after its
    payload was read. -/
structure Fresh (s : TCPSender) (seg : TCPSegment) (stream : ByteStream) : Prop where
  header_eq : seg.header = { seqno := s.nextSeqno, syn := seg.header.syn, fin := seg.header.fin }
  pos : 0 < seg.lengthInSequenceSpace
  syn_iff : seg.header.syn = true ↔ s.nextSeqnoAbsolute = 0
  syn_bare : seg.header.syn = true → seg.payload = [] ∧ seg.header.fin = false
  payload_le : seg.payload.length ≤ TCPConfig.maxPayloadSize
  window_le : seg.header.syn = false → seg.lengthInSequenceSpace ≤ s.windowSize
  read_eq : s.stream.read seg.payload.length = (seg.payload, stream)
  fin_ok : seg.header.fin = true → s.finSent = false ∧ stream.eof = true

/-- The effect of `send_new_segment` on a segment that has its sequence number. -/
def pushNew (s : TCPSender) (seg : TCPSegment) (hpos : 0 < seg.lengthInSequenceSpace) :
    TCPSender :=
  { s with
    segmentsOut := s.segmentsOut ++ [seg]
    outstandingSegments := insertOutstanding seg s.outstandingSegments
    nextSeqnoAbsolute := s.nextSeqnoAbsolute + seg.lengthInSequenceSpace
    windowSize := s.windowSize - seg.lengthInSequenceSpace
    retransmissionTimerOn := true
    retransmissionTimer := if s.retransmissionTimerOn then s.retransmissionTimer else 0
    outstanding_pos := by
      intro x hx
      rcases mem_insertOutstanding.mp hx with rfl | hmem
      · exact hpos
      · exact s.outstanding_pos x hmem }

/-- The sender after a new segment was sent. -/
def afterSend (s : TCPSender) (seg : TCPSegment) (stream : ByteStream)
    (hpos : 0 < seg.lengthInSequenceSpace) : TCPSender :=
  pushNew { s with stream := stream, finSent := s.finSent || seg.header.fin } seg hpos

/-- Sending one new segment. -/
inductive Emit (s : TCPSender) : TCPSegment → TCPSender → Prop
  | mk {seg : TCPSegment} {stream : ByteStream} (h : s.Fresh seg stream) :
      Emit s seg (s.afterSend seg stream h.pos)

@[simp] theorem withSeqno_length (seg : TCPSegment) (seqno : WrappingInt32) :
    (withSeqno seg seqno).lengthInSequenceSpace = seg.lengthInSequenceSpace := rfl

/-- `send_new_segment` of a segment that fits the 16-bit length. -/
theorem sendNewSegment_eq (s : TCPSender) (seg : TCPSegment)
    (hpos : 0 < seg.lengthInSequenceSpace) (hlt : seg.lengthInSequenceSpace < 2 ^ 16) :
    s.sendNewSegment seg = s.pushNew (withSeqno seg s.nextSeqno) hpos := by
  have hmod : seg.lengthInSequenceSpace % 2 ^ 16 = seg.lengthInSequenceSpace :=
    Nat.mod_eq_of_lt hlt
  have hwin : (if s.windowSize < seg.lengthInSequenceSpace then 0
      else s.windowSize - seg.lengthInSequenceSpace) =
      s.windowSize - seg.lengthInSequenceSpace := by
    split <;> omega
  unfold sendNewSegment sendSegment
  simp only [withSeqno_length, hmod]
  rw [dif_neg (by omega)]
  simp only [hwin]
  rfl

theorem emit_syn {s : TCPSender} (h : s.nextSeqnoAbsolute = 0) :
    Emit s (withSeqno synSegment s.nextSeqno) (s.sendNewSegment synSegment) := by
  have hfresh : s.Fresh (withSeqno synSegment s.nextSeqno) s.stream :=
    { header_eq := rfl
      pos := Nat.one_pos
      syn_iff := by simp [withSeqno, synSegment, h]
      syn_bare := fun _ => ⟨rfl, rfl⟩
      payload_le := Nat.zero_le _
      window_le := by simp [withSeqno, synSegment]
      read_eq := s.stream.read_zero
      fin_ok := by simp [withSeqno, synSegment] }
  have hemit := Emit.mk hfresh
  rw [sendNewSegment_eq s synSegment (by decide) (by decide)]
  convert hemit using 1
  simp [afterSend, withSeqno, synSegment]

/-- The segment one pass of the loop sends. -/
def dataSegment (s : TCPSender) : TCPSegment :=
  { header := { seqno := s.nextSeqno, fin := s.piggybacksFin }
    payload := (s.stream.read s.bytesPerSegment).1 }

theorem dataSegment_length (s : TCPSender) :
    s.dataSegment.lengthInSequenceSpace =
      min s.bytesPerSegment s.stream.buffer.length + (if s.piggybacksFin then 1 else 0) := by
  simp [dataSegment, TCPSegment.lengthInSequenceSpace, ByteStream.bytesToRead_eq]

theorem bytesPerSegment_eq (s : TCPSender) :
    s.bytesPerSegment = min s.windowSize TCPConfig.maxPayloadSize := by
  unfold bytesPerSegment
  split <;> omega

theorem piggybacksFin_iff (s : TCPSender) :
    s.piggybacksFin = true ↔ (s.stream.read s.bytesPerSegment).2.eof = true ∧
      s.finSent = false ∧ (s.stream.read s.bytesPerSegment).1.length < s.windowSize := by
  simp [piggybacksFin, and_assoc]

/-- A pass of the loop sends something, and no more than a 16-bit length can say. -/
theorem dataSegment_bounds {s : TCPSender} (hwin : 0 < s.windowSize)
    (hbuf : s.stream.buffer ≠ []) :
    0 < s.dataSegment.lengthInSequenceSpace ∧ s.dataSegment.lengthInSequenceSpace < 2 ^ 16 := by
  have hlen := s.dataSegment_length
  have hper := s.bytesPerSegment_eq
  have hmax : TCPConfig.maxPayloadSize = 1452 := rfl
  have hbpos := List.length_pos_iff.mpr hbuf
  split at hlen <;> omega

theorem emit_data {s : TCPSender} (hnext : 0 < s.nextSeqnoAbsolute) (hwin : 0 < s.windowSize)
    (hbuf : s.stream.buffer ≠ []) : Emit s s.dataSegment s.sendData := by
  obtain ⟨hpos, hlt⟩ := dataSegment_bounds hwin hbuf
  have hlen := s.dataSegment_length
  have hper := s.bytesPerSegment_eq
  have hplen : s.dataSegment.payload.length = min s.bytesPerSegment s.stream.buffer.length := by
    simp [dataSegment, ByteStream.bytesToRead_eq]
  have hfresh : s.Fresh s.dataSegment (s.stream.read s.bytesPerSegment).2 :=
    { header_eq := rfl
      pos := hpos
      syn_iff := by simp [dataSegment]; omega
      syn_bare := by simp [dataSegment]
      payload_le := by omega
      window_le := by
        intro _
        by_cases hfin : s.piggybacksFin = true
        · have := ((piggybacksFin_iff s).mp hfin).2.2
          rw [show (s.stream.read s.bytesPerSegment).1 = s.dataSegment.payload from rfl] at this
          rw [hlen, if_pos hfin]
          omega
        · rw [hlen, if_neg hfin]
          omega
      read_eq := by
        rw [show s.dataSegment.payload = (s.stream.read s.bytesPerSegment).1 from rfl,
          ByteStream.read_fst_length]
      fin_ok := fun hfin =>
        have h := (piggybacksFin_iff s).mp hfin
        ⟨h.2.1, h.1⟩ }
  have hemit := Emit.mk hfresh
  have heq : s.sendData = s.afterSend s.dataSegment (s.stream.read s.bytesPerSegment).2 hpos := by
    unfold sendData
    exact sendNewSegment_eq _ _ hpos hlt
  rw [heq]
  exact hemit

theorem emit_fin {s : TCPSender} (hnext : 0 < s.nextSeqnoAbsolute) (hwin : 0 < s.windowSize)
    (heof : s.stream.eof = true) (hfin : s.finSent = false) :
    Emit s (withSeqno finSegment s.nextSeqno)
      (sendNewSegment { s with finSent := true } finSegment) := by
  have hlen : (withSeqno finSegment s.nextSeqno).lengthInSequenceSpace = 1 := rfl
  have hfresh : s.Fresh (withSeqno finSegment s.nextSeqno) s.stream :=
    { header_eq := rfl
      pos := Nat.one_pos
      syn_iff := by simp [withSeqno, finSegment]; omega
      syn_bare := by simp [withSeqno, finSegment]
      payload_le := Nat.zero_le _
      window_le := fun _ => by omega
      read_eq := s.stream.read_zero
      fin_ok := fun _ => ⟨hfin, heof⟩ }
  have hemit := Emit.mk hfresh
  rw [sendNewSegment_eq _ finSegment (by decide) (by decide)]
  convert hemit using 1
  simp [afterSend, withSeqno, finSegment, nextSeqno]

-- ============================================================================
-- Filling the window
-- ============================================================================

section AfterSend

variable (s : TCPSender) (seg : TCPSegment) (stream : ByteStream)
  (hpos : 0 < seg.lengthInSequenceSpace)

@[simp] theorem afterSend_isn : (s.afterSend seg stream hpos).isn = s.isn := rfl

@[simp] theorem afterSend_segmentsOut :
    (s.afterSend seg stream hpos).segmentsOut = s.segmentsOut ++ [seg] := rfl

@[simp] theorem afterSend_outstandingSegments :
    (s.afterSend seg stream hpos).outstandingSegments =
      insertOutstanding seg s.outstandingSegments := rfl

@[simp] theorem afterSend_stream : (s.afterSend seg stream hpos).stream = stream := rfl

@[simp] theorem afterSend_nextSeqnoAbsolute :
    (s.afterSend seg stream hpos).nextSeqnoAbsolute =
      s.nextSeqnoAbsolute + seg.lengthInSequenceSpace := rfl

@[simp] theorem afterSend_windowSize :
    (s.afterSend seg stream hpos).windowSize = s.windowSize - seg.lengthInSequenceSpace := rfl

@[simp] theorem afterSend_retransmissionTimerOn :
    (s.afterSend seg stream hpos).retransmissionTimerOn = true := rfl

@[simp] theorem afterSend_highestAckno :
    (s.afterSend seg stream hpos).highestAckno = s.highestAckno := rfl

@[simp] theorem afterSend_highestAcknoRight :
    (s.afterSend seg stream hpos).highestAcknoRight = s.highestAcknoRight := rfl

@[simp] theorem afterSend_finSent :
    (s.afterSend seg stream hpos).finSent = (s.finSent || seg.header.fin) := rfl

end AfterSend

namespace Fresh

variable {s : TCPSender} {seg : TCPSegment} {stream : ByteStream} (h : s.Fresh seg stream)

include h

theorem seqno_eq : seg.header.seqno = wrap s.nextSeqnoAbsolute s.isn := by
  rw [h.header_eq]
  rfl

theorem buffer_eq : seg.payload ++ stream.buffer = s.stream.buffer := by
  have happ := s.stream.read_append seg.payload.length
  rwa [h.read_eq] at happ

theorem bytesRead_eq : stream.bytesRead = s.stream.bytesRead + seg.payload.length := by
  have hread := s.stream.read_bytesRead seg.payload.length
  have hlen := congrArg List.length h.buffer_eq
  simp only [h.read_eq, ByteStream.bytesToRead_eq] at hread
  rw [List.length_append] at hlen
  omega

theorem bytesWritten_eq : stream.bytesWritten = s.stream.bytesWritten := by
  have hread := s.stream.read_bytesWritten seg.payload.length
  rwa [h.read_eq] at hread

theorem inputEnded_eq : stream.inputEnded = s.stream.inputEnded := by
  have hread := s.stream.read_inputEnded seg.payload.length
  rwa [h.read_eq] at hread

theorem error_eq : stream.error = s.stream.error := by
  have hread := s.stream.read_error seg.payload.length
  rwa [h.read_eq] at hread

end Fresh

theorem Emit.nextSeqnoAbsolute_lt {s s' : TCPSender} {seg : TCPSegment} (h : Emit s seg s') :
    s.nextSeqnoAbsolute < s'.nextSeqnoAbsolute := by
  obtain ⟨hf⟩ := h
  have := hf.pos
  rw [afterSend_nextSeqnoAbsolute]
  omega

theorem Emit.isn_eq {s s' : TCPSender} {seg : TCPSegment} (h : Emit s seg s') : s'.isn = s.isn := by
  obtain ⟨hf⟩ := h
  rfl

/-- The payload is taken out of the buffer. -/
theorem Emit.buffer_length_le {s s' : TCPSender} {seg : TCPSegment} (h : Emit s seg s') :
    s'.stream.buffer.length + seg.payload.length = s.stream.buffer.length := by
  obtain ⟨hf⟩ := h
  rw [afterSend_stream, ← hf.buffer_eq, List.length_append, Nat.add_comm]

theorem fillLoop_run (fuel : Nat) {s : TCPSender} (hnext : 0 < s.nextSeqnoAbsolute) :
    ∃ segs, Run Emit s segs (fillLoop fuel s) := by
  induction fuel generalizing s with
  | zero => exact ⟨[], Run.nil⟩
  | succ fuel ih =>
      unfold fillLoop
      split
      · rename_i h
        have hbuf := (s.stream.bufferEmpty_eq_false_iff).mp h.2
        have hemit := emit_data hnext h.1 hbuf
        obtain ⟨segs, hrun⟩ := ih (Nat.lt_of_le_of_lt (Nat.zero_le _) hemit.nextSeqnoAbsolute_lt)
        exact ⟨_, (Run.single hemit).append hrun⟩
      · exact ⟨[], Run.nil⟩

/-- With the buffered bytes as fuel the loop ends as in the source: the window is
    used up or the buffer is empty. -/
theorem fillLoop_done (fuel : Nat) {s : TCPSender} (hnext : 0 < s.nextSeqnoAbsolute)
    (hfuel : s.stream.buffer.length ≤ fuel) :
    (fillLoop fuel s).windowSize = 0 ∨ (fillLoop fuel s).stream.buffer = [] := by
  induction fuel generalizing s with
  | zero => exact Or.inr (List.length_eq_zero_iff.mp (Nat.le_zero.mp hfuel))
  | succ fuel ih =>
      unfold fillLoop
      split
      · rename_i h
        have hbuf := (s.stream.bufferEmpty_eq_false_iff).mp h.2
        have hemit := emit_data hnext h.1 hbuf
        have hlt := hemit.nextSeqnoAbsolute_lt
        have hlen := hemit.buffer_length_le
        have hpay : 0 < s.dataSegment.payload.length := by
          have hper := s.bytesPerSegment_eq
          have hmax : TCPConfig.maxPayloadSize = 1452 := rfl
          exact ByteStream.read_fst_length_pos hbuf (by omega)
        exact ih (by omega) (by omega)
      · rename_i h
        rw [not_and_or] at h
        rcases h with h | h
        · exact Or.inl (by omega)
        · exact Or.inr ((s.stream.bufferEmpty_iff).mp (by simpa using h))

theorem sendSyn_run (s : TCPSender) :
    0 < s.sendSyn.nextSeqnoAbsolute ∧ ∃ segs, Run Emit s segs s.sendSyn := by
  unfold sendSyn
  split
  · rename_i h
    have hemit := emit_syn h
    have hlt := hemit.nextSeqnoAbsolute_lt
    exact ⟨by omega, _, Run.single hemit⟩
  · exact ⟨by omega, [], Run.nil⟩

theorem sendFin_run {s : TCPSender} (hnext : 0 < s.nextSeqnoAbsolute) :
    ∃ segs, Run Emit s segs s.sendFin := by
  unfold sendFin
  split
  · rename_i h
    exact ⟨_, Run.single (emit_fin hnext h.2.2 h.1 h.2.1)⟩
  · exact ⟨[], Run.nil⟩

theorem nextSeqnoAbsolute_le_of_run {s s' : TCPSender} {segs : List TCPSegment}
    (h : Run Emit s segs s') : s.nextSeqnoAbsolute ≤ s'.nextSeqnoAbsolute :=
  h.measure_le (m := nextSeqnoAbsolute) fun _ _ _ he => Nat.le_of_lt he.nextSeqnoAbsolute_lt

/-- `fill_window` sends new segments and does nothing else; the first of them is
    the SYN. -/
theorem fillWindow_run (s : TCPSender) :
    0 < s.fillWindow.nextSeqnoAbsolute ∧ ∃ segs, Run Emit s segs s.fillWindow := by
  obtain ⟨hnext, segs₁, hrun₁⟩ := s.sendSyn_run
  unfold fillWindow
  simp only
  split
  · exact ⟨hnext, segs₁, hrun₁⟩
  · obtain ⟨segs₂, hrun₂⟩ := fillLoop_run s.sendSyn.stream.bufferSize hnext
    have hle := nextSeqnoAbsolute_le_of_run hrun₂
    obtain ⟨segs₃, hrun₃⟩ := sendFin_run (Nat.lt_of_lt_of_le hnext hle)
    have hle' := nextSeqnoAbsolute_le_of_run hrun₃
    exact ⟨by omega, _, (hrun₁.append hrun₂).append hrun₃⟩

/-- After `fill_window` the window is used up or there is nothing left to send. -/
theorem fillWindow_full (s : TCPSender) :
    s.fillWindow.windowSize = 0 ∨
      s.fillWindow.stream.buffer = [] ∧
        (s.fillWindow.stream.inputEnded = true → s.fillWindow.finSent = true) := by
  obtain ⟨hnext, -⟩ := s.sendSyn_run
  unfold fillWindow
  simp only
  split
  · rename_i h
    exact Or.inl h
  · have hdone := fillLoop_done s.sendSyn.stream.bufferSize hnext (Nat.le_refl _)
    obtain ⟨segs, hrun⟩ := fillLoop_run s.sendSyn.stream.bufferSize hnext
    have hle := nextSeqnoAbsolute_le_of_run hrun
    generalize fillLoop s.sendSyn.stream.bufferSize s.sendSyn = u at hdone hle ⊢
    unfold sendFin
    split
    · rename_i h
      obtain ⟨heof, hfin, hwin⟩ := h
      rw [sendNewSegment_eq _ finSegment (by decide) (by decide)]
      exact Or.inr ⟨((u.stream.eof_iff).mp heof).2, fun _ => rfl⟩
    · rename_i h
      rcases hdone with hwin | hbuf
      · exact Or.inl hwin
      · by_cases hwin : u.windowSize = 0
        · exact Or.inl hwin
        · refine Or.inr ⟨hbuf, fun hended => ?_⟩
          by_contra hfin
          exact h ⟨(u.stream.eof_iff).mpr ⟨hended, hbuf⟩, by simpa using hfin, by omega⟩

/-- Sending does not touch what acknowledgements and the clock have set. -/
theorem frame_of_run {s s' : TCPSender} {segs : List TCPSegment} (h : Run Emit s segs s') :
    s'.highestAckno = s.highestAckno ∧ s'.highestAcknoRight = s.highestAcknoRight ∧
    s'.windowEmpty = s.windowEmpty ∧
    s'.initialRetransmissionTimeout = s.initialRetransmissionTimeout ∧
    s'.retransmissionTimeout = s.retransmissionTimeout ∧
    s'.consecutiveRetransmissions = s.consecutiveRetransmissions := by
  refine h.invariant (I := fun u => u.highestAckno = s.highestAckno ∧
    u.highestAcknoRight = s.highestAcknoRight ∧ u.windowEmpty = s.windowEmpty ∧
    u.initialRetransmissionTimeout = s.initialRetransmissionTimeout ∧
    u.retransmissionTimeout = s.retransmissionTimeout ∧
    u.consecutiveRetransmissions = s.consecutiveRetransmissions) ⟨rfl, rfl, rfl, rfl, rfl, rfl⟩ ?_
  rintro t seg u ht ⟨hf⟩
  exact ht

theorem fillWindow_frame (s : TCPSender) :
    s.fillWindow.highestAckno = s.highestAckno ∧
    s.fillWindow.highestAcknoRight = s.highestAcknoRight ∧
    s.fillWindow.windowEmpty = s.windowEmpty ∧
    s.fillWindow.initialRetransmissionTimeout = s.initialRetransmissionTimeout ∧
    s.fillWindow.retransmissionTimeout = s.retransmissionTimeout ∧
    s.fillWindow.consecutiveRetransmissions = s.consecutiveRetransmissions := by
  obtain ⟨-, segs, hrun⟩ := s.fillWindow_run
  exact frame_of_run hrun

theorem fillWindow_error (s : TCPSender) : s.fillWindow.stream.error = s.stream.error := by
  obtain ⟨-, segs, hrun⟩ := s.fillWindow_run
  refine hrun.invariant (I := fun u => u.stream.error = s.stream.error) rfl ?_
  rintro t seg u ht ⟨hf⟩
  exact hf.error_eq.trans ht

theorem segmentsOut_of_run {s s' : TCPSender} {segs : List TCPSegment} (h : Run Emit s segs s') :
    s'.segmentsOut = s.segmentsOut ++ segs := by
  refine h.invariant_hist (I := fun segs t => t.segmentsOut = s.segmentsOut ++ segs) (by simp) ?_
  rintro es t e u ht ⟨hf⟩
  rw [afterSend_segmentsOut, ht, List.append_assoc]

-- ============================================================================
-- What the other operations leave alone
-- ============================================================================

section Acknowledge

variable (s : TCPSender) (ackno : WrappingInt32) (w : UInt16)

theorem accepts_iff : s.Accepts ackno ↔
    ackno.rawValue.toNat ≤ s.nextSeqno.rawValue.toNat ∧
      s.highestAckno ≤ ackno.rawValue.toNat := by
  rw [Accepts, not_or, gt_iff_lt, UInt32.lt_iff_toNat_lt]
  omega

/-- What `ack_received` leaves alone before it fills the window. -/
theorem acknowledge_frame :
    (s.acknowledge ackno w).isn = s.isn ∧
    (s.acknowledge ackno w).segmentsOut = s.segmentsOut ∧
    (s.acknowledge ackno w).stream = s.stream ∧
    (s.acknowledge ackno w).nextSeqnoAbsolute = s.nextSeqnoAbsolute ∧
    (s.acknowledge ackno w).finSent = s.finSent := by
  unfold acknowledge resetTimer updateWindow releaseAcknowledged
  split_ifs <;> exact ⟨rfl, rfl, rfl, rfl, rfl⟩

@[simp] theorem acknowledge_isn : (s.acknowledge ackno w).isn = s.isn :=
  (s.acknowledge_frame ackno w).1

@[simp] theorem acknowledge_segmentsOut : (s.acknowledge ackno w).segmentsOut = s.segmentsOut :=
  (s.acknowledge_frame ackno w).2.1

@[simp] theorem acknowledge_stream : (s.acknowledge ackno w).stream = s.stream :=
  (s.acknowledge_frame ackno w).2.2.1

@[simp] theorem acknowledge_nextSeqnoAbsolute :
    (s.acknowledge ackno w).nextSeqnoAbsolute = s.nextSeqnoAbsolute :=
  (s.acknowledge_frame ackno w).2.2.2.1

@[simp] theorem acknowledge_finSent : (s.acknowledge ackno w).finSent = s.finSent :=
  (s.acknowledge_frame ackno w).2.2.2.2

@[simp] theorem acknowledge_outstandingSegments :
    (s.acknowledge ackno w).outstandingSegments =
      s.outstandingSegments.dropWhile (isAcknowledged ackno) := by
  unfold acknowledge resetTimer updateWindow
  split_ifs <;> rfl

theorem updateWindow_timer :
    (s.updateWindow ackno w).highestAckno = s.highestAckno ∧
    (s.updateWindow ackno w).outstandingSegments = s.outstandingSegments ∧
    (s.updateWindow ackno w).retransmissionTimerOn = s.retransmissionTimerOn := by
  unfold updateWindow
  split_ifs <;> exact ⟨rfl, rfl, rfl⟩

theorem acknowledge_highestAckno :
    (s.acknowledge ackno w).highestAckno = max s.highestAckno ackno.rawValue.toNat := by
  obtain ⟨hhigh, -, -⟩ := (s.releaseAcknowledged ackno).updateWindow_timer ackno w
  have hrel : (s.releaseAcknowledged ackno).highestAckno = s.highestAckno := rfl
  unfold acknowledge resetTimer
  split
  · show (ackno.rawValue.toNat : Int) = _
    omega
  · omega

theorem acknowledge_retransmissionTimerOn :
    (s.acknowledge ackno w).retransmissionTimerOn =
      if (ackno.rawValue.toNat : Int) > s.highestAckno then
        !(s.outstandingSegments.dropWhile (isAcknowledged ackno)).isEmpty
      else s.retransmissionTimerOn := by
  obtain ⟨hhigh, hout, hon⟩ := (s.releaseAcknowledged ackno).updateWindow_timer ackno w
  unfold acknowledge resetTimer
  rw [hhigh]
  by_cases hnew : (ackno.rawValue.toNat : Int) > s.highestAckno
  · rw [if_pos (by exact hnew), if_pos hnew]
    exact congrArg (fun segs => !segs.isEmpty) hout
  · rw [if_neg (by exact hnew), if_neg hnew]
    exact hon

theorem acknowledge_windowSize :
    (s.acknowledge ackno w).windowSize =
      if w = 0 then 1
      else if (acknoRight ackno w : Int) > s.highestAcknoRight then w.toNat
      else s.windowSize := by
  unfold acknowledge resetTimer updateWindow releaseAcknowledged
  split_ifs <;> rfl

end Acknowledge

-- ============================================================================
-- Time
-- ============================================================================

/-- `tick(ms)` sends the first outstanding segment again. -/
def Expires (s : TCPSender) (ms : Nat) : Prop :=
  s.retransmissionTimerOn = true ∧
    s.consecutiveRetransmissions ≤ TCPConfig.maxRetxAttempts ∧
    s.outstandingSegments.isEmpty = false ∧
    s.retransmissionTimeout ≤ (s.retransmissionTimer + ms) % 2 ^ 32

instance (s : TCPSender) (ms : Nat) : Decidable (s.Expires ms) :=
  inferInstanceAs (Decidable (_ ∧ _))

theorem retransmit_segmentsOut (s : TCPSender) (seg : TCPSegment) :
    (s.retransmit seg).segmentsOut = s.segmentsOut ++ [seg] := by
  simp only [retransmit]
  split <;> rfl

theorem retransmit_consecutiveRetransmissions (s : TCPSender) (seg : TCPSegment) :
    (s.retransmit seg).consecutiveRetransmissions =
      s.consecutiveRetransmissions + if s.windowEmpty then 0 else 1 := by
  simp only [retransmit]
  split <;> rfl

theorem tick_of_expires {s : TCPSender} {ms : Nat} (h : s.Expires ms) :
    ∃ seg, s.outstandingSegments.head? = some seg ∧
      s.tick ms = (s.advanceTimer ms).retransmit seg := by
  obtain ⟨hon, hretx, hout, htime⟩ := h
  cases hsegs : s.outstandingSegments with
  | nil => simp [hsegs] at hout
  | cons seg rest =>
      refine ⟨seg, rfl, ?_⟩
      have hhead : (s.advanceTimer ms).outstandingSegments.head? = some seg := by
        simp [advanceTimer, hsegs]
      unfold tick
      rw [if_neg (by rw [hon]; simpa using hretx)]
      simp only [hhead]
      rw [if_pos (by exact htime)]

theorem tick_of_not_expires {s : TCPSender} {ms : Nat} (h : ¬ s.Expires ms) :
    s.tick ms = if s.retransmissionTimerOn = false ∨
      s.consecutiveRetransmissions > TCPConfig.maxRetxAttempts then s else s.advanceTimer ms := by
  unfold tick
  split
  · rfl
  · rename_i hrun
    simp only [not_or, Bool.not_eq_false, Nat.not_lt] at hrun
    simp only
    cases hsegs : (s.advanceTimer ms).outstandingSegments with
    | nil => rfl
    | cons seg rest =>
        have hcons : s.outstandingSegments = seg :: rest := hsegs
        simp only [List.head?_cons]
        rw [if_neg]
        intro htime
        exact h ⟨hrun.1, hrun.2, by simp [hcons], htime⟩

/-- The count after a tick. -/
theorem tick_consecutiveRetransmissions (s : TCPSender) (ms : Nat) :
    (s.tick ms).consecutiveRetransmissions = s.consecutiveRetransmissions +
      if s.Expires ms ∧ s.windowEmpty = false then 1 else 0 := by
  by_cases hexp : s.Expires ms
  · obtain ⟨seg, -, htick⟩ := tick_of_expires hexp
    have hmark : (s.advanceTimer ms).windowEmpty = s.windowEmpty := rfl
    rw [htick, retransmit_consecutiveRetransmissions, hmark]
    cases s.windowEmpty <;> simp [hexp, advanceTimer]
  · rw [if_neg (fun h => hexp h.1 : ¬ (s.Expires ms ∧ _)), tick_of_not_expires hexp]
    split <;> rfl

/-- `tick` only touches the timer, and may queue a copy of the first outstanding
    segment. -/
theorem tick_eq (s : TCPSender) (ms : Nat) :
    ∃ segs timer timeout retransmissions,
      (segs = [] ∨ ∃ seg, s.outstandingSegments.head? = some seg ∧ segs = [seg]) ∧
      s.tick ms = { s with
        segmentsOut := s.segmentsOut ++ segs
        retransmissionTimer := timer
        retransmissionTimeout := timeout
        consecutiveRetransmissions := retransmissions } := by
  by_cases hexp : s.Expires ms
  · obtain ⟨seg, hhead, htick⟩ := tick_of_expires hexp
    refine ⟨[seg], 0, ?_⟩
    rw [htick]
    simp only [retransmit]
    split
    · exact ⟨_, _, Or.inr ⟨seg, hhead, rfl⟩, rfl⟩
    · exact ⟨_, _, Or.inr ⟨seg, hhead, rfl⟩, rfl⟩
  · rw [tick_of_not_expires hexp]
    split
    · exact ⟨[], _, _, _, Or.inl rfl, by rw [List.append_nil]⟩
    · exact ⟨[], _, _, _, Or.inl rfl, by rw [List.append_nil]; rfl⟩

end TCPSender

end Sponge
