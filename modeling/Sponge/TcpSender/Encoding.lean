/-
  Sponge.TcpSender.Encoding

  What a sender puts on the sequence space.

  The segments that are pushed for the first time tile the absolute positions
  from 0 on, and what they carry is the SYN, the bytes that were written and the
  FIN (`encodeAt`).  `WireInv` says so for any owner, also for one that writes
  after it has ended the input: the FIN then stands where the input ended first,
  and bytes follow it.  When nothing is written after `end_input()`, the FIN is
  the last item and the encoding is exact (`encoding_exact`).
-/

import Sponge.TcpSender.Trace

namespace Sponge

open Lib (Run Guarded)

/-- The sequence space of a stream whose FIN, if any, follows the first `n` bytes. -/
def encodeAt (bytes : List UInt8) : Option Nat → List Cell
  | none => .syn :: bytes.map .byte
  | some n => .syn :: ((bytes.take n).map .byte ++ .fin :: (bytes.drop n).map .byte)

theorem encodeAt_none_append (bytes more : List UInt8) :
    encodeAt (bytes ++ more) none = encodeAt bytes none ++ more.map .byte := by
  simp [encodeAt]

theorem encodeAt_some_append {bytes more : List UInt8} {n : Nat} (h : n ≤ bytes.length) :
    encodeAt (bytes ++ more) (some n) = encodeAt bytes (some n) ++ more.map .byte := by
  simp [encodeAt, List.take_append_of_le_length h, List.drop_append_of_le_length h]

theorem encodeAt_length (bytes : List UInt8) :
    encodeAt bytes (some bytes.length) = encodeAt bytes none ++ [.fin] := by
  simp [encodeAt]

theorem length_encodeAt (bytes : List UInt8) (finAt : Option Nat) :
    (encodeAt bytes finAt).length = 1 + bytes.length + if finAt.isSome then 1 else 0 := by
  cases finAt with
  | none => simp [encodeAt, Nat.add_comm]
  | some n =>
      simp only [encodeAt, List.length_cons, List.length_append, List.length_map,
        List.length_take, List.length_drop, Option.isSome_some, if_true]
      omega

/-- A FIN after all bytes makes the plain encoding. -/
theorem encodeAt_eq_encode {bytes : List UInt8} {finAt : Option Nat}
    (h : ∀ n, finAt = some n → n = bytes.length) :
    encodeAt bytes finAt = encode bytes finAt.isSome := by
  cases finAt with
  | none => simp [encodeAt, encode]
  | some n =>
      rw [h n rfl, encodeAt_length]
      simp [encodeAt, encode]

/-- `out` interleaves the first-time segments with copies of earlier ones and with
    empty segments that carry the next sequence number. -/
inductive Replays (isn : WrappingInt32) : List TCPSegment → List TCPSegment → Prop
  | nil : Replays isn [] []
  | first {out segs : List TCPSegment} (seg : TCPSegment) :
      Replays isn out segs → Replays isn (out ++ [seg]) (segs ++ [seg])
  | copy {out segs : List TCPSegment} {seg : TCPSegment} :
      Replays isn out segs → seg ∈ segs → Replays isn (out ++ [seg]) segs
  | empty {out segs : List TCPSegment} :
      Replays isn out segs →
        Replays isn (out ++ [{ header := { seqno := wrap (wire segs).length isn } }]) segs

/-- Everything pushed goes back to a first-time segment, or is empty and numbered by
    what had been sent. -/
theorem Replays.mem_cases {isn : WrappingInt32} {out segs : List TCPSegment}
    (h : Replays isn out segs) {seg : TCPSegment} (hseg : seg ∈ out) :
    seg ∈ segs ∨ ∃ n, n ≤ (wire segs).length ∧ seg = { header := { seqno := wrap n isn } } := by
  induction h with
  | nil => cases hseg
  | first x _ ih =>
      rcases List.mem_append.mp hseg with hseg | hseg
      · refine (ih hseg).imp (List.mem_append_left _) ?_
        rintro ⟨n, hn, heq⟩
        rw [wire_append, List.length_append]
        exact ⟨n, by omega, heq⟩
      · exact Or.inl (List.mem_append_right _ hseg)
  | copy _ hmem ih =>
      rcases List.mem_append.mp hseg with hseg | hseg
      · exact ih hseg
      · exact Or.inl (List.mem_singleton.mp hseg ▸ hmem)
  | empty _ ih =>
      rcases List.mem_append.mp hseg with hseg | hseg
      · exact ih hseg
      · exact Or.inr ⟨_, Nat.le_refl _, List.mem_singleton.mp hseg⟩

namespace SenderTrace

open TCPSender

-- ============================================================================
-- The stream
-- ============================================================================

/-- The stream's counters and buffer account for what was written. -/
structure StreamInv (t : SenderTrace) : Prop where
  written_eq : t.sender.stream.bytesWritten = t.written.length
  read_le : t.sender.stream.bytesRead ≤ t.written.length
  buffer_eq : t.sender.stream.buffer = t.written.drop t.sender.stream.bytesRead

theorem StreamInv.write {t : SenderTrace} (h : t.StreamInv) (data : List UInt8) :
    (t.direct (.write data)).StreamInv := by
  have hle := h.read_le
  rw [direct_write]
  refine ⟨?_, ?_, ?_⟩
  · have hn := t.sender.stream.bytesToWrite_eq data
    simp only [writeStream, ByteStream.write_bytesWritten, ByteStream.write_fst, h.written_eq,
      List.length_append, List.length_take]
    omega
  · simp only [writeStream, ByteStream.write_bytesRead, List.length_append]
    omega
  · simp only [writeStream, ByteStream.write_buffer, ByteStream.write_bytesRead,
      ByteStream.write_fst]
    rw [List.drop_append_of_le_length hle, h.buffer_eq]

theorem StreamInv.direct {t : SenderTrace} (h : t.StreamInv) (op : Op) : (t.direct op).StreamInv := by
  by_cases hop : ∃ data, op = .write data
  · obtain ⟨data, rfl⟩ := hop
    exact h.write data
  · push Not at hop
    obtain ⟨hwritten, hstream | hstream | hstream⟩ := t.direct_stream hop <;>
      exact ⟨by simpa [hwritten, hstream] using h.written_eq,
        by simpa [hwritten] using h.read_le,
        by simpa [hwritten, hstream] using h.buffer_eq⟩

/-- The payload of a new segment is what comes next in what was written. -/
theorem StreamInv.payload_eq {t : SenderTrace} (h : t.StreamInv) {seg : TCPSegment}
    {stream : ByteStream} (hf : t.sender.Fresh seg stream) :
    t.written.take stream.bytesRead = t.written.take t.sender.stream.bytesRead ++ seg.payload := by
  have hbuf := hf.buffer_eq
  rw [h.buffer_eq] at hbuf
  rw [hf.bytesRead_eq, List.take_add, ← hbuf, List.take_left]

theorem StreamInv.emit {t : SenderTrace} (h : t.StreamInv) {seg : TCPSegment} {s : TCPSender}
    (he : Emit t.sender seg s) : (t.sent [seg] s).StreamInv := by
  obtain ⟨hf⟩ := he
  have hread := hf.bytesRead_eq
  have hbuf := hf.buffer_eq
  have hlen := congrArg List.length hbuf
  have hle := h.read_le
  rw [h.buffer_eq] at hbuf hlen
  simp only [List.length_append, List.length_drop] at hlen
  refine ⟨hf.bytesWritten_eq.trans h.written_eq, ?_, ?_⟩
  · simp only [sent, afterSend_stream]
    omega
  · simp only [sent, afterSend_stream, hread]
    rw [← List.drop_drop, ← hbuf, List.drop_left]

/-- What was read of the stream is settled. -/
theorem StreamInv.direct_take {t : SenderTrace} (h : t.StreamInv) (op : Op) :
    (t.direct op).written.take t.sender.stream.bytesRead =
      t.written.take t.sender.stream.bytesRead := by
  by_cases hop : ∃ data, op = .write data
  · obtain ⟨data, rfl⟩ := hop
    rw [direct_write]
    exact List.take_append_of_le_length h.read_le
  · push Not at hop
    rw [(t.direct_stream hop).1]

-- ============================================================================
-- The segments
-- ============================================================================

/-- The first-time segments tile the sequence space sent so far, and everything
    pushed or outstanding goes back to them. -/
structure SegmentsInv (t : SenderTrace) : Prop where
  tiles : Tiles t.sender.isn 0 t.firstTime t.sender.nextSeqnoAbsolute
  header_eq : ∀ seg ∈ t.firstTime, seg.header =
    { seqno := seg.header.seqno, syn := seg.header.syn, fin := seg.header.fin }
  payload_le : ∀ seg ∈ t.firstTime, seg.payload.length ≤ TCPConfig.maxPayloadSize
  pos : ∀ seg ∈ t.firstTime, 0 < seg.lengthInSequenceSpace
  syn_bare : ∀ seg ∈ t.firstTime, seg.header.syn = true →
    seg.payload = [] ∧ seg.header.fin = false
  replays : Replays t.sender.isn t.pushed t.firstTime
  outstanding : ∀ seg ∈ t.sender.outstandingSegments, seg ∈ t.firstTime

theorem SegmentsInv.direct {t : SenderTrace} (h : t.SegmentsInv) (op : Op) :
    (t.direct op).SegmentsInv where
  tiles := by simpa using h.tiles
  header_eq := by simpa using h.header_eq
  payload_le := by simpa using h.payload_le
  pos := by simpa using h.pos
  syn_bare := by simpa using h.syn_bare
  replays := by
    rw [direct_isn, direct_firstTime]
    rcases t.direct_pushed op with heq | ⟨seg, hseg, heq⟩ | heq
    · rw [heq]
      exact h.replays
    · rw [heq]
      exact h.replays.copy (h.outstanding seg hseg)
    · -- the next sequence number is that of the end of what was sent
      have hlen : (wire t.firstTime).length = t.sender.nextSeqnoAbsolute := by
        simpa using h.tiles.wire_length
      rw [heq, TCPSender.emptySegment, nextSeqno, ← hlen]
      exact h.replays.empty
  outstanding := fun seg hseg => by
    rw [direct_firstTime]
    exact h.outstanding seg (t.direct_outstanding_subset op hseg)

theorem SegmentsInv.emit {t : SenderTrace} (h : t.SegmentsInv) {seg : TCPSegment} {s : TCPSender}
    (he : Emit t.sender seg s) : (t.sent [seg] s).SegmentsInv := by
  obtain ⟨hf⟩ := he
  have hold : ∀ {P : TCPSegment → Prop}, (∀ x ∈ t.firstTime, P x) → P seg →
      ∀ x ∈ t.firstTime ++ [seg], P x := by
    intro P hfirst hseg x hx
    rcases List.mem_append.mp hx with hx | hx
    · exact hfirst x hx
    · exact List.mem_singleton.mp hx ▸ hseg
  refine ⟨h.tiles.append (Tiles.singleton hf.seqno_eq), ?_, hold h.payload_le hf.payload_le,
    hold h.pos hf.pos, hold h.syn_bare hf.syn_bare, h.replays.first seg, ?_⟩
  · apply hold h.header_eq
    rw [hf.header_eq]
  · intro x hx
    rcases mem_insertOutstanding.mp hx with rfl | hx
    · simp [sent]
    · exact List.mem_append_left _ (h.outstanding x hx)

/-- The sender itself never sets the acknowledgement. -/
theorem SegmentsInv.ack_eq_false {t : SenderTrace} (h : t.SegmentsInv) {seg : TCPSegment}
    (hseg : seg ∈ t.pushed) : seg.header.ack = false := by
  rcases Replays.mem_cases h.replays hseg with hmem | ⟨n, -, rfl⟩
  · rw [h.header_eq seg hmem]
  · rfl

/-- Everything the sender pushed lies within what it has sent. -/
theorem SegmentsInv.within_sent {t : SenderTrace} (h : t.SegmentsInv) {seg : TCPSegment}
    (hseg : seg ∈ t.pushed) : ∃ x, seg.header.seqno = wrap x t.sender.isn ∧
      x + seg.lengthInSequenceSpace ≤ t.sender.nextSeqnoAbsolute := by
  rcases h.replays.mem_cases hseg with hfirst | ⟨n, hn, rfl⟩
  · obtain ⟨x, -, hle, hx, -⟩ := h.tiles.of_mem hfirst
    exact ⟨x, hx, hle⟩
  · have hlen : 0 + (wire t.firstTime).length = t.sender.nextSeqnoAbsolute := h.tiles.wire_length
    refine ⟨n, rfl, ?_⟩
    show n + 0 ≤ _
    omega

-- ============================================================================
-- What the segments carry
-- ============================================================================

/-- The first-time segments carry the SYN, what was read of the stream and, once it
    was sent, the FIN after the first `finAt` bytes. -/
structure WireInv (finAt : Option Nat) (t : SenderTrace) : Prop where
  stream : t.StreamInv
  segments : t.SegmentsInv
  start : t.sender.nextSeqnoAbsolute = 0 → t.sender.stream.bytesRead = 0 ∧ finAt = none
  wire_eq : 0 < t.sender.nextSeqnoAbsolute →
    wire t.firstTime = encodeAt (t.written.take t.sender.stream.bytesRead) finAt
  finSent_eq : t.sender.finSent = finAt.isSome
  finAt_le : ∀ n, finAt = some n → n ≤ t.sender.stream.bytesRead

theorem wireInv_new (capacity : UInt64) (retxTimeout : UInt16) (isn : WrappingInt32) :
    (new capacity retxTimeout isn).WireInv none where
  stream := ⟨rfl, Nat.le_refl _, rfl⟩
  segments := ⟨rfl, by simp [new], by simp [new], by simp [new], by simp [new], Replays.nil,
    by simp [new, TCPSender.new]⟩
  start := fun _ => ⟨rfl, rfl⟩
  wire_eq := by simp [new, TCPSender.new]
  finSent_eq := rfl
  finAt_le := by simp

theorem WireInv.direct {finAt : Option Nat} {t : SenderTrace} (h : t.WireInv finAt) (op : Op) :
    (t.direct op).WireInv finAt where
  stream := h.stream.direct op
  segments := h.segments.direct op
  start := by simpa using h.start
  wire_eq := by
    rw [direct_nextSeqnoAbsolute, direct_firstTime, direct_bytesRead, h.stream.direct_take op]
    exact h.wire_eq
  finSent_eq := by simpa using h.finSent_eq
  finAt_le := by simpa using h.finAt_le

theorem WireInv.finAt_le_length {finAt : Option Nat} {t : SenderTrace} (h : t.WireInv finAt) :
    ∀ n, finAt = some n → n ≤ (t.written.take t.sender.stream.bytesRead).length := by
  intro n hn
  rw [List.length_take_of_le h.stream.read_le]
  exact h.finAt_le n hn

/-- The next sequence number counts the SYN, the bytes read and the FIN. -/
theorem WireInv.next_eq {finAt : Option Nat} {t : SenderTrace} (h : t.WireInv finAt)
    (hpos : 0 < t.sender.nextSeqnoAbsolute) :
    t.sender.nextSeqnoAbsolute =
      1 + t.sender.stream.bytesRead + if t.sender.finSent then 1 else 0 := by
  have hlen := h.segments.tiles.wire_length
  rw [h.wire_eq hpos, length_encodeAt, List.length_take_of_le h.stream.read_le,
    ← h.finSent_eq] at hlen
  omega

/-- The counters of a sender agree with what it has sent. -/
theorem WireInv.counts {finAt : Option Nat} {t : SenderTrace} (h : t.WireInv finAt) :
    t.sender.Counts where
  next_eq := h.next_eq
  written_eq := by
    have hle := h.stream.read_le
    rw [h.stream.written_eq, h.stream.buffer_eq, List.length_drop]
    omega

/-- Where the FIN stands after a new segment was sent. -/
def nextFinAt (finAt : Option Nat) (seg : TCPSegment) (s : TCPSender) : Option Nat :=
  if seg.header.fin then some s.stream.bytesRead else finAt

theorem WireInv.emit {finAt : Option Nat} {t : SenderTrace} (h : t.WireInv finAt)
    {seg : TCPSegment} {s : TCPSender} (he : Emit t.sender seg s) :
    (t.sent [seg] s).WireInv (nextFinAt finAt seg s) := by
  have hstream := h.stream.emit he
  have hsegments := h.segments.emit he
  have hlt := he.nextSeqnoAbsolute_lt
  obtain @⟨stream, hf⟩ := he
  have hread := hf.bytesRead_eq
  refine ⟨hstream, hsegments, ?_, ?_, ?_, ?_⟩
  · intro h0
    simp only [sent] at h0
    omega
  · intro _
    simp only [sent, afterSend_stream, wire_append, wire_singleton, nextFinAt]
    rw [h.stream.payload_eq hf]
    by_cases hsyn : seg.header.syn = true
    · -- the SYN is the first item
      have h0 := hf.syn_iff.mp hsyn
      obtain ⟨hpay, hfin⟩ := hf.syn_bare hsyn
      obtain ⟨hr0, hnone⟩ := h.start h0
      have hnil : wire t.firstTime = [] := by
        have := h.segments.tiles.wire_length
        exact List.length_eq_zero_iff.mp (by omega)
      simp [hnil, TCPSegment.cells, hsyn, hpay, hfin, hr0, hnone, encodeAt]
    · rw [Bool.not_eq_true] at hsyn
      have hpos : 0 < t.sender.nextSeqnoAbsolute := by
        have := hf.syn_iff.not.mp (by simp [hsyn])
        omega
      have hlen : (t.written.take t.sender.stream.bytesRead).length = t.sender.stream.bytesRead :=
        List.length_take_of_le h.stream.read_le
      rw [h.wire_eq hpos, TCPSegment.cells_of_not_syn hsyn]
      by_cases hfin : seg.header.fin = true
      · -- the FIN was not sent before, and stands after all bytes read
        have hnone : finAt = none := by
          have := h.finSent_eq
          rw [(hf.fin_ok hfin).1] at this
          simpa using this.symm
        have hall : stream.bytesRead =
            (t.written.take t.sender.stream.bytesRead ++ seg.payload).length := by
          rw [List.length_append, hlen, hread]
        rw [if_pos hfin, if_pos hfin, hnone, hall, encodeAt_length, encodeAt_none_append,
          List.append_assoc]
      · rw [if_neg hfin, if_neg hfin, List.append_nil]
        cases finAt with
        | none => rw [encodeAt_none_append]
        | some n => rw [encodeAt_some_append (by rw [hlen]; exact h.finAt_le n rfl)]
  · simp only [sent, afterSend_finSent, nextFinAt, h.finSent_eq]
    cases seg.header.fin <;> simp
  · intro n hn
    simp only [sent, afterSend_stream, nextFinAt] at hn ⊢
    split at hn
    · have := Option.some.inj hn
      omega
    · have := h.finAt_le n hn
      omega

theorem wireInv_after {t : SenderTrace} (h : ∃ finAt, t.WireInv finAt) (op : Op) :
    ∃ finAt, (t.after op).WireInv finAt := by
  obtain ⟨finAt, hw⟩ := h
  apply after_induction (I := fun u => ∃ finAt, u.WireInv finAt) ⟨finAt, hw.direct op⟩
  rintro u seg s ⟨finAt, hw⟩ he
  exact ⟨_, hw.emit he⟩

/-- The general form: the FIN, if it was sent, stands somewhere among the bytes. -/
theorem wireInv_run {capacity : UInt64} {retxTimeout : UInt16} {isn : WrappingInt32}
    {adm : SenderTrace → Op → Prop} {ops : List Op} {t : SenderTrace}
    (hrun : Run (Guarded adm step) (new capacity retxTimeout isn) ops t) :
    ∃ finAt, t.WireInv finAt := by
  refine hrun.invariant (I := fun t => ∃ finAt, t.WireInv finAt) ⟨_, wireInv_new ..⟩ ?_
  rintro t op u h ⟨-, hs⟩
  obtain rfl := Option.some.inj hs
  exact wireInv_after h op

-- ============================================================================
-- Nothing written after the end
-- ============================================================================

/-- Nothing is written to the stream once its input has ended. -/
def NoWriteAfterEnd (t : SenderTrace) : Op → Prop
  | .write data => t.sender.stream.inputEnded = true → (t.sender.stream.write data).1 = 0
  | _ => True

instance (t : SenderTrace) : ∀ op, Decidable (t.NoWriteAfterEnd op)
  | .write _ => inferInstanceAs (Decidable (_ → _))
  | .endInput | .setError | .fillWindow | .ackReceived _ _ | .tick _ | .sendEmptySegment
  | .drain => isTrue trivial

/-- The FIN stands after everything that was written. -/
def FinLast (finAt : Option Nat) (t : SenderTrace) : Prop :=
  ∀ n, finAt = some n → t.sender.stream.inputEnded = true ∧ n = t.written.length ∧
    t.sender.stream.bytesRead = t.written.length

theorem FinLast.direct {finAt : Option Nat} {t : SenderTrace} (h : t.FinLast finAt) {op : Op}
    (hop : t.NoWriteAfterEnd op) : (t.direct op).FinLast finAt := by
  intro n hn
  obtain ⟨hended, hlen, hread⟩ := h n hn
  rw [direct_bytesRead]
  by_cases hw : ∃ data, op = .write data
  · obtain ⟨data, rfl⟩ := hw
    have hzero : (t.sender.stream.write data).1 = 0 := hop hended
    rw [direct_write]
    simp only [hzero, List.take_zero, List.append_nil]
    exact ⟨hended, hlen, hread⟩
  · push Not at hw
    obtain ⟨hwritten, hstream⟩ := t.direct_stream hw
    rw [hwritten]
    refine ⟨?_, hlen, hread⟩
    rcases hstream with hs | hs | hs <;> simp [hs, hended]

theorem FinLast.emit {finAt : Option Nat} {t : SenderTrace} (hw : t.WireInv finAt)
    (h : t.FinLast finAt) {seg : TCPSegment} {s : TCPSender} (he : Emit t.sender seg s) :
    (t.sent [seg] s).FinLast (nextFinAt finAt seg s) := by
  have hstream := hw.stream.emit he
  obtain @⟨stream, hf⟩ := he
  intro n hn
  have hdrop := hstream.buffer_eq
  have hle := hstream.read_le
  simp only [sent, afterSend_stream, nextFinAt] at hn hdrop hle ⊢
  split at hn
  · -- the stream was at its end when the FIN was sent
    rename_i hfin
    obtain ⟨hended, hnil⟩ := (stream.eof_iff).mp (hf.fin_ok hfin).2
    rw [hnil] at hdrop
    have hge := List.drop_eq_nil_iff.mp hdrop.symm
    have := Option.some.inj hn
    exact ⟨hended, by omega, by omega⟩
  · -- nothing can follow a FIN: there is nothing left to read
    rename_i hfin
    obtain ⟨hended, hlen, hread⟩ := h n hn
    have := hf.bytesRead_eq
    exact ⟨hf.inputEnded_eq.trans hended, hlen, by omega⟩

/-- The segments sent encode the stream exactly. -/
structure Encodes (t : SenderTrace) : Prop where
  next_eq : t.sender.nextSeqnoAbsolute =
    (if .syn ∈ wire t.firstTime then 1 else 0) + t.sender.stream.bytesRead +
      (if .fin ∈ wire t.firstTime then 1 else 0)
  tiles : Tiles t.sender.isn 0 t.firstTime t.sender.nextSeqnoAbsolute
  wire_eq : 0 < t.sender.nextSeqnoAbsolute → wire t.firstTime =
    encode (t.written.take t.sender.stream.bytesRead) (decide (.fin ∈ wire t.firstTime))
  fin_last : .fin ∈ wire t.firstTime →
    t.sender.stream.inputEnded = true ∧ t.sender.stream.bytesRead = t.written.length
  payload_le : ∀ seg ∈ t.firstTime, seg.payload.length ≤ TCPConfig.maxPayloadSize
  replays : Replays t.sender.isn t.pushed t.firstTime

theorem WireInv.encodes {finAt : Option Nat} {t : SenderTrace} (hw : t.WireInv finAt)
    (h : t.FinLast finAt) : t.Encodes := by
  have hlen : (t.written.take t.sender.stream.bytesRead).length = t.sender.stream.bytesRead :=
    List.length_take_of_le hw.stream.read_le
  have htotal := hw.segments.tiles.wire_length
  -- the wire is empty or the plain encoding
  have hwire : 0 < t.sender.nextSeqnoAbsolute → wire t.firstTime =
      encode (t.written.take t.sender.stream.bytesRead) finAt.isSome := by
    intro hpos
    rw [hw.wire_eq hpos]
    refine encodeAt_eq_encode fun n hn => ?_
    have := h n hn
    omega
  have hnil : t.sender.nextSeqnoAbsolute = 0 → wire t.firstTime = [] := fun h0 =>
    List.length_eq_zero_iff.mp (by omega)
  refine ⟨?_, hw.segments.tiles, ?_, ?_, hw.segments.payload_le, hw.segments.replays⟩
  · rcases Nat.eq_zero_or_pos t.sender.nextSeqnoAbsolute with h0 | hpos
    · simp [hnil h0, h0, (hw.start h0).1]
    · have hcount := encode_length (t.written.take t.sender.stream.bytesRead) finAt.isSome
      rw [← hwire hpos, hlen] at hcount
      simp only [hwire hpos, syn_mem_encode, fin_mem_encode, if_true]
      omega
  · intro hpos
    rw [hwire hpos]
    simp
  · intro hfin
    rcases Nat.eq_zero_or_pos t.sender.nextSeqnoAbsolute with h0 | hpos
    · simp [hnil h0] at hfin
    · rw [hwire hpos, fin_mem_encode] at hfin
      obtain ⟨n, hn⟩ := Option.isSome_iff_exists.mp hfin
      exact ⟨(h n hn).1, (h n hn).2.2⟩

/-- **Exact encoding.**  In every run in which nothing is written after the end of
    the input, the segments sent encode the stream exactly. -/
theorem encoding_exact (capacity : UInt64) (retxTimeout : UInt16) (isn : WrappingInt32)
    {ops : List Op} {t : SenderTrace}
    (hrun : Run (Guarded NoWriteAfterEnd step) (new capacity retxTimeout isn) ops t) :
    t.Encodes := by
  obtain ⟨finAt, hw, h⟩ := SenderTrace.invariant
    (I := fun t => ∃ finAt, t.WireInv finAt ∧ t.FinLast finAt) hrun
    ⟨none, wireInv_new .., by simp [FinLast]⟩
    (fun _ op hop ⟨_, hw, h⟩ => ⟨_, hw.direct op, h.direct hop⟩)
    (fun _ _ _ ⟨_, hw, h⟩ he => ⟨_, hw.emit he, h.emit hw he⟩)
  exact hw.encodes h

/-- "abc" through a window of 2, with a retransmission, at the largest ISN. -/
def shortTransfer : List Op :=
  [.fillWindow, .write [97, 98, 99], .ackReceived ⟨0⟩ 2, .tick 1000, .endInput,
    .ackReceived ⟨0⟩ 0, .sendEmptySegment]

theorem encoding_exact_shortTransfer :
    ∃ t, Run (Guarded NoWriteAfterEnd step) (new 16 1000 ⟨4294967295⟩) shortTransfer t ∧
      t.Encodes :=
  have hrun := Run.of_exec NoWriteAfterEnd step (new 16 1000 ⟨4294967295⟩) shortTransfer
    (by decide)
  ⟨_, hrun, encoding_exact 16 1000 ⟨4294967295⟩ hrun⟩

end SenderTrace

end Sponge
