/-
  Sponge.Network.Link

  One direction of a connection: what the segments of a sender are to a receiver.

  `dataAt` reads the stream off the sequence space that the sender has filled.
  Every segment that comes out of the sender is `Genuine`: it carries a piece of
  that space at the sequence number that goes with it.  `Receives` says that a
  receiver has put together nothing else, and `Receives.step` that this stays so
  whatever genuine segments come in, in whatever order and however often.
-/

import Sponge.TcpConnection.Steps

namespace Sponge

open Lib (Run Guarded)
open ByteString (Agrees)
open StreamReassembler (Content)

-- ============================================================================
-- The stream on the sequence space
-- ============================================================================

/-- The byte that an item is, if it is one. -/
def Cell.data : Cell → Option UInt8
  | .byte b => some b
  | _ => none

/-- The byte at an index of the stream; the SYN stands before index 0. -/
def dataAt (cells : List Cell) (k : Nat) : Option UInt8 := cells[k + 1]?.bind Cell.data

theorem dataAt_append {cells : List Cell} (more : List Cell) {k : Nat} {b : UInt8}
    (h : dataAt cells k = some b) : dataAt (cells ++ more) k = some b := by
  obtain ⟨cell, hcell, hb⟩ := Option.bind_eq_some_iff.mp h
  obtain ⟨hlt, -⟩ := List.getElem?_eq_some_iff.mp hcell
  unfold dataAt
  rw [List.getElem?_append_left hlt, hcell]
  exact hb

theorem lt_length_of_dataAt {cells : List Cell} {k : Nat} {b : UInt8}
    (h : dataAt cells k = some b) : k + 1 < cells.length := by
  obtain ⟨cell, hcell, -⟩ := Option.bind_eq_some_iff.mp h
  exact (List.getElem?_eq_some_iff.mp hcell).1

/-- The SYN is the first item and no other. -/
theorem eq_zero_of_getElem?_syn {bytes : List UInt8} {finAt : Option Nat} {x : Nat}
    (h : (encodeAt bytes finAt)[x]? = some .syn) : x = 0 := by
  have hbytes : ∀ l : List UInt8, Cell.syn ∉ l.map .byte := by simp
  cases x with
  | zero => rfl
  | succ x =>
      cases finAt with
      | none =>
          rw [encodeAt, List.getElem?_cons_succ] at h
          exact absurd (List.mem_of_getElem? h) (hbytes bytes)
      | some n =>
          rw [encodeAt, List.getElem?_cons_succ] at h
          rcases List.mem_append.mp (List.mem_of_getElem? h) with hmem | hmem
          · exact absurd hmem (hbytes _)
          · exact absurd ((List.mem_cons.mp hmem).resolve_left (by simp)) (hbytes _)

/-- The FIN stands where it was put and nowhere else. -/
theorem finAt_of_getElem?_fin {bytes : List UInt8} {finAt : Option Nat}
    (hle : ∀ n, finAt = some n → n ≤ bytes.length) {x : Nat}
    (h : (encodeAt bytes finAt)[x + 1]? = some .fin) : finAt = some x := by
  have hbytes : ∀ l : List UInt8, Cell.fin ∉ l.map .byte := by simp
  cases finAt with
  | none =>
      rw [encodeAt, List.getElem?_cons_succ] at h
      exact absurd (List.mem_of_getElem? h) (hbytes bytes)
  | some n =>
      have hlen : ((bytes.take n).map Cell.byte).length = n := by simp [hle n rfl]
      simp only [encodeAt, List.getElem?_cons_succ] at h
      rcases Nat.lt_trichotomy x n with hlt | rfl | hgt
      · rw [List.getElem?_append_left (by omega)] at h
        exact absurd (List.mem_of_getElem? h) (hbytes _)
      · rfl
      · obtain ⟨m, hm⟩ : ∃ m, x - n = m + 1 := ⟨x - n - 1, by omega⟩
        rw [List.getElem?_append_right (by omega), hlen, hm, List.getElem?_cons_succ] at h
        exact absurd (List.mem_of_getElem? h) (hbytes _)

/-- What a reader finds from index 0 on are bytes of the stream, and it does not get
    beyond the FIN. -/
theorem prefix_of_dataAt {bytes found : List UInt8} {finAt : Option Nat}
    (hle : ∀ n, finAt = some n → n ≤ bytes.length)
    (h : ∀ j, j < found.length → dataAt (encodeAt bytes finAt) j = found[j]?) :
    found <+: bytes ∧ ∀ n, finAt = some n → found.length ≤ n := by
  have hfin : ∀ n, finAt = some n → found.length ≤ n := by
    rintro n rfl
    by_contra hgt
    have hlen : ((bytes.take n).map Cell.byte).length = n := by simp [hle n rfl]
    have hn := h n (by omega)
    rw [List.getElem?_eq_getElem (by omega)] at hn
    simp only [dataAt, encodeAt, List.getElem?_cons_succ] at hn
    rw [List.getElem?_append_right (by omega), hlen] at hn
    simp [Cell.data] at hn
  refine ⟨List.prefix_iff_getElem?.mpr fun j hj => ?_, hfin⟩
  have hb := h j hj
  rw [List.getElem?_eq_getElem hj] at hb
  rw [← hb]
  unfold dataAt
  cases finAt with
  | none =>
      simp only [encodeAt, List.getElem?_cons_succ, List.getElem?_map]
      cases bytes[j]? <;> rfl
  | some n =>
      have hn := hle n rfl
      have hjn := hfin n rfl
      have hlen : ((bytes.take n).map Cell.byte).length = n := by simp [hn]
      simp only [encodeAt, List.getElem?_cons_succ]
      rw [List.getElem?_append_left (by omega), List.getElem?_map,
        List.getElem?_take_of_lt (by omega)]
      cases bytes[j]? <;> rfl

namespace SenderTrace

/-- A segment that was sent for the first time is the SYN alone, or has its payload
    at a place of the stream, and the FIN only at the end. -/
theorem WireInv.firstTime_cases {finAt : Option Nat} {t : SenderTrace} (h : t.WireInv finAt)
    {seg : TCPSegment} (hseg : seg ∈ t.firstTime) :
    (seg.header.syn = true ∧ seg.payload = [] ∧ seg.header.fin = false ∧
      seg.header.seqno = t.sender.isn) ∨
    (seg.header.syn = false ∧ ∃ i, seg.header.seqno = wrap (i + 1) t.sender.isn ∧
      i + 1 + seg.lengthInSequenceSpace ≤ t.sender.nextSeqnoAbsolute ∧
      Agrees (dataAt (wire t.firstTime)) ⟨i, seg.payload⟩ ∧
      (seg.header.fin = true → finAt = some (i + seg.payload.length))) := by
  have hpos := h.segments.pos seg hseg
  obtain ⟨x, -, hxle, hseqno, hcells⟩ := h.segments.tiles.of_mem hseg
  rw [Nat.sub_zero] at hcells
  have hwire := h.wire_eq (by omega)
  -- the items of the segment are those of the wire from `x` on
  have hitem : ∀ j, j < seg.lengthInSequenceSpace → (wire t.firstTime)[x + j]? = seg.cells[j]? := by
    intro j hj
    rw [hcells, List.getElem?_take_of_lt hj, List.getElem?_drop]
  by_cases hsyn : seg.header.syn = true
  · obtain ⟨hpay, hfin⟩ := h.segments.syn_bare seg hseg hsyn
    have hx := hitem 0 hpos
    rw [hwire] at hx
    have hx0 : x + 0 = 0 := eq_zero_of_getElem?_syn (by rw [hx]; simp [TCPSegment.cells, hsyn])
    obtain rfl : x = 0 := hx0
    exact Or.inl ⟨hsyn, hpay, hfin, hseqno.trans (wrap_zero _)⟩
  · rw [Bool.not_eq_true] at hsyn
    have hparts := TCPSegment.cells_of_not_syn hsyn
    have hlen := TCPSegment.length_of_not_syn hsyn
    -- position 0 is taken by the SYN
    obtain ⟨i, rfl⟩ : ∃ i, x = i + 1 := by
      refine Nat.exists_eq_add_one_of_ne_zero fun h0 => ?_
      have hx := hitem 0 hpos
      rw [hwire, h0, hparts] at hx
      have hmem := List.mem_of_getElem? (hx.symm.trans (show _ = some Cell.syn by
        cases finAt <;> rfl))
      split at hmem <;> simp at hmem
    refine Or.inr ⟨hsyn, i, hseqno, by omega, ?_, ?_⟩
    · intro j hj
      have hj' : j < seg.payload.length := hj
      show dataAt (wire t.firstTime) (i + j) = seg.payload[j]?
      have hx := hitem j (by omega)
      rw [hparts, List.getElem?_append_left (by simpa using hj')] at hx
      rw [dataAt, Nat.add_right_comm, hx, List.getElem?_map]
      cases seg.payload[j]? <;> rfl
    · intro hfin
      rw [if_pos hfin] at hlen
      have hx := hitem seg.payload.length (by omega)
      rw [hwire, hparts, if_pos hfin, List.getElem?_append_right (by simp)] at hx
      refine finAt_of_getElem?_fin h.finAt_le_length ?_
      rw [Nat.add_right_comm, hx]
      simp

/-- What the sender has sent is a prefix of what it will have sent. -/
theorem firstTime_prefix_after (t : SenderTrace) (op : TCPSender.Op) :
    t.firstTime <+: (t.after op).firstTime := by
  obtain ⟨segs, -, heq⟩ := t.after_eq_sent op
  rw [heq]
  show t.firstTime <+: (t.direct op).firstTime ++ segs
  rw [direct_firstTime]
  exact List.prefix_append ..

-- ============================================================================
-- Genuine segments
-- ============================================================================

/-- The segment carries nothing, or what a segment of the sender carries. -/
def Genuine (t : SenderTrace) (seg : TCPSegment) : Prop :=
  seg.lengthInSequenceSpace = 0 ∨ ∃ seg₀ ∈ t.firstTime, seg.header.seqno = seg₀.header.seqno ∧
    seg.header.syn = seg₀.header.syn ∧ seg.header.fin = seg₀.header.fin ∧
    seg.payload = seg₀.payload

theorem Genuine.mono {t t' : SenderTrace} (h : t.firstTime <+: t'.firstTime) {seg : TCPSegment}
    (hseg : t.Genuine seg) : t'.Genuine seg := by
  rcases hseg with hlen | ⟨seg₀, hmem, hsame⟩
  · exact Or.inl hlen
  · exact Or.inr ⟨seg₀, h.subset hmem, hsame⟩

theorem genuine_rst (t : SenderTrace) : t.Genuine TCPConnection.rstSegment := Or.inl rfl

theorem SegmentsInv.genuine_stamp {t : SenderTrace} (h : t.SegmentsInv) {seg : TCPSegment}
    (hseg : seg ∈ t.pushed) (receiver : TCPReceiver) :
    t.Genuine (TCPConnection.stamp receiver seg) := by
  have hstamp := TCPConnection.stamp_frame seg receiver
  rcases Replays.mem_cases h.replays hseg with hmem | ⟨n, -, rfl⟩
  · exact Or.inr ⟨seg, hmem, hstamp⟩
  · refine Or.inl (TCPSegment.lengthInSequenceSpace_eq_zero.mpr ?_)
    exact ⟨hstamp.2.2.2, hstamp.2.1, hstamp.2.2.1⟩

-- ============================================================================
-- What a receiver has put together
-- ============================================================================

/-- The receiver knows the sender's initial sequence number, and everything it has
    written or stored is what the sender sent; `taken` was read by the application. -/
structure Receives (t : SenderTrace) (r : TCPReceiver) (taken : List UInt8) : Prop where
  inv : r.reassembler.Inv
  isn_eq : r.synRecv = true → r.isn = t.sender.isn.rawValue
  content : Content (dataAt (wire t.firstTime)) taken r.reassembler

theorem receives_new (t : SenderTrace) (endNode : List ByteString → Nat) (capacity : UInt64) :
    t.Receives (.new endNode capacity) [] where
  inv := StreamReassembler.inv_new endNode capacity
  isn_eq := fun h => nomatch h
  content := StreamReassembler.content_new _ endNode capacity

theorem Receives.mono {t t' : SenderTrace} {r : TCPReceiver} {taken : List UInt8}
    (h : t.Receives r taken) (hisn : t'.sender.isn = t.sender.isn)
    (hpre : t.firstTime <+: t'.firstTime) : t'.Receives r taken where
  inv := h.inv
  isn_eq := by
    rw [hisn]
    exact h.isn_eq
  content := by
    obtain ⟨segs, hsegs⟩ := hpre
    refine h.content.mono fun k b hk => ?_
    rw [← hsegs, wire_append]
    exact dataAt_append _ hk

/-- The receiver has not written more than was sent. -/
theorem Receives.index_le {finAt : Option Nat} {t : SenderTrace} {r : TCPReceiver}
    {taken : List UInt8} (h : t.Receives r taken) (hw : t.WireInv finAt) :
    r.reassembler.index ≤ t.sender.nextSeqnoAbsolute := by
  have hlen := h.content.length_eq
  have hwire := hw.segments.tiles.wire_length
  rcases Nat.eq_zero_or_pos r.reassembler.index with h0 | hpos
  · omega
  · have hlast := h.content.written (r.reassembler.index - 1) (by omega)
    rw [List.getElem?_eq_getElem (by omega)] at hlast
    have hlt := lt_length_of_dataAt hlast
    omega

/-- A sequence number of the sender is unwrapped to the stream index it stands for. -/
theorem Receives.payloadIndex_eq {finAt : Option Nat} {t : SenderTrace} {r : TCPReceiver}
    {taken : List UInt8} (h : t.Receives r taken) (hw : t.WireInv finAt)
    (hnext : t.sender.nextSeqnoAbsolute < 2 ^ 31) (hrecv : r.synRecv = true) {seg : TCPSegment}
    {i : Nat} (hi : i < t.sender.nextSeqnoAbsolute)
    (hseqno : seg.header.seqno = wrap (i + 1) t.sender.isn) : r.payloadIndex seg = i := by
  have hbw : r.streamOut.bytesWritten ≤ t.sender.nextSeqnoAbsolute := by
    have hidx := h.index_le hw
    rw [← h.inv.written] at hidx
    exact hidx
  have hck : (UInt64.ofNat r.streamOut.bytesWritten).toNat = r.streamOut.bytesWritten := by
    rw [UInt64.toNat_ofNat', Nat.mod_eq_of_lt (by omega)]
  -- the stream starts one after the initial sequence number
  have hstart : (⟨r.isn + 1⟩ : WrappingInt32) = wrap 1 t.sender.isn := by
    rw [h.isn_eq hrecv]
    rfl
  have hraw : (⟨seg.header.seqno.rawValue⟩ : WrappingInt32) = wrap i (wrap 1 t.sender.isn) := by
    rw [wrap_wrap, Nat.add_comm 1 i, ← hseqno]
  unfold TCPReceiver.payloadIndex TCPReceiver.synced
  rw [if_pos hrecv, if_pos hrecv]
  unfold TCPReceiver.unwrappedIndex
  rw [hstart, hraw]
  exact unwrap_wrap (by omega) (by omega) (by omega)

/-- What a genuine segment pushes to the reassembler: nothing, or its payload at the
    index where it belongs. -/
theorem Receives.pushed_cases {finAt : Option Nat} {t : SenderTrace} {r : TCPReceiver}
    {taken : List UInt8} (h : t.Receives r taken) (hw : t.WireInv finAt)
    (hnext : t.sender.nextSeqnoAbsolute < 2 ^ 31) {seg : TCPSegment} (hseg : t.Genuine seg)
    (hr : r.synRecv = true ∨ seg.header.syn = true) :
    (seg.payload = [] ∧ seg.header.fin = false) ∨
    (r.synRecv = true ∧ r.payloadIndex seg + 1 + seg.lengthInSequenceSpace ≤
        t.sender.nextSeqnoAbsolute ∧
      Agrees (dataAt (wire t.firstTime)) ⟨r.payloadIndex seg, seg.payload⟩ ∧
      (seg.header.fin = true → finAt = some (r.payloadIndex seg + seg.payload.length))) := by
  rcases hseg with hlen | ⟨seg₀, hmem, hseqno, hsyn, hfin, hpay⟩
  · obtain ⟨hpay, -, hfin⟩ := TCPSegment.lengthInSequenceSpace_eq_zero.mp hlen
    exact Or.inl ⟨hpay, hfin⟩
  · have hlen := TCPSegment.lengthInSequenceSpace_congr hsyn hfin hpay
    rcases hw.firstTime_cases hmem with ⟨-, hpay₀, hfin₀, -⟩ | ⟨hsyn₀, i, hi, hle, hagree, hlast⟩
    · exact Or.inl ⟨hpay.trans hpay₀, hfin.trans hfin₀⟩
    · have hrecv : r.synRecv = true := hr.resolve_right (by simp [hsyn, hsyn₀])
      have hidx := h.payloadIndex_eq hw hnext hrecv (by omega) (hseqno.trans hi)
      rw [hidx, hlen, hfin, hpay]
      exact Or.inr ⟨hrecv, hle, hagree, hlast⟩

/-- A genuine segment keeps what the receiver has put together genuine. -/
theorem Receives.segmentReceived {finAt : Option Nat} {t : SenderTrace} {r r' : TCPReceiver}
    {taken : List UInt8} (h : t.Receives r taken) (hw : t.WireInv finAt)
    (hnext : t.sender.nextSeqnoAbsolute < 2 ^ 31) {seg : TCPSegment} (hseg : t.Genuine seg)
    (hr : r.segmentReceived seg = some r') : t.Receives r' taken := by
  obtain ⟨-, -, rfl⟩ | ⟨hpushed, reassembler, hpush, rfl⟩ := TCPReceiver.segmentReceived_cases hr
  · exact h
  · refine ⟨h.inv.pushSubstring hpush, fun _ => ?_, ?_⟩
    · -- the SYN carries the initial sequence number
      unfold TCPReceiver.synced
      split
      · rename_i hrecv
        exact h.isn_eq hrecv
      · rename_i hrecv
        have hsyn := hpushed.resolve_left hrecv
        rcases hseg with hlen | ⟨seg₀, hmem, hseqno, hsyn', -, -⟩
        · have hno := (TCPSegment.lengthInSequenceSpace_eq_zero.mp hlen).2.1
          rw [hno] at hsyn
          cases hsyn
        · rcases hw.firstTime_cases hmem with ⟨-, -, -, hisn⟩ | ⟨hno, -⟩
          · show seg.header.seqno.rawValue = _
            rw [hseqno, hisn]
          · rw [hsyn', hno] at hsyn
            cases hsyn
    · refine h.content.pushSubstring ?_ hpush
      rcases h.pushed_cases hw hnext hseg hpushed with ⟨hpay, -⟩ | ⟨-, -, hagree, -⟩
      · intro j hj
        rw [hpay] at hj
        cases hj
      · exact hagree

end SenderTrace

/-- A step of the receiving connection in which only genuine segments come in. -/
theorem SenderTrace.Receives.step {finAt : Option Nat} {t : SenderTrace} {c : TCPConnection}
    {taken : List UInt8} (h : t.Receives c.receiver taken) (hw : t.WireInv finAt)
    (hnext : t.sender.nextSeqnoAbsolute < 2 ^ 31) {op : TCPConnection.Op} {r : TCPReceiver}
    (hop : ∀ seg, op = .segmentReceived seg → t.Genuine seg) (hr : c.ReceiverStep op r) :
    t.Receives r (taken ++ c.deliveredBy op) := by
  cases hr with
  | same hnone =>
      rw [hnone, List.append_nil]
      exact h
  | setError hnone =>
      rw [hnone, List.append_nil]
      exact ⟨h.inv.setError, h.isn_eq,
        ⟨h.content.length_eq, h.content.written, h.content.pending⟩⟩
  | read len =>
      exact ⟨h.inv.read len, h.isn_eq, h.content.take rfl rfl (ByteStream.read_append _ len)⟩
  | popOutput len =>
      exact ⟨h.inv.popOutput len, h.isn_eq,
        h.content.take rfl rfl (ByteStream.peekOutput_append _ len)⟩
  | @receive seg _ hp hrst hs =>
      rw [show c.deliveredBy (.segmentReceived seg) = [] from rfl, List.append_nil]
      exact h.segmentReceived hw hnext (hop seg rfl) hs

end Sponge
