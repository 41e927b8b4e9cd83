/-
  Sponge.Network.Completeness

  What an acknowledgement and the end of a stream are worth.

  `set_eof` ends the output as soon as the announced end is at most one byte ahead.
  A FIN that arrives while the last byte is missing therefore ends the stream one
  byte short, and the acknowledgement that answers it covers the missing byte
  (`completes_fails`).  As long as this does not happen, a sender only releases
  bytes that the receiver has assembled, and a stream that has ended is complete
  (`completes_of_endCarried`).
-/

import Mathlib.Data.List.TakeWhile
import Sponge.Network.Basic
import Sponge.TcpSender.Outstanding

namespace Sponge

open Lib (Run Guarded)

-- ============================================================================
-- What the receiver acknowledges
-- ============================================================================

/-- Number of items of the sequence space that the receiver acknowledges. -/
def TCPReceiver.acknowledged (r : TCPReceiver) : Nat :=
  if r.synRecv then 1 + r.streamOut.bytesWritten + (if r.streamOut.inputEnded then 1 else 0)
  else 0

theorem TCPReceiver.ackno_eq_wrap {r : TCPReceiver} {ackno : WrappingInt32}
    (h : r.ackno = some ackno) : r.synRecv = true ∧ ackno = wrap r.acknowledged ⟨r.isn⟩ := by
  rw [r.ackno_eq] at h
  split at h
  · rename_i hrecv
    refine ⟨hrecv, ?_⟩
    rw [acknowledged, if_pos hrecv]
    exact (Option.some.inj h).symm
  · cases h

theorem TCPConnection.ReceiverStep.acknowledged_le {c : TCPConnection} {op : TCPConnection.Op}
    {r : TCPReceiver} (h : c.ReceiverStep op r) : c.receiver.acknowledged ≤ r.acknowledged := by
  obtain ⟨-, hended, hbytes, hsyn⟩ := h.keeps
  unfold TCPReceiver.acknowledged
  by_cases hrecv : c.receiver.synRecv = true
  · rw [if_pos hrecv, if_pos (hsyn hrecv)]
    by_cases hend : c.receiver.streamOut.inputEnded = true
    · rw [if_pos hend, if_pos (hended hend)]
      omega
    · rw [if_neg hend]
      omega
  · rw [if_neg hrecv]
    exact Nat.zero_le _

namespace SenderTrace

open TCPSender

-- ============================================================================
-- What the sender releases
-- ============================================================================

/-- Every position that was sent is in an outstanding segment or below `k`. -/
def Covered (t : SenderTrace) (k : Nat) : Prop :=
  ∀ p, p < t.sender.nextSeqnoAbsolute → p < k ∨
    ∃ seg ∈ t.sender.outstandingSegments, ∃ x, seg.header.seqno = wrap x t.sender.isn ∧
      x ≤ p ∧ p < x + seg.lengthInSequenceSpace ∧
      x + seg.lengthInSequenceSpace ≤ t.sender.nextSeqnoAbsolute

theorem Covered.mono {t : SenderTrace} {k k' : Nat} (h : t.Covered k) (hle : k ≤ k') :
    t.Covered k' := by
  intro p hp
  rcases h p hp with hlt | hcov
  · exact Or.inl (Nat.lt_of_lt_of_le hlt hle)
  · exact Or.inr hcov

/-- An acknowledgement that is accepted releases only what lies below it, also when
    the raw sequence numbers wrap in between. -/
theorem le_of_isAcknowledged {s : TCPSender} {seg : TCPSegment} {x k : Nat}
    (hnext : s.nextSeqnoAbsolute < 2 ^ 31) (hk : k < 2 ^ 32)
    (hpos : 0 < seg.lengthInSequenceSpace) (hseqno : seg.header.seqno = wrap x s.isn)
    (hx : x + seg.lengthInSequenceSpace ≤ s.nextSeqnoAbsolute) (hacc : s.Accepts (wrap k s.isn))
    (hack : isAcknowledged (wrap k s.isn) seg = true) : x + seg.lengthInSequenceSpace ≤ k := by
  have hle := ((s.accepts_iff _).mp hacc).1
  have hraw := (isAcknowledged_iff hpos).mp hack
  have hlt := s.isn.rawValue.toNat_lt
  rw [TCPSegment.rawStart, hseqno, wrap_toNat, wrap_toNat] at hraw
  rw [nextSeqno, wrap_toNat, wrap_toNat] at hle
  omega

theorem Covered.direct {t : SenderTrace} {k : Nat} (h : t.Covered k) {op : Op}
    (hnext : t.sender.nextSeqnoAbsolute < 2 ^ 31)
    (hop : ∀ ackno w, op = .ackReceived ackno w →
      ∃ j, j ≤ k ∧ j < 2 ^ 32 ∧ ackno = wrap j t.sender.isn) : (t.direct op).Covered k := by
  intro p hp
  rw [direct_nextSeqnoAbsolute] at hp ⊢
  rw [direct_isn]
  rcases h p hp with hlt | ⟨seg, hseg, x, hseqno, hxp, hpx, hx⟩
  · exact Or.inl hlt
  by_cases hw : ∃ ackno w, op = .ackReceived ackno w
  · obtain ⟨ackno, w, rfl⟩ := hw
    by_cases hacc : t.sender.Accepts ackno
    · rw [direct_ackReceived t hacc]
      simp only [acknowledge_outstandingSegments]
      rw [← List.takeWhile_append_dropWhile (p := isAcknowledged ackno)
        (l := t.sender.outstandingSegments)] at hseg
      rcases List.mem_append.mp hseg with hrel | hkeep
      · -- the segment is released
        obtain ⟨j, hjk, hj, rfl⟩ := hop ackno w rfl
        have hpos := t.sender.outstanding_pos seg (List.takeWhile_subset _ hrel)
        have hend := le_of_isAcknowledged hnext hj hpos hseqno hx hacc
          (List.mem_takeWhile_imp hrel)
        exact Or.inl (by omega)
      · exact Or.inr ⟨seg, hkeep, x, hseqno, hxp, hpx, hx⟩
    · rw [direct_ackReceived_of_not t hacc]
      exact Or.inr ⟨seg, hseg, x, hseqno, hxp, hpx, hx⟩
  · push Not at hw
    rw [(t.direct_window hw).2.1]
    exact Or.inr ⟨seg, hseg, x, hseqno, hxp, hpx, hx⟩

theorem Covered.emit {t : SenderTrace} {k : Nat} (h : t.Covered k) {seg : TCPSegment}
    {s : TCPSender} (he : Emit t.sender seg s) : (t.sent [seg] s).Covered k := by
  obtain ⟨hf⟩ := he
  intro p hp
  simp only [sent, afterSend_nextSeqnoAbsolute, afterSend_outstandingSegments, afterSend_isn]
    at hp ⊢
  by_cases hold : p < t.sender.nextSeqnoAbsolute
  · rcases h p hold with hlt | ⟨y, hy, x, hseqno, hxp, hpx, hx⟩
    · exact Or.inl hlt
    · exact Or.inr ⟨y, mem_insertOutstanding.mpr (Or.inr hy), x, hseqno, hxp, hpx, by omega⟩
  · exact Or.inr ⟨seg, mem_insertOutstanding.mpr (Or.inl rfl), t.sender.nextSeqnoAbsolute,
      hf.seqno_eq, by omega, hp, Nat.le_refl _⟩

-- ============================================================================
-- The end of the stream
-- ============================================================================

/-- The last item of the wire is the FIN, if it was sent: every byte lies before the
    end of what was read. -/
theorem WireInv.lt_bytesRead {finAt : Option Nat} {t : SenderTrace} (hw : t.WireInv finAt)
    (hl : t.FinLast finAt) {k : Nat} {b : UInt8}
    (h : dataAt (wire t.firstTime) k = some b) : k < t.sender.stream.bytesRead := by
  have hlt := lt_length_of_dataAt h
  have hlen := hw.segments.tiles.wire_length
  have hpos : 0 < t.sender.nextSeqnoAbsolute := by omega
  have hnext := hw.next_eq hpos
  have htake := List.length_take_of_le hw.stream.read_le
  rw [hw.finSent_eq] at hnext
  cases finAt with
  | none =>
      rw [Option.isSome_none, if_neg (by decide)] at hnext
      omega
  | some n =>
      obtain ⟨-, hn, hread⟩ := hl n rfl
      rw [Option.isSome_some, if_pos rfl] at hnext
      by_contra hge
      -- the only place left is that of the FIN
      obtain rfl : k = n := by omega
      rw [hw.wire_eq hpos, dataAt, encodeAt, List.getElem?_cons_succ,
        List.getElem?_append_right (by simp)] at h
      simp [hn, hread, Cell.data] at h

/-- The numbers given out count the bytes read. -/
theorem WireInv.bytesRead_le {finAt : Option Nat} {t : SenderTrace} (hw : t.WireInv finAt) :
    t.sender.stream.bytesRead ≤ t.sender.nextSeqnoAbsolute := by
  by_cases hzero : t.sender.nextSeqnoAbsolute = 0
  · rw [(hw.start hzero).1]
    exact Nat.zero_le _
  · have hnext := hw.next_eq (Nat.pos_of_ne_zero hzero)
    omega

/-- What the reassembler knows about the end is right: the stream ends after what the
    sender has read of it, and only once the FIN was sent. -/
structure Ending (t : SenderTrace) (r : StreamReassembler) : Prop where
  within : r.Within t.sender.stream.bytesRead
  endedAt : r.EndedAt t.sender.stream.bytesRead
  eof_sent : r.eofSet = true → t.sender.finSent = true

/-- The sender goes on: once the end is known, nothing is read any more. -/
theorem Ending.sender {t t' : SenderTrace} {r : StreamReassembler} (h : t.Ending r)
    (hread : t.sender.stream.bytesRead ≤ t'.sender.stream.bytesRead)
    (hfin : t.sender.finSent = true → t'.sender.finSent = true ∧
      t'.sender.stream.bytesRead = t.sender.stream.bytesRead) : t'.Ending r := by
  by_cases hset : r.eofSet = true
  · obtain ⟨hfin', heq⟩ := hfin (h.eof_sent hset)
    exact ⟨heq ▸ h.within, heq ▸ h.endedAt, fun _ => hfin'⟩
  · rw [Bool.not_eq_true] at hset
    refine ⟨h.within.mono hread hset, ?_, fun hs => by simp [hset] at hs⟩
    have hended := h.endedAt
    unfold StreamReassembler.EndedAt at hended ⊢
    rw [hended, hset]
    simp

/-- A piece of the stream lies within what the sender has read of it, and a FIN announces
    the end of that. -/
theorem WireInv.ends_of_agrees {finAt : Option Nat} {t : SenderTrace} (hw : t.WireInv finAt)
    (hl : t.FinLast finAt) (hnext : t.sender.nextSeqnoAbsolute < 2 ^ 31) {data : List UInt8}
    {index : Nat} {fin : Bool} (hsome : ¬ (data = [] ∧ fin = false))
    (hagree : ByteString.Agrees (dataAt (wire t.firstTime)) ⟨index, data⟩)
    (hfin : fin = true → finAt = some (index + data.length)) :
    StreamReassembler.Ends t.sender.stream.bytesRead (.push data index fin) := by
  have hend : fin = true → index + data.length = t.sender.stream.bytesRead := by
    intro hf
    have := hl _ (hfin hf)
    omega
  have hfit : index + data.length ≤ t.sender.stream.bytesRead := by
    by_cases hf : fin = true
    · exact Nat.le_of_eq (hend hf)
    · have hpos : 0 < data.length := by
        rw [List.length_pos_iff]
        exact fun hnil => hsome ⟨hnil, by simpa using hf⟩
      have hlast := hagree (data.length - 1) (Nat.sub_one_lt_of_lt hpos)
      rw [List.getElem?_eq_getElem (Nat.sub_one_lt_of_lt hpos)] at hlast
      have hlt := hw.lt_bytesRead hl hlast
      simp only at hlt
      omega
  have hread := hw.bytesRead_le
  exact ⟨⟨hfit, by omega⟩, hend⟩

/-- A genuine segment comes in, and an end that is announced one byte early comes
    with that byte. -/
theorem Ending.segmentReceived {finAt : Option Nat} {t : SenderTrace} {r r' : TCPReceiver}
    {taken : List UInt8} (h : t.Ending r.reassembler) (hrec : t.Receives r taken)
    (hw : t.WireInv finAt) (hl : t.FinLast finAt) (hnext : t.sender.nextSeqnoAbsolute < 2 ^ 31)
    {seg : TCPSegment} (hseg : t.Genuine seg)
    (hok : r.synRecv = true → r.reassembler.CarriesLast
      (.push seg.payload (r.payloadIndex seg) seg.header.fin))
    (hr : r.segmentReceived seg = some r') : t.Ending r'.reassembler := by
  obtain ⟨-, -, rfl⟩ | ⟨hpushed, reassembler, hpush, rfl⟩ := TCPReceiver.segmentReceived_cases hr
  · exact h
  · show t.Ending reassembler
    by_cases hempty : seg.payload = [] ∧ seg.header.fin = false
    · -- nothing is pushed
      rw [hempty.1, hempty.2] at hpush
      have hsame : r.reassembler.pushData [] (r.payloadIndex seg) = reassembler :=
        Option.some.inj hpush
      rwa [← hsame, StreamReassembler.pushData_nil]
    · obtain ⟨hrecv, -, hagree, hfin⟩ :=
        (hrec.pushed_cases hw hnext hseg hpushed).resolve_left hempty
      have hends := hw.ends_of_agrees hl hnext hempty hagree hfin
      have hstep : r.reassembler.step
          (.push seg.payload (r.payloadIndex seg) seg.header.fin) = some reassembler := hpush
      refine ⟨h.within.step hends hstep, h.endedAt.step h.within hends (hok hrecv) hstep, ?_⟩
      intro hset
      rcases (StreamReassembler.eofSet_step hstep).mp hset with hold | ⟨data, index, hop⟩
      · exact h.eof_sent hold
      · have hf : seg.header.fin = true := by
          injection hop
        rw [hw.finSent_eq, hfin hf]
        rfl

/-- What is read from the output, and its error flag, do not matter. -/
theorem Ending.congr {t : SenderTrace} {r r' : StreamReassembler} (h : t.Ending r) (hinv : r'.Inv)
    (hidx : r'.index = r.index) (hun : r'.unassembled = r.unassembled) (heof : r'.eof = r.eof)
    (hset : r'.eofSet = r.eofSet) (hend : r'.output.inputEnded = r.output.inputEnded) :
    t.Ending r' := by
  refine ⟨⟨hinv, ?_, ?_, ?_⟩, ?_, ?_⟩
  · rw [hidx]
    exact h.within.index_le
  · unfold StreamReassembler.spans
    rw [hun]
    exact h.within.spans_le
  · rw [hset, heof]
    exact h.within.eof_eq
  · unfold StreamReassembler.EndedAt
    rw [hend, hset, hidx]
    exact h.endedAt
  · rw [hset]
    exact h.eof_sent

/-- A step of the receiving connection. -/
theorem Ending.step {finAt : Option Nat} {t : SenderTrace} {c : TCPConnection}
    {taken : List UInt8} (h : t.Ending c.receiver.reassembler)
    (hrec : t.Receives c.receiver taken) (hw : t.WireInv finAt) (hl : t.FinLast finAt)
    (hnext : t.sender.nextSeqnoAbsolute < 2 ^ 31) {op : TCPConnection.Op} {r : TCPReceiver}
    (hop : ∀ seg, op = .segmentReceived seg → t.Genuine seg)
    (hok : ∀ seg, op = .segmentReceived seg → c.Processes seg → seg.header.rst = false →
      c.receiver.synRecv = true → c.receiver.reassembler.CarriesLast
        (.push seg.payload (c.receiver.payloadIndex seg) seg.header.fin))
    (hr : c.ReceiverStep op r) : t.Ending r.reassembler := by
  cases hr with
  | same hnone => exact h
  | setError hnone => exact h.congr h.within.inv.setError rfl rfl rfl rfl rfl
  | read len => exact h.congr (h.within.inv.read len) rfl rfl rfl rfl rfl
  | popOutput len => exact h.congr (h.within.inv.popOutput len) rfl rfl rfl rfl rfl
  | @receive seg _ hp hrst hs =>
      exact h.segmentReceived hrec hw hl hnext (hop seg rfl) (hok seg rfl hp hrst) hs

theorem ackno_of_stamp {r : TCPReceiver} {seg : TCPSegment} (h : seg.header.ack = false)
    (hack : (TCPConnection.stamp r seg).header.ack = true) :
    r.ackno = some (TCPConnection.stamp r seg).header.ackno := by
  unfold TCPConnection.stamp at hack ⊢
  split
  · assumption
  · rename_i hnone
    rw [hnone] at hack
    rw [show seg.header.ack = true from hack] at h
    cases h

end SenderTrace

namespace World

open TCPSender (Emit)

-- ============================================================================
-- Both sides
-- ============================================================================

/-- Nothing is accepted from an application that has ended its stream. -/
def NoWriteAfterEnd (w : World) : Event → Prop
  | ⟨x, .write data⟩ =>
      (w.conn x).sender.stream.inputEnded = true → ((w.conn x).write data).1 = 0
  | _ => True

instance (w : World) : ∀ e, Decidable (w.NoWriteAfterEnd e)
  | ⟨_, .write _⟩ => inferInstanceAs (Decidable (_ → _))
  | ⟨_, .connect⟩ | ⟨_, .segmentReceived _⟩ | ⟨_, .endInputStream⟩ | ⟨_, .read _⟩
  | ⟨_, .popOutput _⟩ | ⟨_, .tick _⟩ | ⟨_, .dequeue⟩ => isTrue trivial

/-- A FIN that side `y` takes in while it lacks one byte brings this byte, and there
    is room for it. -/
def EndCarried (y : Side) (w : World) : Event → Prop
  | ⟨x, .segmentReceived seg⟩ =>
      x = y → (w.conn x).Processes seg → seg.header.rst = false →
      (w.conn x).receiver.synRecv = true →
      (w.conn x).receiver.reassembler.CarriesLast
        (.push seg.payload ((w.conn x).receiver.payloadIndex seg) seg.header.fin)
  | _ => True

instance (y : Side) (w : World) : ∀ e, Decidable (EndCarried y w e)
  | ⟨_, .segmentReceived _⟩ => inferInstanceAs (Decidable (_ → _ → _ → _ → _))
  | ⟨_, .connect⟩ | ⟨_, .write _⟩ | ⟨_, .endInputStream⟩ | ⟨_, .read _⟩ | ⟨_, .popOutput _⟩
  | ⟨_, .tick _⟩ | ⟨_, .dequeue⟩ => isTrue trivial

/-- What the network and the applications may do. -/
def Allowed (w : World) (e : Event) : Prop := w.FromNetwork e ∧ w.NoWriteAfterEnd e

instance (w : World) (e : Event) : Decidable (w.Allowed e) := inferInstanceAs (Decidable (_ ∧ _))

/-- The stream from `x`, with what the other side has acknowledged of it. -/
structure Accountable (w : World) (x : Side) (finAt : Option Nat) (t : SenderTrace) : Prop where
  flow : w.Flow x finAt t
  finLast : t.FinLast finAt
  ending : t.Ending (w.conn x.other).receiver.reassembler
  acks : ∀ seg, seg ∈ (w.conn x.other).segmentsOut ∨ seg ∈ w.net x.other →
    seg.header.ack = true → ∃ k, k ≤ (w.conn x.other).receiver.acknowledged ∧
      seg.header.ackno = wrap k t.sender.isn
  covered : t.Covered (w.conn x.other).receiver.acknowledged

theorem accountable_new (endNode : Side → List ByteString → Nat) (cfg : Side → TCPConfig)
    (isn : Side → WrappingInt32) (x : Side) :
    (new endNode cfg isn).Accountable x none
      (.new (cfg x).sendCapacity (cfg x).rtTimeout ((cfg x).fixedIsn.getD (isn x))) where
  flow := flow_new endNode cfg isn x
  finLast := by simp [SenderTrace.FinLast]
  ending := ⟨StreamReassembler.within_new .., StreamReassembler.endedAt_new .., fun h => nomatch h⟩
  acks := by simp [new, TCPConnection.new]
  covered := fun p hp => absurd hp (Nat.not_lt_zero p)

/-- Only what was sent is acknowledged. -/
theorem Flow.acknowledged_lt {w : World} {x : Side} {finAt : Option Nat} {t : SenderTrace}
    (h : w.Flow x finAt t) (hnext : t.sender.nextSeqnoAbsolute < 2 ^ 31) :
    (w.conn x.other).receiver.acknowledged < 2 ^ 32 := by
  have hidx := h.receives.index_le h.wire
  have hbw : (w.conn x.other).receiver.streamOut.bytesWritten =
      (w.conn x.other).receiver.reassembler.index := h.receives.inv.written
  unfold TCPReceiver.acknowledged
  split_ifs <;> omega

/-- What the history of the sender keeps while the sending side acts. -/
theorem Accountable.history {w w' : World} {x : Side} {op : TCPConnection.Op}
    {finAt : Option Nat} {t t' : SenderTrace} (h : w.Accountable x finAt t)
    (hok : w.Allowed ⟨x, op⟩) (ht' : (w.conn x).Tracks op t (w'.conn x) t')
    (hnext : t'.sender.nextSeqnoAbsolute < 2 ^ 31) :
    (∃ finAt', t'.WireInv finAt' ∧ t'.FinLast finAt') ∧
    t'.Covered (w.conn x.other).receiver.acknowledged ∧
    (t.sender.finSent = true → t'.sender.finSent = true) ∧
    t.sender.stream.bytesRead ≤ t'.sender.stream.bytesRead := by
  refine ⟨?_, ?_, ?_⟩
  · -- a write is accepted only while the input is open
    refine ht'.continues.invariant (I := fun u => ∃ finAt, u.WireInv finAt ∧ u.FinLast finAt)
      ⟨finAt, h.flow.wire, h.finLast⟩ ?_
    rintro u sop hsop ⟨finAt, hw, hl⟩
    have hnw : u.NoWriteAfterEnd sop := by
      cases sop with
      | write data =>
          obtain ⟨rfl, hu⟩ := hsop
          intro hended
          rw [hu] at hended ⊢
          exact hok.2 hended
      | _ => trivial
    exact SenderTrace.after_induction (I := fun u => ∃ finAt, u.WireInv finAt ∧ u.FinLast finAt)
      ⟨finAt, hw.direct sop, hl.direct hnw⟩
      fun _ _ _ ⟨_, hw, hl⟩ he => ⟨_, hw.emit he, hl.emit hw he⟩
  · -- the acknowledgements that come in were given by the other side
    have hlt := h.flow.acknowledged_lt
      (Nat.lt_of_le_of_lt ht'.continues.nextSeqnoAbsolute_le hnext)
    have hinv := ht'.continues.invariant
      (I := fun u => u.sender.isn = t.sender.isn ∧ (u.sender.nextSeqnoAbsolute < 2 ^ 31 →
        u.Covered (w.conn x.other).receiver.acknowledged)) ⟨rfl, fun _ => h.covered⟩ ?_
    · exact hinv.2 hnext
    · rintro u sop hsop ⟨hisn, hcov⟩
      refine SenderTrace.after_induction (I := fun u => u.sender.isn = t.sender.isn ∧
        (u.sender.nextSeqnoAbsolute < 2 ^ 31 →
          u.Covered (w.conn x.other).receiver.acknowledged)) ⟨?_, ?_⟩ ?_
      · rw [SenderTrace.direct_isn]
        exact hisn
      · rw [SenderTrace.direct_nextSeqnoAbsolute]
        intro hu
        refine (hcov hu).direct hu ?_
        rintro ackno win rfl
        obtain ⟨seg, rfl, -, -, hack, rfl, -⟩ := hsop
        obtain ⟨k, hk, hackno⟩ := h.acks seg (Or.inr hok.1) hack
        exact ⟨k, hk, Nat.lt_of_le_of_lt hk hlt, hackno.trans (by rw [hisn])⟩
      · rintro u seg s ⟨hisn, hcov⟩ he
        refine ⟨he.isn_eq.trans hisn, fun hs => (hcov ?_).emit he⟩
        exact Nat.lt_trans he.nextSeqnoAbsolute_lt hs
  · refine ht'.continues.invariant (I := fun u =>
      (t.sender.finSent = true → u.sender.finSent = true) ∧
      t.sender.stream.bytesRead ≤ u.sender.stream.bytesRead) ⟨id, Nat.le_refl _⟩ ?_
    rintro u sop - ⟨hfin, hread⟩
    obtain ⟨hfin', hread'⟩ := u.finSent_bytesRead_after sop
    exact ⟨fun hf => hfin' (hfin hf), Nat.le_trans hread hread'⟩

/-- The sending side acts. -/
theorem Accountable.send {w w' : World} {x : Side} {op : TCPConnection.Op}
    {finAt : Option Nat} {t : SenderTrace} (h : w.Accountable x finAt t)
    (hs : w.step ⟨x, op⟩ = some w') (hok : w.Allowed ⟨x, op⟩)
    (hnext : (w'.conn x).sender.nextSeqnoAbsolute < 2 ^ 31) :
    ∃ finAt' t', w'.Accountable x finAt' t' := by
  obtain ⟨t', ht'⟩ := TCPConnection.step_tracks (step_self hs).1 h.flow.sender_eq h.flow.queued
  obtain ⟨hconn, hnet, -, -⟩ := step_other hs x.other_ne
  obtain ⟨⟨finAt', hw', hl'⟩, hcov, hfin, hread⟩ :=
    h.history hok ht' (by rw [ht'.sender_eq]; exact hnext)
  refine ⟨finAt', t', h.flow.send hs ht' hw', hl', ?_, ?_, ?_⟩
  · rw [hconn]
    refine h.ending.sender hread fun hsent => ⟨hfin hsent, ?_⟩
    -- after the FIN there is nothing left to read, and nothing is written
    rw [h.flow.wire.finSent_eq] at hsent
    obtain ⟨n, hn⟩ := Option.isSome_iff_exists.mp hsent
    obtain ⟨hended, -, hall⟩ := h.finLast n hn
    have hnone : (w.conn x).acceptedBy op = [] := by
      cases op with
      | write data =>
          rw [h.flow.sender_eq] at hended
          show data.take ((w.conn x).write data).1 = []
          rw [hok.2 hended, List.take_zero]
      | _ => rfl
    have hle := hw'.stream.read_le
    rw [ht'.written_eq, hnone, List.append_nil] at hle
    omega
  · rw [hconn, hnet, (continues_facts ht'.continues).1]
    exact h.acks
  · rw [hconn]
    exact hcov

/-- The receiving side acts. -/
theorem Accountable.receive {w w' : World} {x : Side} {op : TCPConnection.Op}
    {finAt finAt₁ : Option Nat} {t t₁ : SenderTrace} (h : w.Accountable x finAt t)
    (hback : w.Flow x.other finAt₁ t₁) (hs : w.step ⟨x.other, op⟩ = some w')
    (hok : w.Allowed ⟨x.other, op⟩) (hend : EndCarried x.other w ⟨x.other, op⟩)
    (hnext : t.sender.nextSeqnoAbsolute < 2 ^ 31) : w'.Accountable x finAt t := by
  obtain ⟨hstep, hnet, -, -⟩ := step_self hs
  have hr := TCPConnection.step_receiver hstep
  have hflow := h.flow.receive hs hok.1 hnext
  have hmono := hr.acknowledged_le
  refine ⟨hflow, h.finLast, ?_, ?_, h.covered.mono hmono⟩
  · refine h.ending.step h.flow.receives h.flow.wire h.finLast hnext
      (h.flow.genuine_received hok.1) ?_ hr
    rintro seg rfl hp hrst hrecv
    exact hend rfl hp hrst hrecv
  · -- what was queued before acknowledged no more; what is new says what is true now
    have hold : ∀ seg, seg ∈ (w.conn x.other).segmentsOut ∨ seg ∈ w.net x.other →
        seg.header.ack = true → ∃ k, k ≤ (w'.conn x.other).receiver.acknowledged ∧
          seg.header.ackno = wrap k t.sender.isn := by
      intro seg hseg hack
      obtain ⟨k, hk, hackno⟩ := h.acks seg hseg hack
      exact ⟨k, Nat.le_trans hk hmono, hackno⟩
    obtain ⟨t₂, ht₂⟩ := TCPConnection.step_tracks hstep hback.sender_eq hback.queued
    obtain ⟨finAt₂, hw₂⟩ := (continues_facts ht₂.continues).2.2.2 finAt₁ hback.wire
    rintro seg (hseg | hseg) hack
    · rcases ht₂.queue seg hseg with hseg | rfl | ⟨seg₀, hmem, rfl⟩
      · exact hold seg (Or.inl hseg) hack
      · cases hack
      · have hackno := SenderTrace.ackno_of_stamp (hw₂.segments.ack_eq_false hmem) hack
        obtain ⟨hrecv, heq⟩ := TCPReceiver.ackno_eq_wrap hackno
        refine ⟨_, Nat.le_refl _, heq.trans ?_⟩
        rw [hflow.receives.isn_eq hrecv]
    · rw [show w'.net x.other = _ from hnet] at hseg
      rcases List.mem_append.mp hseg with hseg | hseg
      · exact hold seg (Or.inr hseg) hack
      · exact hold seg (Or.inl (mem_of_mem_emittedBy hseg)) hack

theorem accountable_run {endNode : Side → List ByteString → Nat} {cfg : Side → TCPConfig}
    {isn : Side → WrappingInt32} {x : Side} {es : List Event} {w : World}
    (hrun : Run (Guarded (fun w e => w.Allowed e ∧ EndCarried x.other w e) step)
      (new endNode cfg isn) es w)
    (hnext : ∀ y, (w.conn y).sender.nextSeqnoAbsolute < 2 ^ 31) :
    ∃ finAt t, w.Accountable x finAt t := by
  induction hrun with
  | nil => exact ⟨_, _, accountable_new endNode cfg isn x⟩
  | @snoc es w e w' hrun hs ih =>
      obtain ⟨⟨hok, hend⟩, hstep⟩ := hs
      have hbound : ∀ y, (w.conn y).sender.nextSeqnoAbsolute < 2 ^ 31 := fun y =>
        Nat.lt_of_le_of_lt (step_nextSeqnoAbsolute_le hstep y) (hnext y)
      obtain ⟨finAt, t, h⟩ := ih hbound
      obtain ⟨y, op⟩ := e
      rcases Side.eq_or_eq_other x y with rfl | rfl
      · exact h.send hstep hok (hnext y)
      · obtain ⟨finAt₁, t₁, hback⟩ :=
          flow_run (hrun.mono fun _ _ _ hs => ⟨hs.1.1.1, hs.2⟩) hbound x.other
        refine ⟨finAt, t, h.receive hback hstep hok hend ?_⟩
        rw [h.flow.sender_eq]
        exact hbound x

-- ============================================================================
-- Completeness
-- ============================================================================

/-- An outstanding segment carries byte `i` of the stream. -/
def InFlight (s : TCPSender) (i : Nat) : Prop :=
  ∃ seg ∈ s.outstandingSegments,
    ((wrap (i + 1) s.isn).rawValue - seg.header.seqno.rawValue).toNat < seg.payload.length

instance (s : TCPSender) (i : Nat) : Decidable (InFlight s i) :=
  inferInstanceAs (Decidable (∃ seg ∈ s.outstandingSegments, _))

/-- What `x` has sent and released was assembled by the other side, and a stream that
    is over without an error is all that `x` wrote. -/
structure Completes (w : World) (x : Side) : Prop where
  assembled : ∀ i, i < (w.conn x).sender.stream.bytesRead → ¬ InFlight (w.conn x).sender i →
    ∃ b, (w.accepted x)[i]? = some b ∧
      (w.delivered x.other ++ (w.conn x.other).inboundStream.buffer)[i]? = some b
  complete : (w.conn x.other).inboundStream.eof = true →
    (w.conn x.other).inboundStream.error = false →
    w.delivered x.other = w.accepted x ∧ (w.conn x).sender.stream.inputEnded = true

/-- The position of a byte that was sent is in flight or acknowledged. -/
theorem Accountable.inFlight_or_lt {w : World} {x : Side} {finAt : Option Nat} {t : SenderTrace}
    (h : w.Accountable x finAt t) (hnext : t.sender.nextSeqnoAbsolute < 2 ^ 31) {i : Nat}
    (hi : i < t.sender.stream.bytesRead) :
    InFlight t.sender i ∨ i + 1 < (w.conn x.other).receiver.acknowledged := by
  have hw := h.flow.wire
  have hpos : 0 < t.sender.nextSeqnoAbsolute := by
    rw [Nat.pos_iff_ne_zero]
    intro h0
    have := (hw.start h0).1
    omega
  have hlen := hw.next_eq hpos
  rcases h.covered (i + 1) (by omega) with hlt | ⟨seg, hseg, p, hseqno, hpi, hip, hp⟩
  · exact Or.inr hlt
  · refine Or.inl ⟨seg, hseg, ?_⟩
    rcases hw.firstTime_cases (hw.segments.outstanding seg hseg) with
      ⟨hsyn, hpay, hfin, hisn⟩ | ⟨hsyn, j, hj, hjle, -, hlast⟩
    · -- the SYN stands at position 0
      have hone : seg.lengthInSequenceSpace = 1 := by
        simp [TCPSegment.lengthInSequenceSpace, hsyn, hpay, hfin]
      have hp0 : p = 0 := wrap_inj (by omega) (by omega)
        (hseqno.symm.trans (hisn.trans (wrap_zero _).symm))
      omega
    · obtain rfl : p = j + 1 := wrap_inj (by omega) (by omega) (hseqno.symm.trans hj)
      have hcount := TCPSegment.length_of_not_syn hsyn
      -- the FIN stands after all bytes, so the position is in the payload
      have hin : i + 1 < j + 1 + seg.payload.length := by
        by_cases hfin : seg.header.fin = true
        · have hn := h.finLast _ (hlast hfin)
          omega
        · rw [if_neg hfin] at hcount
          omega
      rw [hseqno, UInt32.toNat_sub, wrap_toNat, wrap_toNat]
      have hlt := t.sender.isn.rawValue.toNat_lt
      omega

theorem Accountable.completes {w : World} {x : Side} {finAt : Option Nat} {t : SenderTrace}
    (h : w.Accountable x finAt t) (hnext : t.sender.nextSeqnoAbsolute < 2 ^ 31) :
    w.Completes x := by
  have hlen : (w.delivered x.other ++ (w.conn x.other).inboundStream.buffer).length =
      (w.conn x.other).receiver.reassembler.index := h.flow.receives.content.length_eq
  have hbw : (w.conn x.other).receiver.streamOut.bytesWritten =
      (w.conn x.other).receiver.reassembler.index := h.flow.receives.inv.written
  have hpre := h.flow.isPrefix
  refine ⟨?_, ?_⟩
  · intro i hi hnot
    rw [← h.flow.sender_eq] at hi hnot
    have hack := (h.inFlight_or_lt hnext hi).resolve_left hnot
    have hidx : i < (w.conn x.other).receiver.reassembler.index := by
      unfold TCPReceiver.acknowledged at hack
      split_ifs at hack with hrecv hended
      · -- the end was reached, so everything was written
        have := (h.ending.endedAt.mp hended).2
        omega
      · omega
      · omega
    rw [← hlen] at hidx
    refine ⟨_, ?_, List.getElem?_eq_getElem hidx⟩
    exact List.prefix_iff_getElem?.mp hpre i hidx
  · intro heof _
    obtain ⟨hended, hbuf⟩ := (ByteStream.eof_iff _).mp heof
    obtain ⟨hset, hidx⟩ := h.ending.endedAt.mp hended
    have hsent := h.ending.eof_sent hset
    rw [h.flow.wire.finSent_eq] at hsent
    obtain ⟨n, hn⟩ := Option.isSome_iff_exists.mp hsent
    obtain ⟨hin, -, hall⟩ := h.finLast n hn
    rw [hbuf, List.append_nil] at hpre hlen
    rw [h.flow.sender_eq] at hin
    refine ⟨hpre.eq_of_length ?_, hin⟩
    rw [hlen, hidx, hall, h.flow.written_eq]

/-- **Completeness.**  In every run in which the receiving side takes in no FIN one
    byte early without this byte, what the sender released was assembled, and a
    stream that is over is complete. -/
theorem completes_of_endCarried (endNode : Side → List ByteString → Nat)
    (cfg : Side → TCPConfig) (isn : Side → WrappingInt32) (x : Side) {es : List Event} {w : World}
    (hrun : Run (Guarded (fun w e => w.Allowed e ∧ EndCarried x.other w e) step)
      (new endNode cfg isn) es w)
    (hnext : ∀ y, (w.conn y).sender.nextSeqnoAbsolute < 2 ^ 31) : w.Completes x := by
  obtain ⟨finAt, t, h⟩ := accountable_run hrun hnext
  exact h.completes (by rw [h.flow.sender_eq]; exact hnext x)

/-- The segment with the FIN that follows one byte. -/
def finAfterOne : TCPSegment :=
  { header := { seqno := ⟨1⟩, ackno := ⟨8⟩, win := 64000, ack := true, fin := true } }

/-- The only byte is lost and the FIN arrives. -/
def lastByteLost : List Event :=
  handshake ++ [⟨.a, .write [120]⟩, ⟨.a, .dequeue⟩, ⟨.a, .endInputStream⟩, ⟨.a, .dequeue⟩,
    ⟨.b, .segmentReceived finAfterOne⟩, ⟨.b, .dequeue⟩,
    ⟨.a, .segmentReceived
      { header := { seqno := ⟨8⟩, ackno := ⟨1⟩, win := 64000, ack := true } }⟩]

/-- Side `b` is at the end of its stream without the byte, and side `a` has released
    it. -/
theorem completes_fails :
    ∃ w, Run (Guarded Allowed step) pair lastByteLost w ∧
      (∀ y, (w.conn y).sender.nextSeqnoAbsolute < 2 ^ 31) ∧
      (0 < (w.conn .a).sender.stream.bytesRead ∧ ¬ InFlight (w.conn .a).sender 0 ∧
        w.delivered .b ++ (w.conn .b).inboundStream.buffer = []) ∧
      ((w.conn .b).inboundStream.eof = true ∧ (w.conn .b).inboundStream.error = false ∧
        w.delivered .b = [] ∧ w.accepted .a = [120]) ∧
      ¬ w.Completes .a := by
  have hrun := Run.of_exec Allowed step pair lastByteLost (by decide)
  refine ⟨_, hrun, fun y => by cases y <;> decide, ⟨by decide, by decide, by decide⟩,
    ⟨by decide, by decide, by decide, by decide⟩, fun h => ?_⟩
  have hall := (h.complete (by decide) (by decide)).1
  revert hall
  decide

/-- The same transfer with the byte delivered before the FIN. -/
theorem completes_of_endCarried_inOrder :
    ∃ w, Run (Guarded (fun w e => w.Allowed e ∧ EndCarried .b w e) step) pair
        (handshake ++ [⟨.a, .write [120]⟩, ⟨.a, .dequeue⟩, ⟨.a, .endInputStream⟩, ⟨.a, .dequeue⟩,
          ⟨.b, .segmentReceived
            { header := { seqno := ⟨0⟩, ackno := ⟨8⟩, win := 64000, ack := true },
              payload := [120] }⟩,
          ⟨.b, .segmentReceived finAfterOne⟩, ⟨.b, .read 5⟩]) w ∧
      w.delivered .b = [120] ∧ w.Completes .a := by
  have hrun := Run.of_exec (fun w e => Allowed w e ∧ EndCarried .b w e) step pair
    (handshake ++ [⟨.a, .write [120]⟩, ⟨.a, .dequeue⟩, ⟨.a, .endInputStream⟩, ⟨.a, .dequeue⟩,
      ⟨.b, .segmentReceived
        { header := { seqno := ⟨0⟩, ackno := ⟨8⟩, win := 64000, ack := true },
          payload := [120] }⟩,
      ⟨.b, .segmentReceived finAfterOne⟩, ⟨.b, .read 5⟩]) (by decide)
  refine ⟨_, hrun, by decide, ?_⟩
  exact completes_of_endCarried _ _ _ .a hrun fun y => by cases y <;> decide

end World

end Sponge
