/-
  Sponge.TcpConnection.Finality

  What may follow the end of the outbound stream.

  `end_input_stream()` sets a flag that `ByteStream::write` does not look at, and the
  window-filling loop sends whatever is in the buffer, before or after the FIN.  So a
  byte that is written after the end is accepted, and once the FIN has left it is
  sent with a sequence number beyond it (`finFinal_fails`).  Nothing else can follow
  the FIN: it is final exactly in the runs in which every write after the end is
  empty or finds no room (`finFinal_iff_refusesLate`).
-/

import Sponge.TcpConnection.Output

namespace Sponge

open Lib (Run Guarded)

-- ============================================================================
-- The end of the input
-- ============================================================================

namespace SenderTrace

open TCPSender

/-- Only `end_input()` ends the input of the stream. -/
theorem inputEnded_after {t : SenderTrace} {op : TCPSender.Op} (hop : op ≠ .endInput) :
    (t.after op).sender.stream.inputEnded = t.sender.stream.inputEnded := by
  apply after_induction (I := fun u => u.sender.stream.inputEnded = t.sender.stream.inputEnded)
  · cases op with
    | endInput => exact absurd rfl hop
    | write data =>
        rw [direct_write]
        rfl
    | setError =>
        rw [direct_setError]
        rfl
    | fillWindow => rfl
    | ackReceived ackno w =>
        by_cases hacc : t.sender.Accepts ackno
        · rw [direct_ackReceived t hacc]
          exact congrArg ByteStream.inputEnded (acknowledge_stream ..)
        · rw [direct_ackReceived_of_not t hacc]
    | tick ms =>
        obtain ⟨segs, timer, timeout, retransmissions, -, heq⟩ := t.direct_tick ms
        rw [heq]
    | sendEmptySegment =>
        rw [direct_sendEmptySegment]
        rfl
    | drain =>
        rw [direct_drain]
        rfl
  · rintro u seg s hu ⟨hf⟩
    exact hf.inputEnded_eq.trans hu

/-- The FIN, if it was sent, stands after everything that was written. -/
def FinAtEnd (t : SenderTrace) : Prop := ∃ finAt, t.WireInv finAt ∧ t.FinLast finAt

theorem FinAtEnd.after {t : SenderTrace} (h : t.FinAtEnd) (op : TCPSender.Op)
    (hop : t.NoWriteAfterEnd op) : (t.after op).FinAtEnd := by
  obtain ⟨finAt, hw, hf⟩ := h
  apply after_induction (I := FinAtEnd) ⟨finAt, hw.direct op, hf.direct hop⟩
  rintro u seg s ⟨finAt, hw, hf⟩ he
  exact ⟨_, hw.emit he, hf.emit hw he⟩

/-- Then nothing follows it on the sequence space. -/
theorem FinAtEnd.fin_last {t : SenderTrace} (h : t.FinAtEnd) {p : Nat}
    (hp : (wire t.firstTime)[p]? = some .fin) : p + 1 = (wire t.firstTime).length := by
  obtain ⟨finAt, hw, hf⟩ := h
  have hpos : 0 < t.sender.nextSeqnoAbsolute := by
    have hlen := hw.segments.tiles.wire_length
    obtain ⟨hlt, -⟩ := List.getElem?_eq_some_iff.mp hp
    omega
  have hwire := hw.encodes hf |>.wire_eq hpos
  rw [hwire] at hp ⊢
  generalize t.written.take t.sender.stream.bytesRead = bytes at hp ⊢
  generalize decide (Cell.fin ∈ wire t.firstTime) = sent at hp ⊢
  rw [encode_length]
  obtain ⟨hlt, hget⟩ := List.getElem?_eq_some_iff.mp hp
  rw [encode_length] at hlt
  -- below the last position there are only the SYN and bytes
  by_contra hne
  have hbyte : p < (Cell.syn :: bytes.map Cell.byte).length := by
    simp only [List.length_cons, List.length_map]
    split at hlt <;> split at hne <;> omega
  have hmem : (encode bytes sent)[p]? = (Cell.syn :: bytes.map Cell.byte)[p]? := by
    rw [encode, ← List.cons_append, List.getElem?_append_left hbyte]
  rw [hp] at hmem
  have := List.mem_of_getElem? hmem.symm
  simp at this

end SenderTrace

namespace TCPConnection

theorem write_mem_performed {c : TCPConnection} {op : Op} {data : List UInt8}
    (h : TCPSender.Op.write data ∈ c.performed op) : op = .write data := by
  cases op with
  | segmentReceived seg =>
      simp only [performed, prepares] at h
      split_ifs at h <;> simp at h
  | tick ms =>
      simp only [performed, prepares] at h
      split_ifs at h <;> simp at h
  | write data' =>
      simp [performed, prepares, SetsError] at h
      rw [h]
  | _ => simp [performed, prepares, sending, SetsError] at h

theorem endInput_mem_performed {c : TCPConnection} {op : Op}
    (h : TCPSender.Op.endInput ∈ c.performed op) : op = .endInputStream := by
  cases op with
  | segmentReceived seg =>
      simp only [performed, prepares] at h
      split_ifs at h <;> simp at h
  | tick ms =>
      simp only [performed, prepares] at h
      split_ifs at h <;> simp at h
  | endInputStream => rfl
  | _ => simp [performed, prepares, sending, SetsError] at h

theorem endInputStream_inputEnded (c : TCPConnection) :
    c.endInputStream.sender.stream.inputEnded = true := by
  let t : SenderTrace := ⟨c.sender.endStream, [], [], [], []⟩
  show (t.after .fillWindow).sender.stream.inputEnded = true
  exact SenderTrace.inputEnded_after (by simp)

/-- Only `end_input_stream()` ends the outbound stream. -/
theorem step_inputEnded {c c' : TCPConnection} {op : Op} (h : c.step op = some c')
    (hop : op ≠ .endInputStream) :
    c'.sender.stream.inputEnded = c.sender.stream.inputEnded := by
  rw [← performed_sender h, ← ConnectionTrace.foldl_after_sender _ ⟨c.sender, [], [], [], []⟩]
  refine ConnectionTrace.foldl_after_invariant
    (I := fun u => u.sender.stream.inputEnded = c.sender.stream.inputEnded) rfl ?_
  intro u sop hsop hu
  have hne : sop ≠ .endInput := by
    rintro rfl
    exact hop (endInput_mem_performed hsop)
  exact (SenderTrace.inputEnded_after hne).trans hu

end TCPConnection

namespace ConnectionTrace

open TCPConnection

/-- Where a segment stands in the sequence space: it is a copy of a segment that was
    sent for the first time behind `x` items. -/
def PlacedAt (t : ConnectionTrace) (x : Nat) (seg : TCPSegment) : Prop :=
  ∃ before first behind, t.history.firstTime = before ++ first :: behind ∧
    (wire before).length = x ∧
    seg.header.seqno = first.header.seqno ∧ seg.header.syn = first.header.syn ∧
    seg.header.fin = first.header.fin ∧ seg.payload = first.payload

/-- No write after the end was accepted, every segment put out has its place in the
    sequence space, and none reaches beyond the FIN. -/
structure FinFinal (t : ConnectionTrace) : Prop where
  refused : t.late = []
  placed : ∀ e ∈ t.emitted, 0 < e.seg.lengthInSequenceSpace →
    ∃ x, t.PlacedAt x e.seg ∧ e.seg.header.seqno = wrap x t.conn.sender.isn
  fin_last : ∀ e ∈ t.emitted, ∀ x, t.PlacedAt x e.seg →
    ∀ p, (wire t.history.firstTime)[p]? = some .fin → x + e.seg.lengthInSequenceSpace ≤ p + 1

/-- A write after the end is empty or finds no room. -/
def RefusesLate (t : ConnectionTrace) : Op → Prop
  | .write data => t.ended = true → data = [] ∨ t.conn.remainingOutboundCapacity = 0
  | _ => True

instance (t : ConnectionTrace) : ∀ op, Decidable (t.RefusesLate op)
  | .write _ => inferInstanceAs (Decidable (_ → _))
  | .connect | .endInputStream | .read _ | .popOutput _ | .tick _ | .segmentReceived _
  | .dequeue => isTrue trivial

-- ============================================================================
-- Placing what was put out
-- ============================================================================

/-- A placed segment ends within what was sent. -/
theorem PlacedAt.le_length {t : ConnectionTrace} {x : Nat} {seg : TCPSegment}
    (h : t.PlacedAt x seg) :
    x + seg.lengthInSequenceSpace ≤ (wire t.history.firstTime).length := by
  obtain ⟨before, first, behind, hfirst, rfl, -, hsyn, hfin, hpay⟩ := h
  rw [hfirst, TCPSegment.lengthInSequenceSpace_congr hsyn hfin hpay]
  simp only [wire, List.flatMap_append, List.flatMap_cons, List.length_append,
    TCPSegment.cells_length]
  omega

/-- A segment put out is a copy of a first-time segment, or occupies nothing. -/
theorem TraceInv.placed {t : ConnectionTrace} (h : t.TraceInv) {e : Emission}
    (he : e ∈ t.emitted) (hpos : 0 < e.seg.lengthInSequenceSpace) :
    ∃ x, t.PlacedAt x e.seg ∧ e.seg.header.seqno = wrap x t.conn.sender.isn := by
  obtain ⟨finAt, hw⟩ := h.wired
  have hsegs := hw.segments
  rcases h.emitted e he with hrst | ⟨seg, hseg, heq⟩
  · rw [hrst] at hpos
    cases hpos
  · obtain ⟨hseqno, hsyn, hfin, hpay⟩ := stamp_frame seg e.receiver
    rw [← heq] at hseqno hsyn hfin hpay
    rcases Replays.mem_cases hsegs.replays hseg with hmem | ⟨n, -, rfl⟩
    · obtain ⟨before, behind, hfirst⟩ := List.append_of_mem hmem
      have htiles := hsegs.tiles
      rw [hfirst] at htiles
      obtain ⟨x, hx, hwrap, -⟩ := htiles.of_append
      have hlen : (wire before).length = x := by simpa using hx.wire_length
      refine ⟨x, ⟨before, seg, behind, hfirst, hlen, hseqno, hsyn, hfin, hpay⟩, ?_⟩
      rw [hseqno, hwrap, h.sender_eq]
    · rw [TCPSegment.lengthInSequenceSpace_congr hsyn hfin hpay] at hpos
      cases hpos

-- ============================================================================
-- Runs
-- ============================================================================

/-- The end of the input is recorded, and nothing was accepted after it. -/
structure FinalInv (t : ConnectionTrace) : Prop where
  trace : t.TraceInv
  ended_eq : t.history.sender.stream.inputEnded = t.ended
  at_end : t.history.FinAtEnd
  late_eq : t.late = []

theorem finalInv_new (endNode : List ByteString → Nat) (cfg : TCPConfig) (isn : WrappingInt32) :
    (new endNode cfg isn).FinalInv where
  trace := traceInv_new endNode cfg isn
  ended_eq := rfl
  at_end := ⟨none, SenderTrace.wireInv_new .., by simp [SenderTrace.FinLast]⟩
  late_eq := rfl

theorem FinalInv.finFinal {t : ConnectionTrace} (h : t.FinalInv) : t.FinFinal where
  refused := h.late_eq
  placed := fun _ he hpos => h.trace.placed he hpos
  fin_last := by
    intro e _ x hx p hp
    rw [h.at_end.fin_last hp]
    exact hx.le_length

theorem length_acceptedBy_write (c : TCPConnection) (data : List UInt8) :
    (c.acceptedBy (.write data)).length = c.sender.stream.bytesToWrite data := by
  have hbytes := c.sender.stream.bytesToWrite_eq data
  show (data.take (c.sender.stream.bytesToWrite data)).length = _
  rw [List.length_take]
  omega

/-- Whether a write accepts something. -/
theorem acceptedBy_write_eq_nil {c : TCPConnection} {data : List UInt8} :
    c.acceptedBy (.write data) = [] ↔ data = [] ∨ c.remainingOutboundCapacity = 0 := by
  have hroom : c.remainingOutboundCapacity =
      c.sender.stream.capacity - c.sender.stream.buffer.length := rfl
  rw [← List.length_eq_zero_iff, length_acceptedBy_write, ByteStream.bytesToWrite_eq, hroom,
    ← List.length_eq_zero_iff]
  omega

/-- `end_input_stream()` ends the input of the stream, and nothing else does. -/
theorem FinalInv.ended_step {t t' : ConnectionTrace} (h : t.FinalInv) {op : Op}
    (hs : t.step op = some t') : t'.history.sender.stream.inputEnded = t'.ended := by
  rw [(h.trace.step hs).sender_eq]
  obtain ⟨c, hc, rfl⟩ := Option.map_eq_some_iff.mp hs
  by_cases hop : op = .endInputStream
  · subst hop
    obtain rfl := Option.some.inj hc
    exact endInputStream_inputEnded t.conn
  · refine (step_inputEnded hc hop).trans ?_
    rw [← h.trace.sender_eq, h.ended_eq]
    cases op with
    | endInputStream => exact absurd rfl hop
    | _ => rfl

theorem FinalInv.step {t t' : ConnectionTrace} (h : t.FinalInv) {op : Op}
    (hop : t.RefusesLate op) (hs : t.step op = some t') : t'.FinalInv := by
  refine ⟨h.trace.step hs, h.ended_step hs, ?_, ?_⟩
  · rw [(step_conn hs).2.2]
    by_cases hw : ∃ data, op = .write data
    · obtain ⟨data, rfl⟩ := hw
      -- the write comes first, and accepts nothing once the input has ended
      have hwrite : t.history.NoWriteAfterEnd (.write data) := by
        intro hended
        rw [h.ended_eq] at hended
        have hnil := acceptedBy_write_eq_nil.mpr (hop hended)
        rw [h.trace.sender_eq]
        show t.conn.sender.stream.bytesToWrite data = 0
        rw [← length_acceptedBy_write, hnil]
        rfl
      exact ((h.at_end.after _ hwrite).after .fillWindow trivial).after .drain trivial
    · refine foldl_after_invariant (I := SenderTrace.FinAtEnd) h.at_end ?_
      intro u sop hsop hu
      refine hu.after sop ?_
      cases sop with
      | write data => exact absurd ⟨data, write_mem_performed hsop⟩ hw
      | _ => trivial
  · obtain ⟨c, hc, rfl⟩ := Option.map_eq_some_iff.mp hs
    simp only
    split
    · rename_i hended
      rw [h.late_eq, List.nil_append]
      cases op with
      | write data => exact acceptedBy_write_eq_nil.mpr (hop hended)
      | _ => rfl
    · exact h.late_eq

/-- **Finality.**  Along a run nothing is accepted after the end and nothing put out
    reaches beyond the FIN exactly if every write after the end is empty or finds no
    room. -/
theorem finFinal_iff_refusesLate (endNode : List ByteString → Nat) (cfg : TCPConfig)
    (isn : WrappingInt32) {ops : List Op} {t : ConnectionTrace}
    (hrun : Run (Guarded (fun _ _ => True) step) (new endNode cfg isn) ops t) :
    (∀ fs u, fs <+: ops → Run (Guarded (fun _ _ => True) step) (new endNode cfg isn) fs u →
      u.FinFinal) ↔
    Run (Guarded RefusesLate step) (new endNode cfg isn) ops t := by
  have hinv : ∀ fs u, Run (Guarded RefusesLate step) (new endNode cfg isn) fs u → u.FinalInv :=
    fun fs u hu =>
      hu.invariant (finalInv_new endNode cfg isn) fun _ _ _ h hs => h.step hs.1 hs.2
  refine Run.always_iff_of_true (P := fun _ => FinFinal)
    (fun fs u hu => (hinv fs u hu).finFinal) ?_ hrun
  intro fs u op v hu hlate hs hv
  have hrefused := hv.refused
  obtain ⟨c, hc, rfl⟩ := Option.map_eq_some_iff.mp hs
  cases op with
  | write data =>
      -- the write is accepted
      simp only [RefusesLate, Classical.not_imp] at hlate
      rw [if_pos hlate.1] at hrefused
      exact hlate.2 (acceptedBy_write_eq_nil.mp (List.append_eq_nil_iff.mp hrefused).2)
  | _ => exact hlate trivial

/-- The stream is ended before it is written to; both are sent. -/
def lateWrite : List Op :=
  [.connect, .segmentReceived { header :=
      { seqno := ⟨100⟩, ackno := ⟨1⟩, win := 100, ack := true, syn := true } },
    .endInputStream, .write [97]]

/-- The byte written after the end is accepted, and put out behind the FIN. -/
theorem finFinal_fails :
    ∃ t, Run (Guarded (fun _ _ => True) step)
        (new List.length { fixedIsn := some ⟨0⟩ } ⟨0⟩) lateWrite t ∧
      t.late = [97] ∧
      t.emitted.map (fun e => (e.seg.header.seqno.rawValue, e.seg.header.fin, e.seg.payload)) =
        [(0, false, []), (1, false, []), (1, true, []), (2, false, [97])] ∧
      ¬ t.FinFinal := by
  have hrun := Run.of_exec (fun _ _ => True) step (new List.length { fixedIsn := some ⟨0⟩ } ⟨0⟩)
    lateWrite (by decide)
  refine ⟨_, hrun, by decide, by decide, fun h => ?_⟩
  have hrefused := h.refused
  revert hrefused
  decide

/-- The stream is written to before it is ended, and an empty write follows. -/
def timelyWrite : List Op :=
  [.connect, .segmentReceived { header :=
      { seqno := ⟨100⟩, ackno := ⟨1⟩, win := 100, ack := true, syn := true } },
    .write [97], .endInputStream, .write [], .tick 1000]

theorem finFinal_iff_refusesLate_timely :
    ∃ t, Run (Guarded (fun _ _ => True) step)
        (new List.length { fixedIsn := some ⟨0⟩ } ⟨0⟩) timelyWrite t ∧ t.FinFinal := by
  have hrun := Run.of_exec RefusesLate step (new List.length { fixedIsn := some ⟨0⟩ } ⟨0⟩)
    timelyWrite (by decide)
  have hany := hrun.mono fun _ _ _ h => And.intro trivial h.2
  exact ⟨_, hany, (finFinal_iff_refusesLate _ _ _ hany).mpr hrun _ _ (List.prefix_refl _) hany⟩

end ConnectionTrace

end Sponge
