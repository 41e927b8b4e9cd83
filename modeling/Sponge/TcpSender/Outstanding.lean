/-
  Sponge.TcpSender.Outstanding

  The list of outstanding segments, as long as the 32-bit sequence number does
  not wrap.

  Then raw sequence numbers are ordered as the positions they stand for, the
  insertion by raw sequence number appends, and the release loop stops where it
  should: the outstanding segments tile the positions from some `a` up to
  `_next_seqno`, and everything below `a` was acknowledged (`OutInv`).
-/

import Sponge.TcpSender.Trace

namespace Sponge

open Lib (Run Guarded)

namespace TCPSegment

/-- The raw sequence number of the segment's first item. -/
def rawStart (seg : TCPSegment) : Nat := seg.header.seqno.rawValue.toNat

end TCPSegment

namespace TCPSender

/-- A segment that does not precede any other goes to the end. -/
theorem insertOutstanding_eq_append {seg : TCPSegment} {segs : List TCPSegment}
    (h : ∀ x ∈ segs, x.rawStart ≤ seg.rawStart) : insertOutstanding seg segs = segs ++ [seg] := by
  induction segs with
  | nil => rfl
  | cons x xs ih =>
      have hx : ¬ seg.header.seqno.rawValue < x.header.seqno.rawValue := by
        rw [UInt32.lt_iff_toNat_lt]
        exact Nat.not_lt.mpr (h x (List.mem_cons_self ..))
      rw [insertOutstanding, if_neg hx, ih fun y hy => h y (List.mem_cons_of_mem _ hy)]
      rfl

theorem foldl_length_eq (segs : List TCPSegment) (n : Nat) :
    segs.foldl (fun bytes seg => bytes + seg.lengthInSequenceSpace) n =
      n + (wire segs).length := by
  induction segs generalizing n with
  | nil => rfl
  | cons seg segs ih =>
      simp only [List.foldl_cons, ih, wire, List.flatMap_cons, List.length_append,
        TCPSegment.cells_length]
      omega

/-- `bytes_in_flight()` is the sequence space of the outstanding segments. -/
theorem bytesInFlight_eq (s : TCPSender) :
    s.bytesInFlight = (wire s.outstandingSegments).length := by
  rw [bytesInFlight, foldl_length_eq, Nat.zero_add]

theorem bytesInFlight_eq_zero {s : TCPSender} :
    s.bytesInFlight = 0 ↔ s.outstandingSegments = [] := by
  rw [bytesInFlight_eq]
  cases hl : s.outstandingSegments with
  | nil => simp
  | cons seg segs =>
      have hpos := s.outstanding_pos seg (by simp [hl])
      simp only [wire, List.flatMap_cons, List.length_append, TCPSegment.cells_length]
      constructor
      · intro
        omega
      · intro hnil
        cases hnil

theorem isAcknowledged_iff {ackno : WrappingInt32} {seg : TCPSegment}
    (hpos : 0 < seg.lengthInSequenceSpace) :
    isAcknowledged ackno seg = true ↔
      seg.rawStart + seg.lengthInSequenceSpace ≤ ackno.rawValue.toNat := by
  simp only [isAcknowledged, TCPSegment.rawStart, decide_eq_true_eq]
  omega

end TCPSender

namespace Tiles

open TCPSender

variable {isn : WrappingInt32} {a b : Nat} {segs : List TCPSegment}

theorem le (h : Tiles isn a segs b) : a ≤ b := by
  have := h.wire_length
  omega

/-- Without wrapping, raw sequence numbers are positions. -/
theorem rawStart_eq {seg : TCPSegment} {x : Nat} (hseqno : seg.header.seqno = wrap x isn)
    (hlt : isn.rawValue.toNat + x < 2 ^ 32) : seg.rawStart = isn.rawValue.toNat + x := by
  rw [TCPSegment.rawStart, hseqno, wrap_toNat_of_lt hlt]

/-- The release loop drops whole segments below the acknowledgement and stops at
    the first one that reaches beyond it. -/
theorem dropWhile_acknowledged (h : Tiles isn a segs b)
    (hpos : ∀ seg ∈ segs, 0 < seg.lengthInSequenceSpace)
    (hb : isn.rawValue.toNat + b < 2 ^ 32) (ackno : WrappingInt32) :
    ∃ a', Tiles isn a' (segs.dropWhile (isAcknowledged ackno)) b ∧
      (a' = a ∨ isn.rawValue.toNat + a' ≤ ackno.rawValue.toNat) ∧
      ∀ seg ∈ segs.dropWhile (isAcknowledged ackno),
        ackno.rawValue.toNat < seg.rawStart + seg.lengthInSequenceSpace := by
  induction segs generalizing a with
  | nil => exact ⟨a, h, Or.inl rfl, by simp⟩
  | cons seg segs ih =>
      obtain ⟨hseg, hrest⟩ := List.forall_mem_cons.mp hpos
      have hle := h.2.le
      have hraw := rawStart_eq h.1 (by omega)
      by_cases hack : isAcknowledged ackno seg = true
      · have hacked := (isAcknowledged_iff hseg).mp hack
        obtain ⟨a', htiles, ha', hends⟩ := ih h.2 hrest
        rw [List.dropWhile_cons_of_pos hack]
        exact ⟨a', htiles, Or.inr (by omega), hends⟩
      · rw [List.dropWhile_cons_of_neg hack]
        refine ⟨a, h, Or.inl rfl, fun x hx => ?_⟩
        rw [isAcknowledged_iff hseg] at hack
        rcases List.mem_cons.mp hx with rfl | hx
        · omega
        · -- later segments start even later
          obtain ⟨y, hy, hyb, hyseq, -⟩ := h.2.of_mem hx
          have hxraw := rawStart_eq hyseq (by omega)
          have hxpos := hrest x hx
          omega

end Tiles

namespace SenderTrace

open TCPSender

/-- Outstanding segments tile the positions from `a` on; everything below was
    acknowledged, nothing from `a` on was acknowledged in full. -/
structure OutInv (a : Nat) (t : SenderTrace) : Prop where
  tiles : Tiles t.sender.isn a t.sender.outstandingSegments t.sender.nextSeqnoAbsolute
  acked : a = 0 ∨ (t.sender.isn.rawValue.toNat + a : Int) ≤ t.sender.highestAckno
  ends : ∀ seg ∈ t.sender.outstandingSegments,
    t.sender.highestAckno < seg.rawStart + seg.lengthInSequenceSpace
  highest_le : t.sender.highestAckno ≤ t.sender.isn.rawValue.toNat + t.sender.nextSeqnoAbsolute
  accepted_le : ∀ ack ∈ t.accepted, (ack.ackno.rawValue.toNat : Int) ≤ t.sender.highestAckno
  highest_mem : t.sender.highestAckno = -1 ∨
    ∃ ack ∈ t.accepted, (ack.ackno.rawValue.toNat : Int) = t.sender.highestAckno
  timer : t.sender.retransmissionTimerOn = !t.sender.outstandingSegments.isEmpty

theorem outInv_new (capacity : UInt64) (retxTimeout : UInt16) (isn : WrappingInt32) :
    (new capacity retxTimeout isn).OutInv 0 where
  tiles := rfl
  acked := Or.inl rfl
  ends := by simp [new, TCPSender.new]
  highest_le := by
    show (-1 : Int) ≤ _
    omega
  accepted_le := by simp [new]
  highest_mem := Or.inl rfl
  timer := rfl

theorem OutInv.emit {a : Nat} {t : SenderTrace} (h : t.OutInv a) {seg : TCPSegment}
    {s : TCPSender} (he : Emit t.sender seg s)
    (hwrap : s.isn.rawValue.toNat + s.nextSeqnoAbsolute < 2 ^ 32) : (t.sent [seg] s).OutInv a := by
  obtain ⟨hf⟩ := he
  simp only [afterSend_isn, afterSend_nextSeqnoAbsolute] at hwrap
  have hraw := Tiles.rawStart_eq hf.seqno_eq (by omega)
  have hlast : insertOutstanding seg t.sender.outstandingSegments =
      t.sender.outstandingSegments ++ [seg] := by
    refine insertOutstanding_eq_append fun x hx => ?_
    obtain ⟨y, -, hyb, hyseq, -⟩ := h.tiles.of_mem hx
    have := Tiles.rawStart_eq hyseq (by omega)
    omega
  refine ⟨?_, h.acked, ?_, ?_, h.accepted_le, h.highest_mem, ?_⟩
  · simp only [sent, afterSend_isn, afterSend_outstandingSegments, hlast,
      afterSend_nextSeqnoAbsolute]
    exact h.tiles.append (Tiles.singleton hf.seqno_eq)
  · simp only [sent, afterSend_outstandingSegments, hlast, afterSend_highestAckno]
    intro x hx
    rcases List.mem_append.mp hx with hx | hx
    · exact h.ends x hx
    · obtain rfl := List.mem_singleton.mp hx
      have := h.highest_le
      have := hf.pos
      omega
  · have := h.highest_le
    simp only [sent, afterSend_highestAckno, afterSend_isn, afterSend_nextSeqnoAbsolute]
    omega
  · simp only [sent, afterSend_outstandingSegments, hlast, afterSend_retransmissionTimerOn]
    simp

theorem OutInv.acknowledge {a : Nat} {t : SenderTrace} (h : t.OutInv a) {ackno : WrappingInt32}
    (hacc : t.sender.Accepts ackno) (w : UInt16)
    (hwrap : t.sender.isn.rawValue.toNat + t.sender.nextSeqnoAbsolute < 2 ^ 32) :
    ∃ a', (t.direct (.ackReceived ackno w)).OutInv a' := by
  obtain ⟨a', htiles, ha', hends⟩ :=
    h.tiles.dropWhile_acknowledged t.sender.outstanding_pos hwrap ackno
  -- an accepted acknowledgement lies between the highest one and what was sent
  obtain ⟨hle, hge⟩ := (accepts_iff ..).mp hacc
  rw [nextSeqno, wrap_toNat_of_lt hwrap] at hle
  have hhigh : (t.sender.acknowledge ackno w).highestAckno = ackno.rawValue.toNat := by
    rw [acknowledge_highestAckno]
    omega
  refine ⟨a', ?_⟩
  rw [direct_ackReceived t hacc]
  refine ⟨by simpa using htiles, ?_, ?_, ?_, ?_, ?_, ?_⟩
  · have := h.acked
    simp only [acknowledge_isn, hhigh]
    omega
  · simp only [acknowledge_outstandingSegments, hhigh]
    intro seg hseg
    have := hends seg hseg
    omega
  · simp only [acknowledge_isn, acknowledge_nextSeqnoAbsolute, hhigh]
    omega
  · simp only [hhigh, List.mem_append, List.mem_singleton]
    rintro ack (hmem | rfl)
    · have := h.accepted_le ack hmem
      omega
    · exact Int.le_refl _
  · exact Or.inr ⟨_, List.mem_append_right _ (List.mem_singleton.mpr rfl), hhigh.symm⟩
  · simp only [acknowledge_retransmissionTimerOn, acknowledge_outstandingSegments]
    split
    · rfl
    · -- a repeated acknowledgement releases nothing
      have hkeep : t.sender.outstandingSegments.dropWhile (isAcknowledged ackno) =
          t.sender.outstandingSegments := by
        cases hl : t.sender.outstandingSegments with
        | nil => rfl
        | cons seg segs =>
            have hmem : seg ∈ t.sender.outstandingSegments := by simp [hl]
            have hend := h.ends seg hmem
            have hpos := t.sender.outstanding_pos seg hmem
            refine List.dropWhile_cons_of_neg ?_
            rw [isAcknowledged_iff hpos]
            omega
      rw [hkeep]
      exact h.timer

theorem OutInv.direct {a : Nat} {t : SenderTrace} (h : t.OutInv a) (op : Op)
    (hwrap : t.sender.isn.rawValue.toNat + t.sender.nextSeqnoAbsolute < 2 ^ 32) :
    ∃ a', (t.direct op).OutInv a' := by
  by_cases hop : ∃ ackno w, op = .ackReceived ackno w
  · obtain ⟨ackno, w, rfl⟩ := hop
    by_cases hacc : t.sender.Accepts ackno
    · exact h.acknowledge hacc w hwrap
    · exact ⟨a, by rwa [direct_ackReceived_of_not t hacc]⟩
  · push Not at hop
    obtain ⟨haccepted, hout, htimer, hhigh, -, -⟩ := t.direct_window hop
    refine ⟨a, ?_, ?_, ?_, ?_, ?_, ?_, ?_⟩
    · simpa [hout] using h.tiles
    · simpa [hhigh] using h.acked
    · simpa [hout, hhigh] using h.ends
    · simpa [hhigh] using h.highest_le
    · simpa [haccepted, hhigh] using h.accepted_le
    · simpa [haccepted, hhigh] using h.highest_mem
    · simpa [htimer, hout] using h.timer

-- ============================================================================
-- The invariant over whole runs
-- ============================================================================

/-- What holds of the outstanding segments as long as nothing wraps. -/
structure OutstandingExact (t : SenderTrace) : Prop where
  /-- each starts where the one before it ends, and the last one ends at
      `next_seqno` -/
  contiguous : ∃ a, Tiles t.sender.isn a t.sender.outstandingSegments t.sender.nextSeqnoAbsolute
  ends_after : ∀ seg ∈ t.sender.outstandingSegments, ∀ ack ∈ t.accepted,
    ack.ackno.rawValue.toNat < seg.rawStart + seg.lengthInSequenceSpace
  covered : ∀ p, p < t.sender.nextSeqnoAbsolute →
    (∀ ack ∈ t.accepted, ack.ackno.rawValue.toNat ≤ t.sender.isn.rawValue.toNat + p) →
    ∃ seg ∈ t.sender.outstandingSegments, seg.rawStart ≤ t.sender.isn.rawValue.toNat + p ∧
      t.sender.isn.rawValue.toNat + p < seg.rawStart + seg.lengthInSequenceSpace
  inFlight : match t.sender.outstandingSegments.head? with
    | none => t.sender.bytesInFlight = 0
    | some seg => t.sender.isn.rawValue.toNat ≤ seg.rawStart ∧
        t.sender.bytesInFlight =
          t.sender.nextSeqnoAbsolute - (seg.rawStart - t.sender.isn.rawValue.toNat)
  timer_iff : t.sender.retransmissionTimerOn = true ↔ t.sender.outstandingSegments ≠ []

theorem OutInv.exact {a : Nat} {t : SenderTrace} (h : t.OutInv a)
    (hwrap : t.sender.isn.rawValue.toNat + t.sender.nextSeqnoAbsolute < 2 ^ 32) :
    t.OutstandingExact where
  contiguous := ⟨a, h.tiles⟩
  ends_after := by
    intro seg hseg ack hack
    have := h.ends seg hseg
    have := h.accepted_le ack hack
    omega
  covered := by
    intro p hp hall
    have hap : a ≤ p := by
      rcases h.acked with ha | ha
      · omega
      · rcases h.highest_mem with hnone | ⟨ack, hack, heq⟩
        · omega
        · have := hall ack hack
          omega
    obtain ⟨seg, hseg, x, hx, hxp, hpx⟩ := h.tiles.exists_cover hap hp
    have hraw := Tiles.rawStart_eq hx (by omega)
    exact ⟨seg, hseg, by omega, by omega⟩
  inFlight := by
    have hlen := h.tiles.wire_length
    rw [← bytesInFlight_eq] at hlen
    cases hl : t.sender.outstandingSegments with
    | nil => simp [bytesInFlight_eq, hl]
    | cons seg segs =>
        have htiles := h.tiles
        rw [hl] at htiles
        have hle := htiles.2.le
        have hraw := Tiles.rawStart_eq htiles.1 (by omega)
        simp only [List.head?_cons]
        omega
  timer_iff := by simp [h.timer]

/-- As long as nothing wraps the invariant holds.  The position only grows, so the
    bound holds in every state before. -/
theorem outInv_run {adm : SenderTrace → Op → Prop} {capacity : UInt64} {retxTimeout : UInt16}
    {isn : WrappingInt32} {ops : List Op} {t : SenderTrace}
    (hrun : Run (Guarded adm step) (new capacity retxTimeout isn) ops t)
    (hwrap : t.sender.isn.rawValue.toNat + t.sender.nextSeqnoAbsolute < 2 ^ 32) :
    ∃ a, t.OutInv a :=
  SenderTrace.invariant
    (I := fun t => t.sender.isn.rawValue.toNat + t.sender.nextSeqnoAbsolute < 2 ^ 32 →
      ∃ a, t.OutInv a) hrun (fun _ => ⟨0, outInv_new ..⟩)
    (fun t op _ h hlt => by
      rw [direct_isn, direct_nextSeqnoAbsolute] at hlt
      obtain ⟨a, ha⟩ := h hlt
      exact ha.direct op hlt)
    (fun t seg s h he hlt => by
      have hgrow := he.nextSeqnoAbsolute_lt
      have hisn := he.isn_eq
      simp only [sent, hisn] at hlt
      obtain ⟨a, ha⟩ := h (by omega)
      exact ⟨a, ha.emit he (hisn ▸ hlt)⟩) hwrap

/-- **Outstanding segments.**  In every run in which `isn + next_seqno_absolute()`
    stays below `2^32`, the outstanding segments are exactly what was sent and not
    yet acknowledged. -/
theorem outstanding_exact (capacity : UInt64) (retxTimeout : UInt16) (isn : WrappingInt32)
    {ops : List Op} {t : SenderTrace}
    (hrun : Run (Guarded (fun _ _ => True) step) (new capacity retxTimeout isn) ops t)
    (hwrap : isn.rawValue.toNat + t.sender.nextSeqnoAbsolute < 2 ^ 32) : t.OutstandingExact := by
  have hisn : t.sender.isn = isn := isn_run hrun
  rw [← hisn] at hwrap
  obtain ⟨a, ha⟩ := outInv_run hrun hwrap
  exact ha.exact hwrap

/-- Three segments, of which a partial and a cumulative acknowledgement release
    two. -/
def partialRelease : List Op :=
  [.fillWindow, .write [97, 98, 99], .ackReceived ⟨101⟩ 2, .ackReceived ⟨102⟩ 4, .tick 1000,
    .ackReceived ⟨103⟩ 4]

theorem outstanding_exact_partialRelease :
    ∃ t, Run (Guarded (fun _ _ => True) step) (new 16 1000 ⟨100⟩) partialRelease t ∧
      t.sender.nextSeqnoAbsolute = 4 ∧ t.sender.bytesInFlight = 1 ∧ t.OutstandingExact :=
  have hrun := Run.of_exec (fun _ _ => True) step (new 16 1000 ⟨100⟩) partialRelease (by decide)
  ⟨_, hrun, by decide, by decide, outstanding_exact 16 1000 ⟨100⟩ hrun (by decide)⟩

end SenderTrace

end Sponge
