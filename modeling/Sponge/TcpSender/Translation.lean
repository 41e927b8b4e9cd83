/-
  Sponge.TcpSender.Translation

  Two senders that differ only in their initial sequence number.

  All the decisions of a sender that look at sequence numbers compare raw 32-bit
  values.  As long as the numbers compared wrap for both senders or for neither
  (`WrapsAlike`), these comparisons only see distances from the initial sequence
  number, and the two senders stay in lock step (`translated_of_wrapsAlike`).  Where
  one wraps and the other does not they part (`translated_fails`).  Filling the
  window compares no sequence numbers at all: there only the order of the
  outstanding list depends on the initial sequence number.
-/

import Sponge.TcpSender.Outstanding

namespace Sponge

open Lib (Run Guarded)

/-- The same segment, numbered from `isn₂` instead of `isn₁`. -/
def translate (isn₁ isn₂ : WrappingInt32) (seg : TCPSegment) : TCPSegment :=
  TCPSender.withSeqno seg (seg.header.seqno + (isn₂.rawValue - isn₁.rawValue))

@[simp] theorem translate_length (isn₁ isn₂ : WrappingInt32) (seg : TCPSegment) :
    (translate isn₁ isn₂ seg).lengthInSequenceSpace = seg.lengthInSequenceSpace := rfl

theorem wrap_translate (n : Nat) (isn₁ isn₂ : WrappingInt32) :
    wrap n isn₁ + (isn₂.rawValue - isn₁.rawValue) = wrap n isn₂ := by
  show WrappingInt32.mk (isn₁.rawValue + UInt32.ofNat n + (isn₂.rawValue - isn₁.rawValue)) =
    WrappingInt32.mk (isn₂.rawValue + UInt32.ofNat n)
  congr 1
  grind

-- ============================================================================
-- Numbers at the same distance
-- ============================================================================

/-- Counting `d` from either initial sequence number passes `2^32` from both or from
    neither. -/
def WrapsAlike (isn₁ isn₂ : WrappingInt32) (d : UInt32) : Prop :=
  isn₁.rawValue.toNat + d.toNat < 2 ^ 32 ↔ isn₂.rawValue.toNat + d.toNat < 2 ^ 32

instance (isn₁ isn₂ : WrappingInt32) (d : UInt32) : Decidable (WrapsAlike isn₁ isn₂ d) :=
  inferInstanceAs (Decidable (_ ↔ _))

/-- Two bounds on raw sequence numbers, still unset or at the same distance from
    the respective initial sequence number. -/
def SameDistance (isn₁ isn₂ : WrappingInt32) (x y : Int) : Prop :=
  x = -1 ∧ y = -1 ∨ x - isn₁.rawValue.toNat = y - isn₂.rawValue.toNat

theorem WrapsAlike.sub_eq {isn₁ isn₂ : WrappingInt32} {d : UInt32} (h : WrapsAlike isn₁ isn₂ d) :
    ((isn₁ + d).rawValue.toNat : Int) - isn₁.rawValue.toNat =
      (isn₂ + d).rawValue.toNat - isn₂.rawValue.toNat := by
  have hraw (isn : WrappingInt32) :
      (isn + d).rawValue.toNat = (isn.rawValue.toNat + d.toNat) % 2 ^ 32 :=
    UInt32.toNat_add ..
  have h₁ := isn₁.rawValue.toNat_lt
  have h₂ := isn₂.rawValue.toNat_lt
  have hd := d.toNat_lt
  unfold WrapsAlike at h
  rw [hraw, hraw]
  omega

theorem WrapsAlike.sameDistance {isn₁ isn₂ : WrappingInt32} {d : UInt32}
    (h : WrapsAlike isn₁ isn₂ d) :
    SameDistance isn₁ isn₂ (isn₁ + d).rawValue.toNat (isn₂ + d).rawValue.toNat := Or.inr h.sub_eq

/-- Comparing a bound with numbers at the same distance. -/
theorem SameDistance.lt_iff {isn₁ isn₂ : WrappingInt32} {x y : Int} {d : UInt32}
    (h : SameDistance isn₁ isn₂ x y) (hd : WrapsAlike isn₁ isn₂ d) :
    x < (isn₁ + d).rawValue.toNat ↔ y < (isn₂ + d).rawValue.toNat := by
  have hsub := hd.sub_eq
  rcases h with ⟨rfl, rfl⟩ | h
  · constructor <;> intro <;> omega
  · omega

theorem SameDistance.le_iff {isn₁ isn₂ : WrappingInt32} {x y : Int} {d : UInt32}
    (h : SameDistance isn₁ isn₂ x y) (hd : WrapsAlike isn₁ isn₂ d) :
    x ≤ (isn₁ + d).rawValue.toNat ↔ y ≤ (isn₂ + d).rawValue.toNat := by
  have hsub := hd.sub_eq
  rcases h with ⟨rfl, rfl⟩ | h
  · constructor <;> intro <;> omega
  · omega

/-- The segment's place, counted from `isn`. -/
def TCPSegment.offset (isn : WrappingInt32) (seg : TCPSegment) : UInt32 :=
  seg.header.seqno.rawValue - isn.rawValue

theorem TCPSegment.add_offset (isn : WrappingInt32) (seg : TCPSegment) :
    isn + seg.offset isn = seg.header.seqno := by
  show WrappingInt32.mk (isn.rawValue + (seg.header.seqno.rawValue - isn.rawValue)) = _
  congr 1
  grind

theorem translate_seqno (isn₁ isn₂ : WrappingInt32) (seg : TCPSegment) :
    (translate isn₁ isn₂ seg).header.seqno = isn₂ + seg.offset isn₁ := by
  show WrappingInt32.mk (seg.header.seqno.rawValue + (isn₂.rawValue - isn₁.rawValue)) =
    WrappingInt32.mk (isn₂.rawValue + (seg.header.seqno.rawValue - isn₁.rawValue))
  congr 1
  grind

theorem WrapsAlike.rawStart_sub_eq {isn₁ isn₂ : WrappingInt32} {seg : TCPSegment}
    (h : WrapsAlike isn₁ isn₂ (seg.offset isn₁)) :
    (seg.rawStart : Int) - isn₁.rawValue.toNat =
      (translate isn₁ isn₂ seg).rawStart - isn₂.rawValue.toNat := by
  have hsub := h.sub_eq
  rwa [TCPSegment.add_offset, ← translate_seqno] at hsub

theorem wire_map_translate (isn₁ isn₂ : WrappingInt32) (segs : List TCPSegment) :
    wire (segs.map (translate isn₁ isn₂)) = wire segs := by
  rw [wire, List.flatMap_map]
  rfl

namespace TCPSender

-- ============================================================================
-- The outstanding list
-- ============================================================================

/-- The outstanding list when the segments have been sent one after the other. -/
def inserted (segs : List TCPSegment) : List TCPSegment :=
  segs.foldl (fun outstanding seg => insertOutstanding seg outstanding) []

theorem inserted_concat (segs : List TCPSegment) (seg : TCPSegment) :
    inserted (segs ++ [seg]) = insertOutstanding seg (inserted segs) := by
  simp [inserted]

theorem mem_inserted {segs : List TCPSegment} {x : TCPSegment} : x ∈ inserted segs ↔ x ∈ segs := by
  induction segs using List.reverseRecOn with
  | nil => rfl
  | append_singleton segs seg ih =>
      rw [inserted_concat, mem_insertOutstanding, ih, List.mem_append, List.mem_singleton, or_comm]

theorem insertOutstanding_sorted {seg : TCPSegment} {segs : List TCPSegment}
    (h : segs.Pairwise fun x y => x.rawStart ≤ y.rawStart) :
    (insertOutstanding seg segs).Pairwise fun x y => x.rawStart ≤ y.rawStart := by
  induction segs with
  | nil => exact List.pairwise_singleton _ _
  | cons x xs ih =>
      obtain ⟨hx, hxs⟩ := List.pairwise_cons.mp h
      unfold insertOutstanding
      split
      · rename_i hlt
        have hle : seg.rawStart ≤ x.rawStart := Nat.le_of_lt (UInt32.lt_iff_toNat_lt.mp hlt)
        refine List.pairwise_cons.mpr ⟨fun y hy => ?_, h⟩
        rcases List.mem_cons.mp hy with rfl | hy
        · exact hle
        · exact Nat.le_trans hle (hx y hy)
      · rename_i hlt
        rw [UInt32.lt_iff_toNat_lt, Nat.not_lt] at hlt
        refine List.pairwise_cons.mpr ⟨fun y hy => ?_, ih hxs⟩
        rcases mem_insertOutstanding.mp hy with rfl | hy
        · exact hlt
        · exact hx y hy

theorem inserted_sorted (segs : List TCPSegment) :
    (inserted segs).Pairwise fun x y => x.rawStart ≤ y.rawStart := by
  induction segs using List.reverseRecOn with
  | nil => exact List.Pairwise.nil
  | append_singleton segs seg ih =>
      rw [inserted_concat]
      exact insertOutstanding_sorted ih

theorem inserted_eq_self {segs : List TCPSegment}
    (h : segs.Pairwise fun x y => x.rawStart ≤ y.rawStart) : inserted segs = segs := by
  induction segs using List.reverseRecOn with
  | nil => rfl
  | append_singleton segs seg ih =>
      obtain ⟨hsegs, -, hlast⟩ := List.pairwise_append.mp h
      rw [inserted_concat, ih hsegs]
      exact insertOutstanding_eq_append fun x hx => hlast x hx seg (List.mem_singleton_self _)

theorem wire_insertOutstanding_length (seg : TCPSegment) (segs : List TCPSegment) :
    (wire (insertOutstanding seg segs)).length =
      (wire segs).length + seg.lengthInSequenceSpace := by
  induction segs with
  | nil => simp [insertOutstanding]
  | cons x xs ih =>
      unfold insertOutstanding
      split
      · simp [wire]
        omega
      · simp only [wire, List.flatMap_cons, List.length_append] at ih ⊢
        omega

theorem wire_inserted_length (segs : List TCPSegment) :
    (wire (inserted segs)).length = (wire segs).length := by
  induction segs using List.reverseRecOn with
  | nil => rfl
  | append_singleton segs seg ih =>
      rw [inserted_concat, wire_insertOutstanding_length, ih]
      simp [wire]

section

variable {isn₁ isn₂ : WrappingInt32}

theorem insertOutstanding_translate {seg : TCPSegment} {segs : List TCPSegment}
    (hseg : WrapsAlike isn₁ isn₂ (seg.offset isn₁))
    (hsegs : ∀ x ∈ segs, WrapsAlike isn₁ isn₂ (x.offset isn₁)) :
    insertOutstanding (translate isn₁ isn₂ seg) (segs.map (translate isn₁ isn₂)) =
      (insertOutstanding seg segs).map (translate isn₁ isn₂) := by
  induction segs with
  | nil => rfl
  | cons x xs ih =>
      obtain ⟨hx, hxs⟩ := List.forall_mem_cons.mp hsegs
      have hiff : (translate isn₁ isn₂ seg).header.seqno.rawValue <
          (translate isn₁ isn₂ x).header.seqno.rawValue ↔
          seg.header.seqno.rawValue < x.header.seqno.rawValue := by
        have h₁ := hseg.rawStart_sub_eq
        have h₂ := hx.rawStart_sub_eq
        simp only [TCPSegment.rawStart] at h₁ h₂
        rw [UInt32.lt_iff_toNat_lt, UInt32.lt_iff_toNat_lt]
        omega
      simp only [List.map_cons, insertOutstanding, hiff, ih hxs]
      split <;> rfl

/-- Segments whose numbers wrap alike stand in the same order. -/
theorem inserted_translate {segs : List TCPSegment}
    (h : ∀ seg ∈ segs, WrapsAlike isn₁ isn₂ (seg.offset isn₁)) :
    inserted (segs.map (translate isn₁ isn₂)) = (inserted segs).map (translate isn₁ isn₂) := by
  induction segs using List.reverseRecOn with
  | nil => rfl
  | append_singleton segs seg ih =>
      have hsegs : ∀ x ∈ segs, WrapsAlike isn₁ isn₂ (x.offset isn₁) :=
        fun x hx => h x (List.mem_append_left _ hx)
      rw [List.map_append, List.map_singleton, inserted_concat, inserted_concat, ih hsegs]
      exact insertOutstanding_translate (h seg (by simp))
        fun x hx => hsegs x (mem_inserted.mp hx)

end

-- ============================================================================
-- Two senders in lock step
-- ============================================================================

/-- The relation between two senders that differ in their initial sequence number.
    The same segments are outstanding; their order agrees where their numbers wrap
    alike. -/
structure Shifted (s₁ s₂ : TCPSender) : Prop where
  stream_eq : s₂.stream = s₁.stream
  next_eq : s₂.nextSeqnoAbsolute = s₁.nextSeqnoAbsolute
  window_eq : s₂.windowSize = s₁.windowSize
  initial_eq : s₂.initialRetransmissionTimeout = s₁.initialRetransmissionTimeout
  timeout_eq : s₂.retransmissionTimeout = s₁.retransmissionTimeout
  timerOn_eq : s₂.retransmissionTimerOn = s₁.retransmissionTimerOn
  timer_eq : s₂.retransmissionTimer = s₁.retransmissionTimer
  retransmissions_eq : s₂.consecutiveRetransmissions = s₁.consecutiveRetransmissions
  finSent_eq : s₂.finSent = s₁.finSent
  windowEmpty_eq : s₂.windowEmpty = s₁.windowEmpty
  segmentsOut_eq : s₂.segmentsOut = s₁.segmentsOut.map (translate s₁.isn s₂.isn)
  outstanding : ∃ segs, s₁.outstandingSegments = inserted segs ∧
    s₂.outstandingSegments = inserted (segs.map (translate s₁.isn s₂.isn))
  highest : SameDistance s₁.isn s₂.isn s₁.highestAckno s₂.highestAckno
  right : SameDistance s₁.isn s₂.isn s₁.highestAcknoRight s₂.highestAcknoRight

/-- The numbers of the outstanding segments wrap alike. -/
def OutstandingAlike (s₁ s₂ : TCPSender) : Prop :=
  ∀ seg ∈ s₁.outstandingSegments, WrapsAlike s₁.isn s₂.isn (seg.offset s₁.isn)

instance (s₁ s₂ : TCPSender) : Decidable (OutstandingAlike s₁ s₂) :=
  inferInstanceAs (Decidable (∀ seg ∈ _, _))

theorem Shifted.inFlight_eq {s₁ s₂ : TCPSender} (h : Shifted s₁ s₂) :
    s₂.bytesInFlight = s₁.bytesInFlight := by
  obtain ⟨segs, h₁, h₂⟩ := h.outstanding
  rw [bytesInFlight_eq, bytesInFlight_eq, h₁, h₂, wire_inserted_length, wire_inserted_length,
    wire_map_translate]

theorem Shifted.isEmpty_eq {s₁ s₂ : TCPSender} (h : Shifted s₁ s₂) :
    s₂.outstandingSegments.isEmpty = s₁.outstandingSegments.isEmpty := by
  rw [Bool.eq_iff_iff, List.isEmpty_iff, List.isEmpty_iff, ← bytesInFlight_eq_zero,
    ← bytesInFlight_eq_zero, h.inFlight_eq]

theorem Shifted.outstanding_eq {s₁ s₂ : TCPSender} (h : Shifted s₁ s₂)
    (halike : OutstandingAlike s₁ s₂) :
    s₂.outstandingSegments = s₁.outstandingSegments.map (translate s₁.isn s₂.isn) := by
  obtain ⟨segs, h₁, h₂⟩ := h.outstanding
  rw [h₁, h₂]
  exact inserted_translate fun seg hseg => halike seg (h₁ ▸ mem_inserted.mpr hseg)

theorem shifted_new (capacity : UInt64) (retxTimeout : UInt16) (isn₁ isn₂ : WrappingInt32) :
    Shifted (new capacity retxTimeout isn₁) (new capacity retxTimeout isn₂) := by
  constructor <;> first | rfl | exact Or.inl ⟨rfl, rfl⟩ | exact ⟨[], rfl, rfl⟩

-- ============================================================================
-- Sending
-- ============================================================================

theorem translate_withSeqno {s₁ s₂ : TCPSender} (h : Shifted s₁ s₂) (seg : TCPSegment) :
    withSeqno seg s₂.nextSeqno = translate s₁.isn s₂.isn (withSeqno seg s₁.nextSeqno) := by
  have hnext : s₂.nextSeqno = s₁.nextSeqno + (s₂.isn.rawValue - s₁.isn.rawValue) := by
    rw [nextSeqno, nextSeqno, wrap_translate, h.next_eq]
  rw [hnext]
  rfl

theorem Shifted.sendNewSegment {s₁ s₂ : TCPSender} (h : Shifted s₁ s₂) {seg : TCPSegment}
    (hpos : 0 < seg.lengthInSequenceSpace) (hlt : seg.lengthInSequenceSpace < 2 ^ 16) :
    Shifted (s₁.sendNewSegment seg) (s₂.sendNewSegment seg) := by
  have hseg := translate_withSeqno h seg
  rw [sendNewSegment_eq s₁ seg hpos hlt, sendNewSegment_eq s₂ seg hpos hlt]
  exact
    { h with
      next_eq := congrArg (· + _) h.next_eq
      window_eq := congrArg (· - _) h.window_eq
      timerOn_eq := rfl
      timer_eq := by simp only [pushNew, h.timerOn_eq, h.timer_eq]
      segmentsOut_eq := by
        simp only [pushNew, h.segmentsOut_eq, hseg, List.map_append, List.map_cons, List.map_nil]
      outstanding := by
        obtain ⟨segs, h₁, h₂⟩ := h.outstanding
        refine ⟨segs ++ [withSeqno seg s₁.nextSeqno], ?_, ?_⟩
        · simp only [pushNew, h₁, inserted_concat]
        · simp only [pushNew, h₂, hseg, List.map_append, List.map_singleton, inserted_concat] }

theorem Shifted.sendSyn {s₁ s₂ : TCPSender} (h : Shifted s₁ s₂) :
    Shifted s₁.sendSyn s₂.sendSyn := by
  unfold TCPSender.sendSyn
  rw [h.next_eq]
  split
  · exact h.sendNewSegment (by decide) (by decide)
  · exact h

theorem Shifted.sendData {s₁ s₂ : TCPSender} (h : Shifted s₁ s₂) (hwin : 0 < s₁.windowSize)
    (hbuf : s₁.stream.buffer ≠ []) : Shifted s₁.sendData s₂.sendData := by
  have hper : s₂.bytesPerSegment = s₁.bytesPerSegment := by
    rw [bytesPerSegment, bytesPerSegment, h.window_eq]
  have hfin : s₂.piggybacksFin = s₁.piggybacksFin := by
    simp only [piggybacksFin, hper, h.stream_eq, h.finSent_eq, h.window_eq]
  obtain ⟨hpos, hlt⟩ := dataSegment_bounds hwin hbuf
  unfold TCPSender.sendData
  simp only [hfin, hper, h.stream_eq, h.finSent_eq]
  refine Shifted.sendNewSegment ?_ hpos hlt
  exact { h with stream_eq := rfl, finSent_eq := rfl }

theorem Shifted.fillLoop {s₁ s₂ : TCPSender} (h : Shifted s₁ s₂) (fuel : Nat) :
    Shifted (fillLoop fuel s₁) (fillLoop fuel s₂) := by
  induction fuel generalizing s₁ s₂ with
  | zero => exact h
  | succ fuel ih =>
      unfold TCPSender.fillLoop
      rw [h.window_eq, h.stream_eq]
      split
      · rename_i hcond
        exact ih (h.sendData hcond.1 ((s₁.stream.bufferEmpty_eq_false_iff).mp hcond.2))
      · exact h

theorem Shifted.sendFin {s₁ s₂ : TCPSender} (h : Shifted s₁ s₂) :
    Shifted s₁.sendFin s₂.sendFin := by
  unfold TCPSender.sendFin
  rw [h.stream_eq, h.finSent_eq, h.window_eq]
  split
  · refine Shifted.sendNewSegment ?_ (by decide) (by decide)
    exact { h with stream_eq := rfl, window_eq := rfl, finSent_eq := rfl }
  · exact h

theorem Shifted.fillWindow {s₁ s₂ : TCPSender} (h : Shifted s₁ s₂) :
    Shifted s₁.fillWindow s₂.fillWindow := by
  unfold TCPSender.fillWindow
  simp only [h.sendSyn.window_eq, h.sendSyn.stream_eq]
  split
  · exact h.sendSyn
  · exact (h.sendSyn.fillLoop _).sendFin

-- ============================================================================
-- Acknowledgements
-- ============================================================================

theorem acknoRight_add (isn : WrappingInt32) (k : UInt32) (w : UInt16) :
    acknoRight (isn + k) w = (isn + (k + w.toUInt32)).rawValue.toNat := by
  show (isn.rawValue + k + w.toUInt32).toNat = (isn.rawValue + (k + w.toUInt32)).toNat
  rw [UInt32.add_assoc]

theorem Shifted.accepts_iff {s₁ s₂ : TCPSender} (h : Shifted s₁ s₂) {k : UInt32}
    (hk : WrapsAlike s₁.isn s₂.isn k)
    (hnext : WrapsAlike s₁.isn s₂.isn (UInt32.ofNat s₁.nextSeqnoAbsolute)) :
    s₁.Accepts (s₁.isn + k) ↔ s₂.Accepts (s₂.isn + k) := by
  have hknext := hk.sameDistance.le_iff hnext
  rw [TCPSender.accepts_iff, TCPSender.accepts_iff, nextSeqno, nextSeqno, h.next_eq,
    h.highest.le_iff hk]
  simp only [wrap]
  omega

theorem dropWhile_map_of_mem {α β : Type} {f : α → β} {p : β → Bool} {q : α → Bool} {l : List α}
    (h : ∀ x ∈ l, p (f x) = q x) : (l.map f).dropWhile p = (l.dropWhile q).map f := by
  induction l with
  | nil => rfl
  | cons x xs ih =>
      obtain ⟨hx, hxs⟩ := List.forall_mem_cons.mp h
      simp only [List.map_cons, List.dropWhile_cons, hx]
      split
      · exact ih hxs
      · rfl

/-- The release loop stops at the same segment. -/
theorem Shifted.releaseAcknowledged {s₁ s₂ : TCPSender} (h : Shifted s₁ s₂)
    (halike : OutstandingAlike s₁ s₂) {k : UInt32} (hk : WrapsAlike s₁.isn s₂.isn k) :
    Shifted (s₁.releaseAcknowledged (s₁.isn + k)) (s₂.releaseAcknowledged (s₂.isn + k)) := by
  have hsame : ∀ seg ∈ s₁.outstandingSegments,
      isAcknowledged (s₂.isn + k) (translate s₁.isn s₂.isn seg) =
        isAcknowledged (s₁.isn + k) seg := by
    intro seg hseg
    have hpos := s₁.outstanding_pos seg hseg
    have hpos₂ : 0 < (translate s₁.isn s₂.isn seg).lengthInSequenceSpace := hpos
    have hstart := (halike seg hseg).rawStart_sub_eq
    have hsub := hk.sub_eq
    rw [Bool.eq_iff_iff, isAcknowledged_iff hpos₂, isAcknowledged_iff hpos, translate_length]
    omega
  have hout : s₂.outstandingSegments.dropWhile (isAcknowledged (s₂.isn + k)) =
      (s₁.outstandingSegments.dropWhile (isAcknowledged (s₁.isn + k))).map
        (translate s₁.isn s₂.isn) := by
    rw [h.outstanding_eq halike, dropWhile_map_of_mem hsame]
  -- what is left is sorted and wraps alike, so it stands for itself
  have hleft : inserted (s₁.outstandingSegments.dropWhile (isAcknowledged (s₁.isn + k))) =
      s₁.outstandingSegments.dropWhile (isAcknowledged (s₁.isn + k)) := by
    obtain ⟨segs, h₁, -⟩ := h.outstanding
    refine inserted_eq_self (List.Pairwise.sublist (List.dropWhile_sublist _) ?_)
    rw [h₁]
    exact inserted_sorted segs
  refine { h with outstanding := ⟨_, hleft.symm, ?_⟩ }
  show s₂.outstandingSegments.dropWhile _ = inserted (List.map (translate s₁.isn s₂.isn) _)
  rw [hout, inserted_translate fun seg hseg => halike seg (List.dropWhile_subset _ hseg), hleft]

theorem Shifted.updateWindow {s₁ s₂ : TCPSender} (h : Shifted s₁ s₂) {k : UInt32} {w : UInt16}
    (hright : w ≠ 0 → WrapsAlike s₁.isn s₂.isn (k + w.toUInt32)) :
    Shifted (s₁.updateWindow (s₁.isn + k) w) (s₂.updateWindow (s₂.isn + k) w) := by
  unfold TCPSender.updateWindow
  by_cases hw : w = 0
  · rw [if_pos hw, if_pos hw]
    exact { h with window_eq := rfl, windowEmpty_eq := rfl }
  · have hiff := h.right.lt_iff (hright hw)
    rw [if_neg hw, if_neg hw]
    simp only [acknoRight_add, gt_iff_lt]
    by_cases hr : s₁.highestAcknoRight < (s₁.isn + (k + w.toUInt32)).rawValue.toNat
    · rw [if_pos hr, if_pos (hiff.mp hr)]
      exact
        { h with
          window_eq := rfl
          windowEmpty_eq := rfl
          right := (hright hw).sameDistance }
    · rw [if_neg hr, if_neg fun hr' => hr (hiff.mpr hr')]
      exact h

theorem Shifted.resetTimer {s₁ s₂ : TCPSender} (h : Shifted s₁ s₂) {k : UInt32}
    (hk : WrapsAlike s₁.isn s₂.isn k) :
    Shifted (s₁.resetTimer (s₁.isn + k)) (s₂.resetTimer (s₂.isn + k)) := by
  have hiff := h.highest.lt_iff hk
  unfold TCPSender.resetTimer
  by_cases hnew : ((s₁.isn + k).rawValue.toNat : Int) > s₁.highestAckno
  · rw [if_pos hnew, if_pos (hiff.mp hnew)]
    exact
      { h with
        timeout_eq := h.initial_eq
        timer_eq := rfl
        timerOn_eq := by rw [h.isEmpty_eq]
        retransmissions_eq := rfl
        highest := hk.sameDistance }
  · rw [if_neg hnew, if_neg fun hnew' => hnew (hiff.mpr hnew')]
    exact h

theorem updateWindow_isn (s : TCPSender) (ackno : WrappingInt32) (w : UInt16) :
    (s.updateWindow ackno w).isn = s.isn := by
  unfold updateWindow
  split_ifs <;> rfl

theorem Shifted.acknowledge {s₁ s₂ : TCPSender} (h : Shifted s₁ s₂)
    (halike : OutstandingAlike s₁ s₂) {k : UInt32} {w : UInt16} (hk : WrapsAlike s₁.isn s₂.isn k)
    (hright : w ≠ 0 → WrapsAlike s₁.isn s₂.isn (k + w.toUInt32)) :
    Shifted (s₁.acknowledge (s₁.isn + k) w) (s₂.acknowledge (s₂.isn + k) w) := by
  have hrel := h.releaseAcknowledged halike hk
  have hwin : Shifted ((s₁.releaseAcknowledged (s₁.isn + k)).updateWindow (s₁.isn + k) w)
      ((s₂.releaseAcknowledged (s₂.isn + k)).updateWindow (s₂.isn + k) w) :=
    hrel.updateWindow hright
  have hres := hwin.resetTimer (k := k)
  rw [updateWindow_isn, updateWindow_isn] at hres
  exact hres hk

-- ============================================================================
-- Time
-- ============================================================================

theorem Shifted.retransmit {s₁ s₂ : TCPSender} (h : Shifted s₁ s₂) (seg : TCPSegment) :
    Shifted (s₁.retransmit seg) (s₂.retransmit (translate s₁.isn s₂.isn seg)) := by
  have hout : s₂.segmentsOut ++ [translate s₁.isn s₂.isn seg] =
      (s₁.segmentsOut ++ [seg]).map (translate s₁.isn s₂.isn) := by
    rw [h.segmentsOut_eq, List.map_append]
    rfl
  unfold TCPSender.retransmit
  simp only [h.windowEmpty_eq]
  split
  · exact { h with segmentsOut_eq := hout, timer_eq := rfl, windowEmpty_eq := rfl }
  · exact
      { h with
        segmentsOut_eq := hout
        timer_eq := rfl
        timeout_eq := congrArg (· * 2) h.timeout_eq
        retransmissions_eq := congrArg (· + 1) h.retransmissions_eq
        windowEmpty_eq := rfl }

theorem Shifted.tick {s₁ s₂ : TCPSender} (h : Shifted s₁ s₂) {ms : Nat}
    (halike : s₁.Expires ms → OutstandingAlike s₁ s₂) :
    Shifted (s₁.tick ms) (s₂.tick ms) := by
  have hadv : Shifted (s₁.advanceTimer ms) (s₂.advanceTimer ms) :=
    { h with timer_eq := by simp only [advanceTimer, h.timer_eq] }
  have hexp : s₂.Expires ms ↔ s₁.Expires ms := by
    unfold Expires
    rw [h.timerOn_eq, h.retransmissions_eq, h.isEmpty_eq, h.timeout_eq, h.timer_eq]
  by_cases hex : s₁.Expires ms
  · obtain ⟨seg, hseg, htick⟩ := tick_of_expires hex
    obtain ⟨seg', hseg', htick'⟩ := tick_of_expires (hexp.mpr hex)
    rw [h.outstanding_eq (halike hex), List.head?_map, hseg] at hseg'
    obtain rfl := Option.some.inj hseg'
    rw [htick, htick']
    exact hadv.retransmit seg
  · rw [tick_of_not_expires hex, tick_of_not_expires fun h' => hex (hexp.mp h'), h.timerOn_eq,
      h.retransmissions_eq]
    split
    · exact h
    · exact hadv

-- ============================================================================
-- Two runs
-- ============================================================================

/-- An operation on both senders; acknowledgements are given by their distance
    from the initial sequence number. -/
inductive Move
  | write (data : List UInt8)
  | endInput
  | fillWindow
  | ackReceived (k : UInt32) (windowSize : UInt16)
  | tick (msSinceLastTick : Nat)

/-- The operation on the sender that starts at `isn`. -/
def Move.toOp (isn : WrappingInt32) : Move → Op
  | .write data => .write data
  | .endInput => .endInput
  | .fillWindow => .fillWindow
  | .ackReceived k windowSize => .ackReceived (isn + k) windowSize
  | .tick ms => .tick ms

/-- One operation on two senders. -/
def pairStep (p : TCPSender × TCPSender) (m : Move) : Option (TCPSender × TCPSender) :=
  some (p.1.step (m.toOp p.1.isn), p.2.step (m.toOp p.2.isn))

/-- The two senders look alike up to the translation of sequence numbers. -/
structure Translated (s₁ s₂ : TCPSender) : Prop where
  next_eq : s₁.nextSeqnoAbsolute = s₂.nextSeqnoAbsolute
  inFlight_eq : s₁.bytesInFlight = s₂.bytesInFlight
  retransmissions_eq : s₁.consecutiveRetransmissions = s₂.consecutiveRetransmissions
  segmentsOut_eq : s₂.segmentsOut = s₁.segmentsOut.map (translate s₁.isn s₂.isn)

/-- What the operation compares wraps for both senders or for neither: an
    acknowledgement that one of them accepts, its right edge, the next sequence number
    and the numbers of the outstanding segments; for a tick that retransmits, the
    numbers of the outstanding segments. -/
def ComparesAlike (p : TCPSender × TCPSender) : Move → Prop
  | .ackReceived k w =>
      p.1.Accepts (p.1.isn + k) ∨ p.2.Accepts (p.2.isn + k) →
        WrapsAlike p.1.isn p.2.isn k ∧
        WrapsAlike p.1.isn p.2.isn (UInt32.ofNat p.1.nextSeqnoAbsolute) ∧
        (w ≠ 0 → WrapsAlike p.1.isn p.2.isn (k + w.toUInt32)) ∧
        OutstandingAlike p.1 p.2
  | .tick ms => p.1.Expires ms → OutstandingAlike p.1 p.2
  | _ => True

instance (p : TCPSender × TCPSender) : ∀ m, Decidable (ComparesAlike p m)
  | .ackReceived _ _ => inferInstanceAs (Decidable (_ → _))
  | .tick _ => inferInstanceAs (Decidable (_ → _))
  | .write _ | .endInput | .fillWindow => isTrue trivial

theorem Shifted.ackReceived {s₁ s₂ : TCPSender} (h : Shifted s₁ s₂) {k : UInt32} {w : UInt16}
    (halike : ComparesAlike (s₁, s₂) (.ackReceived k w)) :
    Shifted (s₁.ackReceived (s₁.isn + k) w) (s₂.ackReceived (s₂.isn + k) w) := by
  unfold TCPSender.ackReceived
  by_cases hacc : s₁.Accepts (s₁.isn + k) ∨ s₂.Accepts (s₂.isn + k)
  · obtain ⟨hk, hnext, hright, hout⟩ := halike hacc
    have hiff := h.accepts_iff hk hnext
    have hacc₁ : s₁.Accepts (s₁.isn + k) := hacc.elim id hiff.mpr
    rw [if_pos hacc₁, if_pos (hiff.mp hacc₁)]
    exact (h.acknowledge hout hk hright).fillWindow
  · rw [not_or] at hacc
    rw [if_neg hacc.1, if_neg hacc.2]
    exact h

theorem Shifted.pairStep {s₁ s₂ : TCPSender} (h : Shifted s₁ s₂) {m : Move}
    (halike : ComparesAlike (s₁, s₂) m) :
    Shifted (s₁.step (m.toOp s₁.isn)) (s₂.step (m.toOp s₂.isn)) := by
  cases m with
  | write data => exact { h with stream_eq := congrArg (fun s => (s.write data).2) h.stream_eq }
  | endInput => exact { h with stream_eq := congrArg ByteStream.endInput h.stream_eq }
  | fillWindow => exact h.fillWindow
  | ackReceived k w => exact h.ackReceived halike
  | tick ms => exact h.tick halike

/-- **Independence of the initial sequence number.**  Two senders that differ only
    in their initial sequence number look alike in every state of every run in
    which the numbers they compare wrap for both or for neither. -/
theorem translated_of_wrapsAlike (capacity : UInt64) (retxTimeout : UInt16)
    (isn₁ isn₂ : WrappingInt32) {moves : List Move} {p : TCPSender × TCPSender}
    (hrun : Run (Guarded ComparesAlike pairStep)
      (new capacity retxTimeout isn₁, new capacity retxTimeout isn₂) moves p) :
    Translated p.1 p.2 := by
  have h : Shifted p.1 p.2 := by
    refine hrun.invariant (I := fun p => Shifted p.1 p.2) (shifted_new ..) ?_
    rintro q m _ hq ⟨halike, hs⟩
    obtain rfl := Option.some.inj hs
    exact hq.pairStep halike
  exact ⟨h.next_eq.symm, h.inFlight_eq.symm, h.retransmissions_eq.symm, h.segmentsOut_eq⟩

/-- The acknowledgement of the SYN releases it at the initial sequence number 0, but
    not at `2^32 - 1`, where the acknowledgement wraps to 0. -/
theorem translated_fails :
    ¬ ∀ (capacity : UInt64) (retxTimeout : UInt16) (isn₁ isn₂ : WrappingInt32)
      (moves : List Move) (p : TCPSender × TCPSender),
      Run (Guarded (fun _ _ => True) pairStep)
        (new capacity retxTimeout isn₁, new capacity retxTimeout isn₂) moves p →
      Translated p.1 p.2 := by
  intro h
  have hrun := Run.of_exec (fun _ _ => True) pairStep
    (new 16 1000 ⟨0⟩, new 16 1000 ⟨4294967295⟩) [.fillWindow, .ackReceived 1 1] (by decide)
  exact absurd (h _ _ _ _ _ _ hrun).inFlight_eq (by decide)

/-- A transfer with a retransmission, at the initial sequence numbers 0 and 1000. -/
theorem translated_of_wrapsAlike_transfer :
    ∃ p, Run (Guarded ComparesAlike pairStep) (new 16 1000 ⟨0⟩, new 16 1000 ⟨1000⟩)
        [.fillWindow, .ackReceived 1 4, .write [97, 98, 99], .fillWindow, .tick 1000,
          .ackReceived 4 4] p ∧
      Translated p.1 p.2 :=
  have hrun := Run.of_exec ComparesAlike pairStep (new 16 1000 ⟨0⟩, new 16 1000 ⟨1000⟩)
    [.fillWindow, .ackReceived 1 4, .write [97, 98, 99], .fillWindow, .tick 1000,
      .ackReceived 4 4] (by decide)
  ⟨_, hrun, translated_of_wrapsAlike 16 1000 ⟨0⟩ ⟨1000⟩ hrun⟩

end TCPSender

end Sponge
