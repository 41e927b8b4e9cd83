/-
  Sponge.TcpSender.FlowControl

  How far a sender sends.

  `_window_size` is what is left of the window: sending takes from it, and an
  acknowledgement overwrites it with the advertised size.  That size counts from
  the acknowledgement, not from what was sent since, so a window that grows while
  data is in flight lets the sender run past every edge it was ever given
  (`flowControl_fails`).  It never does in a run whose acknowledgements, whenever
  they overwrite the window, leave room for what is in flight
  (`flowControl_of_leavesRoom`).
-/

import Sponge.TcpSender.Trace

namespace Sponge

open Lib (Run Guarded)

namespace TCPSender

/-- The right edge an acknowledgement grants; a window of 0 counts as 1. -/
def Ack.edge (ack : Ack) : Nat := ack.absolute + max ack.windowSize.toNat 1

/-- The farthest edge granted so far, 0 before the first acknowledgement. -/
def maxEdge (acks : List Ack) : Nat := acks.foldr (fun ack m => max ack.edge m) 0

theorem maxEdge_append (acks : List Ack) (ack : Ack) :
    maxEdge (acks ++ [ack]) = max (maxEdge acks) ack.edge := by
  induction acks with
  | nil => simp [maxEdge]
  | cons a acks ih =>
      simp only [maxEdge, List.cons_append, List.foldr_cons] at ih ⊢
      omega

end TCPSender

namespace SenderTrace

open TCPSender

/-- Every segment sent for the first time, the SYN apart, ends within the farthest
    edge granted. -/
def FlowControl (t : SenderTrace) : Prop :=
  ∀ before seg behind, t.firstTime = before ++ seg :: behind → seg.header.syn = false →
    (wire before).length + seg.lengthInSequenceSpace ≤ maxEdge t.accepted

/-- An acknowledgement that overwrites the window leaves room for what is in
    flight: counted from the next position, the new window stays within the
    farthest edge granted. -/
def LeavesRoom (t : SenderTrace) : Op → Prop
  | .ackReceived ackno w =>
      t.sender.Accepts ackno → (w = 0 ∨ (acknoRight ackno w : Int) > t.sender.highestAcknoRight) →
        t.sender.nextSeqnoAbsolute + max w.toNat 1 ≤
          max (maxEdge t.accepted) (t.sender.absolute ackno + max w.toNat 1)
  | _ => True

instance (t : SenderTrace) : ∀ op, Decidable (t.LeavesRoom op)
  | .ackReceived _ _ => inferInstanceAs (Decidable (_ → _ → _))
  | .write _ | .endInput | .setError | .fillWindow | .tick _ | .sendEmptySegment
  | .drain => isTrue trivial

-- ============================================================================
-- The remaining window stays within the edge
-- ============================================================================

/-- What is left of the window ends within the farthest edge; before the first
    acknowledgement there is only room for the SYN. -/
def WithinEdge (t : SenderTrace) : Prop :=
  t.sender.windowSize = 0 ∨
  t.sender.nextSeqnoAbsolute + t.sender.windowSize ≤ maxEdge t.accepted ∨
  (t.sender.nextSeqnoAbsolute = 0 ∧ t.sender.windowSize = 1)

/-- The invariant: flow control so far, and room for what comes next. -/
structure FlowInv (t : SenderTrace) : Prop where
  tiles : Tiles t.sender.isn 0 t.firstTime t.sender.nextSeqnoAbsolute
  within : t.WithinEdge
  ends : t.FlowControl

theorem flowInv_new (capacity : UInt64) (retxTimeout : UInt16) (isn : WrappingInt32) :
    (new capacity retxTimeout isn).FlowInv where
  tiles := rfl
  within := Or.inr (Or.inr ⟨rfl, rfl⟩)
  ends := by simp [FlowControl, new]

theorem FlowInv.acknowledge {t : SenderTrace} (h : t.FlowInv) {ackno : WrappingInt32}
    (hacc : t.sender.Accepts ackno) (w : UInt16) (hroom : t.LeavesRoom (.ackReceived ackno w)) :
    (t.direct (.ackReceived ackno w)).FlowInv := by
  have hroom' := hroom hacc
  rw [direct_ackReceived t hacc]
  have hedge := maxEdge_append t.accepted ⟨ackno, w, t.sender.absolute ackno⟩
  simp only [Ack.edge] at hedge
  refine ⟨by simpa using h.tiles, ?_, fun before seg behind hsplit hsyn => ?_⟩
  · unfold WithinEdge
    simp only [acknowledge_windowSize, acknowledge_nextSeqnoAbsolute, hedge]
    split_ifs with hzero hright
    · have := hroom' (Or.inl hzero)
      simp only [hzero, UInt16.toNat_zero] at this ⊢
      omega
    · have := hroom' (Or.inr hright)
      omega
    · have := h.within
      unfold WithinEdge at this
      omega
  · have := h.ends before seg behind hsplit hsyn
    simp only [hedge]
    omega

theorem FlowInv.direct {t : SenderTrace} (h : t.FlowInv) {op : Op} (hop : t.LeavesRoom op) :
    (t.direct op).FlowInv := by
  by_cases hack : ∃ ackno w, op = .ackReceived ackno w
  · obtain ⟨ackno, w, rfl⟩ := hack
    by_cases hacc : t.sender.Accepts ackno
    · exact h.acknowledge hacc w hop
    · rwa [direct_ackReceived_of_not t hacc]
  · push Not at hack
    obtain ⟨haccepted, -, -, -, -, hwin⟩ := t.direct_window hack
    refine ⟨by simpa using h.tiles, ?_, ?_⟩
    · simpa [WithinEdge, haccepted, hwin] using h.within
    · simpa [FlowControl, haccepted] using h.ends

theorem FlowInv.emit {t : SenderTrace} (h : t.FlowInv) {seg : TCPSegment} {s : TCPSender}
    (he : Emit t.sender seg s) : (t.sent [seg] s).FlowInv := by
  obtain ⟨hf⟩ := he
  have hpos := hf.pos
  have hwithin := h.within
  unfold WithinEdge at hwithin
  have hend : seg.header.syn = false →
      t.sender.nextSeqnoAbsolute + seg.lengthInSequenceSpace ≤ maxEdge t.accepted := by
    intro hsyn
    have hle := hf.window_le hsyn
    have hnext := hf.syn_iff.not.mp (by simp [hsyn])
    omega
  refine ⟨h.tiles.append (Tiles.singleton hf.seqno_eq), ?_, ?_⟩
  · unfold WithinEdge
    simp only [sent, afterSend_windowSize, afterSend_nextSeqnoAbsolute]
    by_cases hsyn : seg.header.syn = true
    · obtain ⟨hpay, hfin⟩ := hf.syn_bare hsyn
      have hlen : seg.lengthInSequenceSpace = 1 := by
        simp [TCPSegment.lengthInSequenceSpace, hpay, hfin, hsyn]
      omega
    · rw [Bool.not_eq_true] at hsyn
      have hle := hf.window_le hsyn
      have hnext := hf.syn_iff.not.mp (by simp [hsyn])
      omega
  · intro before x behind hsplit hsyn
    show _ ≤ maxEdge t.accepted
    -- the new segment is the last one, or the split is one of the old segments
    simp only [sent] at hsplit
    rcases List.eq_nil_or_concat behind with rfl | ⟨rest, y, rfl⟩
    · obtain ⟨rfl, hx⟩ := List.append_inj' hsplit rfl
      obtain rfl : seg = x := by simpa using hx
      have hlen := h.tiles.wire_length
      have := hend hsyn
      omega
    · rw [List.concat_eq_append, ← List.cons_append, ← List.append_assoc] at hsplit
      obtain ⟨hold, -⟩ := List.append_inj' hsplit rfl
      exact h.ends before x rest hold hsyn

-- ============================================================================
-- Whole runs
-- ============================================================================

/-- **Flow control.**  In every run whose acknowledgements leave room for what is
    in flight whenever they overwrite the window, every segment sent for the first
    time, the SYN apart, ends within the farthest edge granted. -/
theorem flowControl_of_leavesRoom (capacity : UInt64) (retxTimeout : UInt16) (isn : WrappingInt32)
    {ops : List Op} {t : SenderTrace}
    (hrun : Run (Guarded LeavesRoom step) (new capacity retxTimeout isn) ops t) :
    t.FlowControl :=
  (SenderTrace.invariant (I := FlowInv) hrun (flowInv_new ..) (fun _ _ hop h => h.direct hop)
    (fun _ _ _ h he => h.emit he)).ends

/-- Four bytes fill the granted window; a second acknowledgement of the same
    position with a window of 5 lets five more out, up to 10 instead of 6. -/
def windowGrows : List Op :=
  [.fillWindow, .ackReceived ⟨1⟩ 4, .write [0, 1, 2, 3, 4, 5, 6, 7, 8], .fillWindow,
    .ackReceived ⟨1⟩ 5]

theorem flowControl_fails :
    ¬ ∀ (capacity : UInt64) (retxTimeout : UInt16) (isn : WrappingInt32) (ops : List Op)
      (t : SenderTrace),
      Run (Guarded (fun _ _ => True) step) (new capacity retxTimeout isn) ops t →
        t.FlowControl := by
  intro h
  have hrun := Run.of_exec (fun _ _ => True) step (new 16 1000 ⟨0⟩) windowGrows (by decide)
  have hends := h _ _ _ _ _ hrun
    [{ header := { seqno := ⟨0⟩, syn := true } },
      { header := { seqno := ⟨1⟩ }, payload := [0, 1, 2, 3] }]
    { header := { seqno := ⟨5⟩ }, payload := [4, 5, 6, 7, 8] } [] (by decide) rfl
  exact absurd hends (by decide)

/-- The same transfer with the first four bytes acknowledged before the window
    grows. -/
theorem flowControl_of_leavesRoom_acked :
    ∃ t, Run (Guarded LeavesRoom step) (new 16 1000 ⟨0⟩)
        [.fillWindow, .ackReceived ⟨1⟩ 4, .write [0, 1, 2, 3, 4, 5, 6, 7, 8], .fillWindow,
          .ackReceived ⟨5⟩ 5] t ∧
      t.sender.nextSeqnoAbsolute = 10 ∧ t.FlowControl :=
  have hrun := Run.of_exec LeavesRoom step (new 16 1000 ⟨0⟩)
    [.fillWindow, .ackReceived ⟨1⟩ 4, .write [0, 1, 2, 3, 4, 5, 6, 7, 8], .fillWindow,
      .ackReceived ⟨5⟩ 5] (by decide)
  ⟨_, hrun, by decide, flowControl_of_leavesRoom 16 1000 ⟨0⟩ hrun⟩

end SenderTrace

end Sponge
