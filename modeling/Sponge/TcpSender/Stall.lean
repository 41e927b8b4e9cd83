/-
  Sponge.TcpSender.Stall

  What a sender still has to send, and when it stops sending.

  After `fill_window` the window is used up or nothing is left to send (`Filled`), and
  filling again changes nothing.  A sender with something to send and nothing in
  flight is stuck: no acknowledgement is due that would move it on.  Only an
  acknowledgement that covers everything in flight and leaves a used-up window as it
  is (`StallsOn`) brings a sender there (`ackReceived_stuck_iff`).
-/

import Mathlib.Data.List.TakeWhile
import Sponge.TcpSender.Fill

namespace Sponge

namespace TCPSender

-- ============================================================================
-- Senders with nothing in flight
-- ============================================================================

/-- There are bytes, or a FIN, that were not sent yet. -/
def Unsent (s : TCPSender) : Prop :=
  s.stream.buffer ≠ [] ∨ s.stream.inputEnded = true ∧ s.finSent = false

instance (s : TCPSender) : Decidable s.Unsent := inferInstanceAs (Decidable (_ ∨ _))

/-- Nothing is in flight, and something waits to be sent. -/
def Stuck (s : TCPSender) : Prop := s.outstandingSegments = [] ∧ s.Unsent

instance (s : TCPSender) : Decidable s.Stuck :=
  decidable_of_iff (s.outstandingSegments.isEmpty = true ∧ s.Unsent) (by simp [Stuck])

/-- The acknowledgement covers everything in flight and leaves the window as it is,
    which is used up. -/
def StallsOn (s : TCPSender) (ackno : WrappingInt32) (w : UInt16) : Prop :=
  w ≠ 0 ∧ (acknoRight ackno w : Int) ≤ s.highestAcknoRight ∧ s.windowSize = 0 ∧
    s.outstandingSegments.all (isAcknowledged ackno) = true

instance (s : TCPSender) (ackno : WrappingInt32) (w : UInt16) : Decidable (s.StallsOn ackno w) :=
  inferInstanceAs (Decidable (_ ∧ _))

/-- The segment's acknowledgement leaves something unsent and nothing in flight; without
    one that is accepted, the sender is so already. -/
def StuckAfter (s : TCPSender) (seg : TCPSegment) : Prop :=
  if seg.header.ack = true ∧ s.Accepts seg.header.ackno then
    s.Unsent ∧ s.StallsOn seg.header.ackno seg.header.win
  else s.Stuck

instance (s : TCPSender) (seg : TCPSegment) : Decidable (s.StuckAfter seg) :=
  inferInstanceAs (Decidable (if seg.header.ack = true ∧ s.Accepts seg.header.ackno then
    s.Unsent ∧ s.StallsOn seg.header.ackno seg.header.win else s.Stuck))

/-- What can be sent has been sent. -/
def Filled (s : TCPSender) : Prop := 0 < s.nextSeqnoAbsolute → s.windowSize = 0 ∨ ¬ s.Unsent

/-- The senders agree on what was sent and what is left to send. -/
structure Alike (s u : TCPSender) : Prop where
  next_eq : u.nextSeqnoAbsolute = s.nextSeqnoAbsolute
  outstanding_eq : u.outstandingSegments = s.outstandingSegments
  fin_eq : u.finSent = s.finSent
  buffer_eq : u.stream.buffer = s.stream.buffer
  ended_eq : u.stream.inputEnded = s.stream.inputEnded

namespace Alike

variable {s u v : TCPSender}

theorem refl : s.Alike s := ⟨rfl, rfl, rfl, rfl, rfl⟩

theorem trans (h : s.Alike u) (h' : u.Alike v) : s.Alike v where
  next_eq := h'.next_eq.trans h.next_eq
  outstanding_eq := h'.outstanding_eq.trans h.outstanding_eq
  fin_eq := h'.fin_eq.trans h.fin_eq
  buffer_eq := h'.buffer_eq.trans h.buffer_eq
  ended_eq := h'.ended_eq.trans h.ended_eq

theorem symm (h : s.Alike u) : u.Alike s where
  next_eq := h.next_eq.symm
  outstanding_eq := h.outstanding_eq.symm
  fin_eq := h.fin_eq.symm
  buffer_eq := h.buffer_eq.symm
  ended_eq := h.ended_eq.symm

theorem unsent_iff (h : s.Alike u) : u.Unsent ↔ s.Unsent := by
  unfold Unsent
  rw [h.buffer_eq, h.ended_eq, h.fin_eq]

end Alike

theorem drain_alike (s : TCPSender) : s.Alike s.drain :=
  ⟨rfl, rfl, rfl, rfl, rfl⟩

theorem sendEmptySegment_alike (s : TCPSender) : s.Alike s.sendEmptySegment :=
  ⟨rfl, rfl, rfl, rfl, rfl⟩

theorem setStreamError_alike (s : TCPSender) : s.Alike s.setStreamError :=
  ⟨rfl, rfl, rfl, rfl, rfl⟩

theorem tick_alike (s : TCPSender) (ms : Nat) : s.Alike (s.tick ms) := by
  obtain ⟨segs, timer, timeout, retransmissions, -, heq⟩ := s.tick_eq ms
  rw [heq]
  exact ⟨rfl, rfl, rfl, rfl, rfl⟩

/-- A write that accepts nothing. -/
theorem writeStream_alike {s : TCPSender} {data : List UInt8}
    (h : s.stream.bytesToWrite data = 0) : s.Alike (s.writeStream data) where
  next_eq := rfl
  outstanding_eq := rfl
  fin_eq := rfl
  buffer_eq := by simp [writeStream, h]
  ended_eq := rfl

/-- Ending the input again. -/
theorem endStream_alike {s : TCPSender} (h : s.stream.inputEnded = true) : s.Alike s.endStream where
  next_eq := rfl
  outstanding_eq := rfl
  fin_eq := rfl
  buffer_eq := rfl
  ended_eq := h.symm

-- ============================================================================
-- Filling the window
-- ============================================================================

theorem fillWindow_filled (s : TCPSender) : s.fillWindow.Filled := by
  intro _
  rcases s.fillWindow_full with hwin | ⟨hbuf, hfin⟩
  · exact Or.inl hwin
  · refine Or.inr ?_
    rintro (hne | ⟨hended, hnot⟩)
    · exact hne hbuf
    · rw [hfin hended] at hnot
      cases hnot

/-- `fill_window` sends something, and then something is in flight, or it changes
    nothing. -/
theorem fillWindow_sends (s : TCPSender) :
    s.fillWindow = s ∨ s.fillWindow.outstandingSegments ≠ [] := by
  obtain ⟨-, segs, hrun⟩ := s.fillWindow_run
  generalize s.fillWindow = u at hrun
  cases hrun with
  | nil => exact Or.inl rfl
  | @snoc _ t e _ _ he =>
      obtain ⟨hf⟩ := he
      refine Or.inr fun hnil => ?_
      have hmem : e ∈ insertOutstanding e t.outstandingSegments :=
        mem_insertOutstanding.mpr (Or.inl rfl)
      rw [afterSend_outstandingSegments] at hnil
      rw [hnil] at hmem
      cases hmem

/-- A sender that has sent what it could stays as it is. -/
theorem Filled.fillWindow_eq {s : TCPSender} (h : s.Filled) (hnext : 0 < s.nextSeqnoAbsolute) :
    s.fillWindow = s := by
  have hsyn : s.sendSyn = s := if_neg (by omega)
  unfold fillWindow
  simp only [hsyn]
  by_cases hwin : s.windowSize = 0
  · rw [if_pos hwin]
  · rw [if_neg hwin]
    have hnot := (h hnext).resolve_left hwin
    have hbuf : s.stream.buffer = [] := by
      by_contra hne
      exact hnot (Or.inl hne)
    have hloop : fillLoop s.stream.bufferSize s = s := by
      rw [show s.stream.bufferSize = 0 by simp [ByteStream.bufferSize, hbuf]]
      rfl
    rw [hloop]
    refine if_neg ?_
    rintro ⟨heof, hfin, -⟩
    exact hnot (Or.inr ⟨((s.stream.eof_iff).mp heof).1, hfin⟩)

/-- Behind the FIN everything goes out that the window has room for. -/
theorem fillWindow_drains {s : TCPSender} (hnext : 0 < s.nextSeqnoAbsolute)
    (hfin : s.finSent = true) (hfit : s.stream.buffer.length ≤ s.windowSize) :
    s.fillWindow.stream.buffer = [] := by
  obtain ⟨-, segs, hrun⟩ := s.fillWindow_run
  have hinv : 0 < s.fillWindow.nextSeqnoAbsolute ∧ s.fillWindow.finSent = true ∧
      s.fillWindow.stream.buffer.length ≤ s.fillWindow.windowSize := by
    refine hrun.invariant (I := fun u => 0 < u.nextSeqnoAbsolute ∧ u.finSent = true ∧
      u.stream.buffer.length ≤ u.windowSize) ⟨hnext, hfin, hfit⟩ ?_
    rintro t seg u ⟨hpos, hsent, hle⟩ hemit
    have hgrows := hemit.nextSeqnoAbsolute_lt
    have hbuf := hemit.buffer_length_le
    obtain ⟨hf⟩ := hemit
    -- a segment behind the FIN has only its payload
    have hsyn : seg.header.syn = false := by
      by_contra hsyn
      have hzero := hf.syn_iff.mp (by simpa using hsyn)
      omega
    have hnofin : seg.header.fin = false := by
      by_contra hfin'
      have hunsent := (hf.fin_ok (by simpa using hfin')).1
      rw [hsent] at hunsent
      cases hunsent
    have hlen : seg.lengthInSequenceSpace = seg.payload.length := by
      simp [TCPSegment.lengthInSequenceSpace, hsyn, hnofin]
    refine ⟨by omega, ?_, ?_⟩
    · show (t.finSent || seg.header.fin) = true
      rw [hsent, Bool.true_or]
    · rw [afterSend_windowSize, hlen]
      omega
  rcases s.fillWindow_full with hwin | ⟨hbuf, -⟩
  · exact List.length_eq_zero_iff.mp (by omega)
  · exact hbuf

/-- Filling the window leaves a sender stuck that is so already and has no window. -/
theorem fillWindow_stuck_iff {s : TCPSender} (hnext : 0 < s.nextSeqnoAbsolute) :
    s.fillWindow.Stuck ↔ s.Stuck ∧ s.windowSize = 0 := by
  constructor
  · intro hstuck
    have heq := s.fillWindow_sends.resolve_right (not_not_intro hstuck.1)
    have hfull := s.fillWindow_filled
    rw [heq] at hstuck hfull
    exact ⟨hstuck, (hfull hnext).resolve_right (not_not_intro hstuck.2)⟩
  · rintro ⟨hstuck, hwin⟩
    rwa [Filled.fillWindow_eq (fun _ => Or.inl hwin) hnext]

theorem acknowledge_windowSize_eq_zero_iff {s : TCPSender} {ackno : WrappingInt32} {w : UInt16} :
    (s.acknowledge ackno w).windowSize = 0 ↔
      w ≠ 0 ∧ (acknoRight ackno w : Int) ≤ s.highestAcknoRight ∧ s.windowSize = 0 := by
  rw [acknowledge_windowSize]
  by_cases hw : w = 0
  · simp [hw]
  · rw [if_neg hw]
    have hpos : w.toNat ≠ 0 := fun h => hw (UInt16.toNat_inj.mp h)
    split <;> simp [hw, hpos] <;> omega

/-- An acknowledgement that is accepted leaves a sender stuck if it stalls on it. -/
theorem ackReceived_stuck_iff {s : TCPSender} (hnext : 0 < s.nextSeqnoAbsolute)
    {ackno : WrappingInt32} (hacc : s.Accepts ackno) (w : UInt16) :
    (s.ackReceived ackno w).Stuck ↔ s.Unsent ∧ s.StallsOn ackno w := by
  have hunsent : (s.acknowledge ackno w).Unsent ↔ s.Unsent := by simp [Unsent]
  have hall : (s.acknowledge ackno w).outstandingSegments = [] ↔
      s.outstandingSegments.all (isAcknowledged ackno) = true := by
    rw [acknowledge_outstandingSegments, List.dropWhile_eq_nil_iff, List.all_eq_true]
  unfold ackReceived
  rw [if_pos hacc, fillWindow_stuck_iff (by simpa using hnext), Stuck, hunsent, hall,
    acknowledge_windowSize_eq_zero_iff, StallsOn]
  tauto

/-- Where nothing is left in flight, nothing was read from the stream. -/
theorem ackReceived_stream {s : TCPSender} {ackno : WrappingInt32} {w : UInt16}
    (h : (s.ackReceived ackno w).outstandingSegments = []) :
    (s.ackReceived ackno w).stream = s.stream := by
  unfold ackReceived at h ⊢
  split at h
  · rename_i hacc
    rw [if_pos hacc, (fillWindow_sends _).resolve_right (not_not_intro h)]
    exact acknowledge_stream ..
  · rename_i hacc
    rw [if_neg hacc]

theorem ackReceived_pos {s : TCPSender} (hs : 0 < s.nextSeqnoAbsolute) (ackno : WrappingInt32)
    (w : UInt16) : 0 < (s.ackReceived ackno w).nextSeqnoAbsolute := by
  unfold ackReceived
  split
  · exact (fillWindow_run _).1
  · exact hs

-- ============================================================================
-- Senders that are done
-- ============================================================================

/-- The stream was sent up to its FIN, and everything was acknowledged. -/
structure Finished (s : TCPSender) : Prop where
  started : 0 < s.nextSeqnoAbsolute
  ended : s.stream.inputEnded = true
  idle : s.outstandingSegments = []
  all_sent : ¬ s.Unsent

instance (s : TCPSender) : Decidable s.Finished :=
  decidable_of_iff (0 < s.nextSeqnoAbsolute ∧ s.stream.inputEnded = true ∧
    s.outstandingSegments.isEmpty = true ∧ ¬ s.Unsent)
    ⟨fun ⟨hpos, hended, hidle, hsent⟩ => ⟨hpos, hended, List.isEmpty_iff.mp hidle, hsent⟩,
      fun h => ⟨h.started, h.ended, List.isEmpty_iff.mpr h.idle, h.all_sent⟩⟩

namespace Finished

variable {s u : TCPSender}

theorem of_alike (h : s.Alike u) (hs : s.Finished) : u.Finished where
  started := h.next_eq ▸ hs.started
  ended := h.ended_eq.trans hs.ended
  idle := h.outstanding_eq.trans hs.idle
  all_sent := h.unsent_iff.not.mpr hs.all_sent

theorem fillWindow_eq (hs : s.Finished) : s.fillWindow = s :=
  Filled.fillWindow_eq (fun _ => Or.inr hs.all_sent) hs.started

theorem ackReceived (hs : s.Finished) (ackno : WrappingInt32) (w : UInt16) :
    (s.ackReceived ackno w).Finished := by
  unfold TCPSender.ackReceived
  split
  · have hack : (s.acknowledge ackno w).Finished := by
      refine ⟨?_, ?_, ?_, ?_⟩
      · simpa using hs.started
      · simpa using hs.ended
      · rw [acknowledge_outstandingSegments, hs.idle]
        rfl
      · simpa [Unsent] using hs.all_sent
    rw [hack.fillWindow_eq]
    exact hack
  · exact hs

end Finished

end TCPSender

end Sponge
