/-
  Sponge.TcpSender.Repeats

  Acknowledgements that come again or come late.

  `ackReceived_eq_self_iff` says exactly when an acknowledgement leaves a sender as it
  is.  A repeated one meets a sender that has just filled its window, so most of that
  is so by itself; what can still go wrong is a window of 0, which `ack_received`
  turns into a window of 1 each time it comes, and raw sequence numbers that wrapped
  while the first one let segments out (`harmlessAck_iff`).  While nothing wraps a
  repetition is harmless exactly if the window is not 0 or there was nothing to send
  (`repeated_iff_of_noWrap`).
-/

import Sponge.TcpSender.Maximal
import Sponge.TcpSender.Outstanding
import Sponge.TcpSender.Stall

namespace Sponge

open Lib (Run Guarded)

namespace TCPSender

-- ============================================================================
-- Acknowledgements that change nothing
-- ============================================================================

/-- The release loop stops at the first outstanding segment. -/
def ReleasesNothing (s : TCPSender) (ackno : WrappingInt32) : Prop :=
  ∀ seg ∈ s.outstandingSegments.head?, isAcknowledged ackno seg = false

/-- The window update assigns what is there already, or nothing. -/
def KeepsWindow (s : TCPSender) (ackno : WrappingInt32) (w : UInt16) : Prop :=
  if w = 0 then s.windowSize = 1 ∧ s.windowEmpty = true
  else (acknoRight ackno w : Int) ≤ s.highestAcknoRight

/-- The acknowledgement is turned away, or it acknowledges nothing beyond the highest
    one, releases no segment and keeps the window, and the sender has sent its SYN and
    what it could. -/
def Unmoved (s : TCPSender) (ackno : WrappingInt32) (w : UInt16) : Prop :=
  s.Accepts ackno →
    (ackno.rawValue.toNat : Int) = s.highestAckno ∧ s.ReleasesNothing ackno ∧
    s.KeepsWindow ackno w ∧ 0 < s.nextSeqnoAbsolute ∧ s.Filled

section

variable {s : TCPSender} {ackno : WrappingInt32} {w : UInt16}

theorem dropWhile_eq_self_iff :
    s.outstandingSegments.dropWhile (isAcknowledged ackno) = s.outstandingSegments ↔
      s.ReleasesNothing ackno := by
  unfold ReleasesNothing
  cases hl : s.outstandingSegments with
  | nil => simp
  | cons seg segs => simp [List.dropWhile_eq_self_iff]

theorem releaseAcknowledged_eq_self_iff :
    s.releaseAcknowledged ackno = s ↔ s.ReleasesNothing ackno := by
  rw [← dropWhile_eq_self_iff]
  constructor
  · intro h
    exact congrArg outstandingSegments h
  · intro h
    cases s
    simp only [releaseAcknowledged, h]

theorem updateWindow_eq_self_iff : s.updateWindow ackno w = s ↔ s.KeepsWindow ackno w := by
  unfold updateWindow KeepsWindow
  split
  · constructor
    · intro h
      exact ⟨(congrArg windowSize h).symm, (congrArg windowEmpty h).symm⟩
    · rintro ⟨hsize, hempty⟩
      cases s
      simp only at hsize hempty
      simp only [hsize, hempty]
  · split
    · rename_i hright
      refine iff_of_false (fun h => ?_) (by omega)
      have hedge : (acknoRight ackno w : Int) = s.highestAcknoRight :=
        congrArg highestAcknoRight h
      omega
    · rename_i hright
      exact iff_of_true rfl (by omega)

/-- The timer is left alone exactly by what is not beyond the highest acknowledgement. -/
theorem resetTimer_eq_self_iff :
    s.resetTimer ackno = s ↔ (ackno.rawValue.toNat : Int) ≤ s.highestAckno := by
  unfold resetTimer
  split
  · rename_i hnew
    refine iff_of_false (fun h => ?_) (by omega)
    have hhigh : (ackno.rawValue.toNat : Int) = s.highestAckno := congrArg highestAckno h
    omega
  · rename_i hnew
    exact iff_of_true rfl (by omega)

theorem acknowledge_highestAcknoRight :
    (s.acknowledge ackno w).highestAcknoRight =
      if w = 0 then s.highestAcknoRight
      else if (acknoRight ackno w : Int) > s.highestAcknoRight then (acknoRight ackno w : Int)
      else s.highestAcknoRight := by
  unfold acknowledge resetTimer updateWindow releaseAcknowledged
  split_ifs <;> rfl

theorem acknowledge_windowEmpty (h : w = 0) : (s.acknowledge ackno w).windowEmpty = true := by
  unfold acknowledge resetTimer updateWindow
  split_ifs <;> rfl

theorem acknowledge_eq_self_iff :
    s.acknowledge ackno w = s ↔ (ackno.rawValue.toNat : Int) ≤ s.highestAckno ∧
      s.ReleasesNothing ackno ∧ s.KeepsWindow ackno w := by
  rw [← releaseAcknowledged_eq_self_iff, ← updateWindow_eq_self_iff]
  constructor
  · intro h
    have hhigh : (ackno.rawValue.toNat : Int) ≤ s.highestAckno := by
      have hmax := s.acknowledge_highestAckno ackno w
      rw [h] at hmax
      omega
    have hrel : s.releaseAcknowledged ackno = s := by
      rw [releaseAcknowledged_eq_self_iff, ← dropWhile_eq_self_iff,
        ← s.acknowledge_outstandingSegments ackno w, h]
    have hwin : s.updateWindow ackno w = s := by
      have hsame := h
      rw [acknowledge, hrel, resetTimer_eq_self_iff.mpr] at hsame
      · exact hsame
      · rwa [(s.updateWindow_timer ackno w).1]
    exact ⟨hhigh, hrel, hwin⟩
  · rintro ⟨hhigh, hrel, hwin⟩
    rw [acknowledge, hrel, hwin, resetTimer_eq_self_iff]
    exact hhigh

theorem ackReceived_eq_self_iff : s.ackReceived ackno w = s ↔ s.Unmoved ackno w := by
  unfold ackReceived Unmoved
  by_cases hacc : s.Accepts ackno
  · rw [if_pos hacc]
    obtain ⟨hnext, segs, hrun⟩ := (s.acknowledge ackno w).fillWindow_run
    constructor
    · intro h _
      -- nothing was sent, so all was done before the window was filled
      have hsame : s.acknowledge ackno w = s := by
        have hq := segmentsOut_of_run hrun
        rw [h, acknowledge_segmentsOut] at hq
        rw [show segs = [] by simpa using hq, h] at hrun
        exact hrun.eq_of_nil.symm
      obtain ⟨hhigh, hrel, hwin⟩ := acknowledge_eq_self_iff.mp hsame
      have hge := ((accepts_iff ..).mp hacc).2
      rw [h] at hnext
      exact ⟨by omega, hrel, hwin, hnext, h ▸ fillWindow_filled _⟩
    · intro h
      obtain ⟨hhigh, hrel, hwin, hnext, hfilled⟩ := h hacc
      rw [acknowledge_eq_self_iff.mpr ⟨by omega, hrel, hwin⟩]
      exact hfilled.fillWindow_eq hnext
  · rw [if_neg hacc]
    exact iff_of_true rfl fun h => absurd h hacc

end

-- ============================================================================
-- The same acknowledgement again
-- ============================================================================

/-- Filling a window that is open takes something from it unless there is nothing to
    send. -/
theorem fillWindow_windowSize_iff {s : TCPSender} (hwin : 0 < s.windowSize) :
    s.fillWindow.windowSize = s.windowSize ↔ 0 < s.nextSeqnoAbsolute ∧ ¬ s.Unsent := by
  obtain ⟨hnext, segs, hrun⟩ := s.fillWindow_run
  constructor
  · intro hsame
    have hless : s.fillWindow.windowSize = s.windowSize ∧ segs = [] ∨
        s.fillWindow.windowSize < s.windowSize := by
      refine hrun.invariant_hist (I := fun segs t => t.windowSize = s.windowSize ∧ segs = [] ∨
        t.windowSize < s.windowSize) (Or.inl ⟨rfl, rfl⟩) ?_
      rintro segs t seg u ht ⟨hf⟩
      have hpos := hf.pos
      rw [afterSend_windowSize]
      omega
    have hnil : segs = [] := by
      rcases hless with ⟨-, hnil⟩ | hlt
      · exact hnil
      · omega
    subst hnil
    have hfilled := s.fillWindow_filled hnext
    rw [hrun.eq_of_nil] at hnext hfilled
    exact ⟨hnext, hfilled.resolve_left (by omega)⟩
  · rintro ⟨hnext, hnot⟩
    have hfilled : s.Filled := fun _ => Or.inr hnot
    rw [hfilled.fillWindow_eq hnext]

/-- What keeps the second of two equal acknowledgements from changing anything: it is
    turned away, or the first outstanding segment stays and, if the window is 0, there
    was nothing to send when the first one came. -/
def RepeatIgnored (s : TCPSender) (ackno : WrappingInt32) (w : UInt16) : Prop :=
  s.Accepts ackno → (s.ackReceived ackno w).Accepts ackno →
    (s.ackReceived ackno w).ReleasesNothing ackno ∧
    (w = 0 → 0 < s.nextSeqnoAbsolute ∧ ¬ s.Unsent)

section

variable {s : TCPSender} {ackno : WrappingInt32} {w : UInt16}

/-- The window that the first acknowledgement leaves. -/
theorem keepsWindow_ackReceived_iff (hacc : s.Accepts ackno) :
    (s.ackReceived ackno w).KeepsWindow ackno w ↔
      (w = 0 → 0 < s.nextSeqnoAbsolute ∧ ¬ s.Unsent) := by
  have hstep : s.ackReceived ackno w = (s.acknowledge ackno w).fillWindow := if_pos hacc
  obtain ⟨-, hright, hempty, -⟩ := (s.acknowledge ackno w).fillWindow_frame
  rw [hstep, KeepsWindow, hempty, hright]
  split
  · rename_i hw
    have hone : (s.acknowledge ackno w).windowSize = 1 := by
      rw [acknowledge_windowSize, if_pos hw]
    have hmark : (s.acknowledge ackno w).windowEmpty = true := acknowledge_windowEmpty hw
    have hunsent : (s.acknowledge ackno w).Unsent ↔ s.Unsent := by simp [Unsent]
    have hiff := fillWindow_windowSize_iff (s := s.acknowledge ackno w) (by omega)
    rw [hone, acknowledge_nextSeqnoAbsolute, hunsent] at hiff
    rw [hiff]
    exact ⟨fun h _ => h.1, fun h => ⟨h hw, hmark⟩⟩
  · rename_i hw
    refine iff_of_true ?_ fun h => absurd h hw
    rw [acknowledge_highestAcknoRight, if_neg hw]
    split <;> omega

/-- An accepted acknowledgement is the highest one afterwards. -/
theorem highestAckno_ackReceived (hacc : s.Accepts ackno) :
    (ackno.rawValue.toNat : Int) = (s.ackReceived ackno w).highestAckno := by
  have hstep : s.ackReceived ackno w = (s.acknowledge ackno w).fillWindow := if_pos hacc
  have hge := ((accepts_iff ..).mp hacc).2
  rw [hstep, (fillWindow_frame _).1, acknowledge_highestAckno]
  omega

theorem repeated_iff :
    (s.ackReceived ackno w).ackReceived ackno w = s.ackReceived ackno w ↔
      s.RepeatIgnored ackno w := by
  by_cases hacc : s.Accepts ackno
  · have hstep : s.ackReceived ackno w = (s.acknowledge ackno w).fillWindow := if_pos hacc
    have hhigh := highestAckno_ackReceived (w := w) hacc
    have hnext : 0 < (s.ackReceived ackno w).nextSeqnoAbsolute := by
      rw [hstep]
      exact (fillWindow_run _).1
    have hfilled : (s.ackReceived ackno w).Filled := by
      rw [hstep]
      exact fillWindow_filled _
    rw [ackReceived_eq_self_iff, Unmoved, RepeatIgnored, keepsWindow_ackReceived_iff hacc]
    constructor
    · intro h _ hagain
      obtain ⟨-, hrel, hwin, -⟩ := h hagain
      exact ⟨hrel, hwin⟩
    · intro h hagain
      obtain ⟨hrel, hwin⟩ := h hacc hagain
      exact ⟨hhigh, hrel, hwin, hnext, hfilled⟩
  · have hstep : s.ackReceived ackno w = s := if_neg hacc
    rw [hstep, hstep]
    exact iff_of_true rfl fun h => absurd h hacc

end

end TCPSender

namespace SenderTrace

open TCPSender

/-- While nothing wraps, a repeated acknowledgement is harmless exactly if it is turned
    away, its window is not 0, or there was nothing to send. -/
theorem repeated_iff_of_noWrap {capacity : UInt64} {retxTimeout : UInt16} {isn : WrappingInt32}
    {ops : List Op} {t : SenderTrace} {ackno : WrappingInt32} {w : UInt16}
    (hrun : Run (Guarded (fun _ _ => True) step) (new capacity retxTimeout isn) ops t)
    (hwrap : isn.rawValue.toNat + (t.sender.ackReceived ackno w).nextSeqnoAbsolute < 2 ^ 32) :
    (t.sender.ackReceived ackno w).ackReceived ackno w = t.sender.ackReceived ackno w ↔
      (t.sender.Accepts ackno → w = 0 → 0 < t.sender.nextSeqnoAbsolute ∧ ¬ t.sender.Unsent) := by
  rw [repeated_iff]
  by_cases hacc : t.sender.Accepts ackno
  · have hrun' : Run (Guarded (fun _ _ => True) step) (new capacity retxTimeout isn)
        (ops ++ [.ackReceived ackno w]) (t.after (.ackReceived ackno w)) :=
      hrun.snoc _ ⟨trivial, rfl⟩
    have hisn : (t.after (.ackReceived ackno w)).sender.isn = isn := isn_run hrun'
    have hwrap' : (t.after (.ackReceived ackno w)).sender.isn.rawValue.toNat +
        (t.after (.ackReceived ackno w)).sender.nextSeqnoAbsolute < 2 ^ 32 := by
      rw [hisn]
      exact hwrap
    obtain ⟨a, ha⟩ := outInv_run hrun' hwrap'
    have hhigh := highestAckno_ackReceived (w := w) hacc
    generalize hu : t.sender.ackReceived ackno w = u at hhigh hwrap
    have hsender : (t.after (.ackReceived ackno w)).sender = u := hu
    rw [hsender] at hisn
    have hagain : u.Accepts ackno := by
      have hle := ha.highest_le
      rw [hsender, hisn] at hle
      rw [accepts_iff, nextSeqno, wrap_toNat_of_lt (by rwa [hisn]), hisn]
      omega
    have hstays : u.ReleasesNothing ackno := by
      intro seg hseg
      have hmem := List.mem_of_mem_head? hseg
      have hend := ha.ends seg (by rwa [hsender])
      rw [hsender] at hend
      rw [← Bool.not_eq_true, isAcknowledged_iff (u.outstanding_pos seg hmem)]
      omega
    rw [RepeatIgnored, hu]
    exact ⟨fun h hacc => (h hacc hagain).2, fun h hacc _ => ⟨hstays, h hacc⟩⟩
  · exact iff_of_true (fun h => absurd h hacc) (fun h => absurd h hacc)

/-- The acknowledgement is below one that was accepted before. -/
def Outdated (t : SenderTrace) (ackno : WrappingInt32) : Prop :=
  ∃ ack ∈ t.accepted, t.sender.absolute ackno < ack.absolute

/-- Calling `ack_received` twice is calling it once, and an outdated call changes
    nothing. -/
structure HarmlessAck (t : SenderTrace) (ackno : WrappingInt32) (w : UInt16) : Prop where
  repeated : (t.sender.ackReceived ackno w).ackReceived ackno w = t.sender.ackReceived ackno w
  outdated : t.Outdated ackno → t.sender.ackReceived ackno w = t.sender

/-- **Repeated and outdated acknowledgements.**  They are harmless exactly under the
    conditions above. -/
theorem harmlessAck_iff (t : SenderTrace) (ackno : WrappingInt32) (w : UInt16) :
    t.HarmlessAck ackno w ↔
      t.sender.RepeatIgnored ackno w ∧ (t.Outdated ackno → t.sender.Unmoved ackno w) := by
  rw [← repeated_iff, ← ackReceived_eq_self_iff]
  exact ⟨fun h => ⟨h.repeated, h.outdated⟩, fun h => ⟨h.1, h.2⟩⟩

/-- Each of two equal acknowledgements with a window of 0 lets a byte out. -/
theorem harmlessAck_fails :
    ∃ t, Run (Guarded (fun _ _ => True) step) (new 16 1000 ⟨0⟩) [.fillWindow, .write [97, 98]] t ∧
      (t.sender.ackReceived ⟨1⟩ 0).segmentsOut.map (·.payload) = [[], [97]] ∧
      ((t.sender.ackReceived ⟨1⟩ 0).ackReceived ⟨1⟩ 0).segmentsOut.map (·.payload) =
        [[], [97], [98]] ∧
      ¬ t.HarmlessAck ⟨1⟩ 0 := by
  have hrun := Run.of_exec (fun _ _ => True) step (new 16 1000 ⟨0⟩) [.fillWindow, .write [97, 98]]
    (by decide)
  refine ⟨_, hrun, by decide, by decide, fun h => ?_⟩
  exact absurd (congrArg segmentsOut h.repeated) (by decide)

end SenderTrace

end Sponge
