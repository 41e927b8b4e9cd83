/-
  Sponge.TcpConnection.Silence

  What a connection does after it has died.

  A connection is dead when `active()` is false: a RST came in, it gave up, or it was
  closed.  Nothing but the two flags changes at that moment, and only
  `segment_received` ever looks at them.  The sender keeps its window, its timer and
  its outstanding segments, so `write`, `end_input_stream` and `tick` go on sending,
  and a SYN brings the connection back to life (`silent_fails`).  `StaysSilent` is
  the exact condition under which an operation leaves a dead connection dead and
  silent (`silent_iff_staysSilent`).
-/

import Sponge.TcpConnection.Output
import Sponge.TcpConnection.Shutdown

namespace Sponge

open Lib (Run Guarded)

namespace TCPSender

-- ============================================================================
-- When a sender has nothing to send
-- ============================================================================

/-- `fill_window()` sends nothing: the SYN is out, and the window is used up or neither
    a byte nor the FIN is waiting. -/
def NothingToSend (s : TCPSender) : Prop :=
  0 < s.nextSeqnoAbsolute ∧ (s.windowSize = 0 ∨ ¬ s.Unsent)

instance (s : TCPSender) : Decidable s.NothingToSend := inferInstanceAs (Decidable (_ ∧ _))

theorem fillWindow_segmentsOut_iff (s : TCPSender) :
    s.fillWindow.segmentsOut = [] ↔ s.segmentsOut = [] ∧ s.NothingToSend := by
  obtain ⟨hpos, segs, hrun⟩ := s.fillWindow_run
  have hout := segmentsOut_of_run hrun
  constructor
  · intro hnil
    rw [hnil] at hout
    obtain ⟨hs, rfl⟩ := List.append_eq_nil_iff.mp hout.symm
    -- a run without segments stays where it is
    have heq : s.fillWindow = s := by
      generalize s.fillWindow = u at hrun
      generalize hsegs : ([] : List TCPSegment) = l at hrun
      cases hrun with
      | nil => rfl
      | snoc e _ _ => simp at hsegs
    have hfilled := s.fillWindow_filled
    rw [heq] at hpos hfilled
    exact ⟨hs, hpos, hfilled hpos⟩
  · rintro ⟨hs, hnext, hnothing⟩
    have hfilled : s.Filled := fun _ => hnothing
    rw [hfilled.fillWindow_eq hnext, hs]

end TCPSender

namespace TCPConnection

-- ============================================================================
-- One operation on a dead connection
-- ============================================================================

/-- What may still happen to a dead connection: anything but `connect()`. -/
def Further : Op → Prop
  | .connect => False
  | _ => True

instance : ∀ op, Decidable (Further op)
  | .connect => isFalse id
  | .write _ | .endInputStream | .read _ | .popOutput _ | .tick _ | .segmentReceived _
  | .dequeue => isTrue trivial

/-- A segment brings no SYN unless it also resets; bytes are accepted, the stream is
    ended and time passes only while the sender has nothing to send, nothing in its
    queue and has not given up. -/
def StaysSilent (c : TCPConnection) : Op → Prop
  | .write data => c.sender.segmentsOut.isEmpty = true ∧ (c.sender.writeStream data).NothingToSend
  | .endInputStream => c.sender.segmentsOut.isEmpty = true ∧ c.sender.endStream.NothingToSend
  | .tick ms => c.sender.segmentsOut.isEmpty = true ∧
      c.sender.consecutiveRetransmissions ≤ TCPConfig.maxRetxAttempts ∧ ¬ c.sender.Expires ms
  | .segmentReceived seg => seg.header.syn = false ∨ seg.header.rst = true
  | _ => True

instance (c : TCPConnection) : ∀ op, Decidable (c.StaysSilent op)
  | .write _ | .endInputStream | .tick _ => inferInstanceAs (Decidable (_ ∧ _))
  | .segmentReceived _ => inferInstanceAs (Decidable (_ ∨ _))
  | .connect | .read _ | .popOutput _ | .dequeue => isTrue trivial

section Parts

variable {c c' : TCPConnection}

theorem active_eq_false : c.active = false ↔
    c.activeFlag = false ∧ c.lingerAfterStreamsFinish = false := by
  simp [active]

theorem outgoing_eq_nil : c.outgoing = [] ↔ c.sender.segmentsOut = [] := by
  simp [outgoing]

theorem stopLingering_active (h : c.active = false) : c.stopLingering.active = false := by
  unfold stopLingering
  split
  · rfl
  · exact h

theorem tick_silent_iff {ms : Nat} (hdead : c.active = false) :
    ((c.tick ms).active = false ∧ c.queuedBy (.tick ms) = []) ↔ c.StaysSilent (.tick ms) := by
  have hactive : (c.tick ms).active = false := by
    unfold tick giveUp
    apply stopLingering_active
    split
    · rfl
    · exact hdead
  have hout : c.queuedBy (.tick ms) = [] ↔
      (c.sender.tick ms).segmentsOut = [] ∧ ¬ c.GivesUp (.tick ms) := by
    unfold queuedBy
    rw [List.append_eq_nil_iff]
    refine and_congr outgoing_eq_nil ?_
    split <;> simp_all
  rw [hout]
  simp only [hactive, true_and, StaysSilent, List.isEmpty_iff]
  by_cases hexp : c.sender.Expires ms
  · obtain ⟨seg, -, htick⟩ := TCPSender.tick_of_expires hexp
    rw [htick, TCPSender.retransmit_segmentsOut]
    simp [hexp]
  · rw [givesUp_tick_iff, TCPSender.tick_consecutiveRetransmissions,
      TCPSender.tick_of_not_expires hexp]
    split <;> simp [hexp, TCPSender.advanceTimer]

theorem segmentReceived_silent_iff {seg : TCPSegment} (hdead : c.active = false)
    (h : c.segmentReceived seg = some c') :
    (c'.active = false ∧ c.queuedBy (.segmentReceived seg) = []) ↔
      c.StaysSilent (.segmentReceived seg) := by
  obtain ⟨hflag, -⟩ := active_eq_false.mp hdead
  have hproc : c.Processes seg ↔ seg.header.syn = true := by simp [Processes, hflag]
  obtain ⟨hp, rfl⟩ | ⟨hp, hrst, rfl⟩ | ⟨hp, hrst, receiver, hr, rfl⟩ := segmentReceived_cases h
  · have hquiet : c.queuedBy (.segmentReceived seg) = [] := by
      simp [queuedBy, sending, hp, GivesUp]
    rw [hproc, Bool.not_eq_true] at hp
    exact iff_of_true ⟨hdead, hquiet⟩ (Or.inl hp)
  · have hquiet : c.queuedBy (.segmentReceived seg) = [] := by
      simp [queuedBy, sending, hrst, GivesUp]
    exact iff_of_true ⟨rfl, hquiet⟩ (Or.inr hrst)
  · -- a SYN is always answered
    have hsyn := hproc.mp hp
    have hlen : 0 < seg.lengthInSequenceSpace := by
      rw [TCPSegment.lengthInSequenceSpace, if_pos hsyn]
      omega
    have hloud : c.queuedBy (.segmentReceived seg) ≠ [] := by
      have hne := ensureReply_ne_nil ((c.received receiver).takeAck seg) hlen
      simp [queuedBy, sending, hp, hrst, hr, outgoing_eq_nil, hne]
    refine iff_of_false (fun hsilent => hloud hsilent.2) ?_
    simp [StaysSilent, hsyn, hrst]

end Parts

/-- An operation leaves a dead connection dead and silent exactly if it meets the
    condition. -/
theorem step_silent_iff {c c' : TCPConnection} {op : Op} (hdead : c.active = false)
    (hop : Further op) (h : c.step op = some c') :
    (c'.active = false ∧ c.queuedBy op = []) ↔ c.StaysSilent op := by
  cases op with
  | connect => exact hop.elim
  | write data =>
      obtain rfl := Option.some.inj h
      have hout : c.queuedBy (.write data) = [] ↔
          ((c.sender.writeStream data).fillWindow).segmentsOut = [] := by
        simp [queuedBy, sending, GivesUp, outgoing_eq_nil]
      rw [hout, TCPSender.fillWindow_segmentsOut_iff]
      refine (and_iff_right (show ((c.write data).2).active = false from hdead)).trans ?_
      exact and_congr List.isEmpty_iff.symm Iff.rfl
  | endInputStream =>
      obtain rfl := Option.some.inj h
      have hout : c.queuedBy .endInputStream = [] ↔
          (c.sender.endStream.fillWindow).segmentsOut = [] := by
        simp [queuedBy, sending, GivesUp, outgoing_eq_nil]
      rw [hout, TCPSender.fillWindow_segmentsOut_iff]
      refine (and_iff_right (show (c.endInputStream).active = false from hdead)).trans ?_
      exact and_congr List.isEmpty_iff.symm Iff.rfl
  | tick ms =>
      obtain rfl := Option.some.inj h
      exact tick_silent_iff hdead
  | segmentReceived seg => exact segmentReceived_silent_iff hdead h
  | read len | popOutput len =>
      obtain rfl := Option.some.inj h
      exact iff_of_true ⟨hdead, rfl⟩ trivial
  | dequeue =>
      obtain ⟨seg, rest, -, rfl⟩ := step_dequeue h
      exact iff_of_true ⟨hdead, rfl⟩ trivial

end TCPConnection

-- ============================================================================
-- Runs from a dead connection
-- ============================================================================

namespace ConnectionTrace

open TCPConnection

/-- Since `t₀` the connection has stayed dead and has put nothing on `segments_out()`. -/
def Silent (t₀ t : ConnectionTrace) : Prop :=
  t.conn.active = false ∧ t.emitted = t₀.emitted

instance (c : TCPConnection) (op : Op) : Decidable (Further op ∧ c.StaysSilent op) :=
  inferInstanceAs (Decidable (_ ∧ _))

/-- **Silence.**  From a state in which `active()` is false, a connection stays dead
    and silent along a run exactly if every operation of the run meets the condition. -/
theorem silent_iff_staysSilent {t₀ t : ConnectionTrace} {ops : List Op}
    (hdead : t₀.conn.active = false)
    (hrun : Run (Guarded (fun _ op => Further op) step) t₀ ops t) :
    (∀ fs u, fs <+: ops → Run (Guarded (fun _ op => Further op) step) t₀ fs u → t₀.Silent u) ↔
      Run (Guarded (fun t op => Further op ∧ t.conn.StaysSilent op) step) t₀ ops t := by
  have hsilent : ∀ fs u,
      Run (Guarded (fun t op => Further op ∧ t.conn.StaysSilent op) step) t₀ fs u →
        t₀.Silent u := by
    intro fs u hu
    refine hu.invariant (I := t₀.Silent) ⟨hdead, rfl⟩ ?_
    rintro v op w ⟨hv, hemit⟩ ⟨⟨hop, hcond⟩, hs⟩
    obtain ⟨hc, hq, -⟩ := step_conn hs
    obtain ⟨hactive, hnil⟩ := (step_silent_iff hv hop hc).mpr hcond
    exact ⟨hactive, by rw [hq, hnil, List.append_nil, hemit]⟩
  refine Run.always_iff (P := fun _ => t₀.Silent) hsilent ?_ hrun
  intro fs u op v hu hop hcond hs hv
  obtain ⟨hc, hq, -⟩ := step_conn hs
  obtain ⟨hu, hemit⟩ := hsilent fs u hu
  refine hcond ((step_silent_iff hu hop hc).mp ⟨hv.1, ?_⟩)
  have hsame := hv.2
  rw [hq, hemit] at hsame
  exact List.append_right_eq_self.mp hsame

/-- A connection with initial sequence number 0. -/
def fresh : ConnectionTrace := new List.length { fixedIsn := some ⟨0⟩ } ⟨0⟩

/-- The peer closed first, and everything was sent and acknowledged. -/
def closed : ConnectionTrace := (Lib.exec (fun _ _ => True) step fresh passiveClose).get (by decide)

/-- Time passes, a late acknowledgement arrives, and the application closes again. -/
def aftermath : List Op :=
  [.tick 60000, .segmentReceived { header := { ackno := ⟨4⟩, win := 100, ack := true } },
    .endInputStream, .write []]

theorem silent_iff_staysSilent_closed :
    ∃ t, closed.conn.active = false ∧ Run (Guarded (fun _ op => Further op) step) closed aftermath t ∧
      closed.Silent t := by
  have hrun := Run.of_exec (fun t op => Further op ∧ t.conn.StaysSilent op) step closed aftermath
    (by decide)
  have hfurther := hrun.mono fun _ _ _ h => And.intro h.1.1 h.2
  exact ⟨_, by decide, hfurther, (silent_iff_staysSilent (by decide) hfurther).mpr hrun _ _
    (List.prefix_refl _) hfurther⟩

/-- The SYN is answered by a RST. -/
def refused : ConnectionTrace :=
  (Lib.exec (fun _ _ => True) step fresh
    [.connect, .segmentReceived { header := { rst := true, ack := true } }]).get (by decide)

/-- One timeout later a SYN comes in. -/
def revival : List Op :=
  [.tick 1000, .segmentReceived { header := { seqno := ⟨7⟩, syn := true } }]

/-- The refused connection sends its SYN again, and then comes back to life. -/
theorem silent_fails :
    (∃ ops, Run (Guarded (fun _ _ => True) step) fresh ops refused) ∧
    refused.conn.active = false ∧ refused.emitted.length = 1 ∧
    ∃ t, Run (Guarded (fun _ op => Further op) step) refused revival t ∧
      t.emitted.length = 3 ∧ t.conn.active = true ∧ ¬ refused.Silent t := by
  have hreached := Run.of_exec (fun _ _ => True) step fresh
    [.connect, .segmentReceived { header := { rst := true, ack := true } }] (by decide)
  have hrun := Run.of_exec (fun _ op => Further op) step refused revival (by decide)
  refine ⟨⟨_, hreached⟩, by decide, by decide, _, hrun, by decide, by decide, fun h => ?_⟩
  have hdead := h.1
  revert hdead
  decide

end ConnectionTrace

end Sponge
