/-
  Sponge.TcpConnection.Linger

  How a connection ends whose outbound stream was ended first.

  Such a connection lingers: `update_connection_status` clears the linger flag only when
  the inbound stream ends before the outbound one, and with the flag set only `tick` can
  shut a connection down, ten timeouts after the last segment.  The flag is cleared for
  good by that, though.  A connection that is connected again afterwards does not linger
  any more, and the next segment ends it (`lingers_fails`).  So the general statement is
  about runs in which a closed connection is not opened again (`StaysClosed`).
-/

import Sponge.TcpConnection.Finality
import Sponge.TcpConnection.Shutdown

namespace Sponge

open Lib (Run Guarded)

namespace TCPConnection

-- ============================================================================
-- The clock
-- ============================================================================

/-- The time since the last received segment, after an operation. -/
def waitedAfter (n : Nat) : Op → Nat
  | .tick ms => n + ms
  | .segmentReceived _ => 0
  | .connect | .write _ | .endInputStream | .read _ | .popOutput _ | .dequeue => n

theorem tick_clock (c : TCPConnection) (ms : Nat) :
    (c.tick ms).cfg = c.cfg ∧ (c.tick ms).timeSinceLastSegmentReceived =
      (c.timeSinceLastSegmentReceived + ms) % 2 ^ 64 := by
  unfold tick stopLingering giveUp sendRst shutdown
  split_ifs <;> exact ⟨rfl, rfl⟩

theorem reply_clock (c : TCPConnection) (seg : TCPSegment) :
    ((c.takeAck seg).ensureReply seg).cfg = c.cfg ∧
    ((c.takeAck seg).ensureReply seg).timeSinceLastSegmentReceived =
      c.timeSinceLastSegmentReceived := by
  unfold ensureReply takeAck
  split_ifs <;> exact ⟨rfl, rfl⟩

theorem updateConnectionStatus_clock (c : TCPConnection) :
    c.updateConnectionStatus.cfg = c.cfg ∧
    c.updateConnectionStatus.timeSinceLastSegmentReceived = c.timeSinceLastSegmentReceived := by
  unfold updateConnectionStatus shutdown
  split_ifs <;> exact ⟨rfl, rfl⟩

theorem segmentReceived_clock {c c' : TCPConnection} {seg : TCPSegment}
    (h : c.segmentReceived seg = some c') :
    c'.cfg = c.cfg ∧ c'.timeSinceLastSegmentReceived = 0 := by
  have hact : c.activated.cfg = c.cfg := by
    unfold activated
    split <;> rfl
  obtain ⟨-, rfl⟩ | ⟨-, -, rfl⟩ | ⟨-, -, receiver, -, rfl⟩ := segmentReceived_cases h
  · exact ⟨rfl, rfl⟩
  · exact ⟨hact, rfl⟩
  · obtain ⟨hcfg, htime⟩ := reply_clock (c.received receiver) seg
    obtain ⟨hcfg', htime'⟩ := updateConnectionStatus_clock
      (((c.received receiver).takeAck seg).ensureReply seg).sendSegments
    exact ⟨(hcfg'.trans hcfg).trans hact, htime'.trans htime⟩

/-- The connection's counter follows the clock, modulo its width. -/
theorem step_clock {c c' : TCPConnection} {op : Op} (h : c.step op = some c') {n : Nat}
    (hn : c.timeSinceLastSegmentReceived = n % 2 ^ 64) :
    c'.cfg = c.cfg ∧ c'.timeSinceLastSegmentReceived = waitedAfter n op % 2 ^ 64 := by
  cases op with
  | tick ms =>
      obtain rfl := Option.some.inj h
      obtain ⟨hcfg, htime⟩ := c.tick_clock ms
      refine ⟨hcfg, htime.trans ?_⟩
      rw [hn, Nat.mod_add_mod]
      rfl
  | segmentReceived seg => exact segmentReceived_clock h
  | dequeue =>
      obtain ⟨seg, rest, -, rfl⟩ := step_dequeue h
      exact ⟨rfl, hn⟩
  | connect | write data | endInputStream | read len | popOutput len =>
      obtain rfl := Option.some.inj h
      exact ⟨rfl, hn⟩

-- ============================================================================
-- The flags
-- ============================================================================

/-- What a step without an error does with the two flags. -/
inductive FlagCase (c : TCPConnection) : Op → TCPConnection → Prop
  | same {op : Op} {c' : TCPConnection} (hact : c'.activeFlag = c.activeFlag)
      (hlinger : c'.lingerAfterStreamsFinish = c.lingerAfterStreamsFinish) : FlagCase c op c'
  | connected {c' : TCPConnection} (hact : c'.activeFlag = true)
      (hlinger : c'.lingerAfterStreamsFinish = c.lingerAfterStreamsFinish) :
      FlagCase c .connect c'
  | lingered {ms : Nat} {c' : TCPConnection} (hover : c'.Over) (hna : c'.active = false)
      (htime : 10 * c.cfg.rtTimeout.toNat ≤ c'.timeSinceLastSegmentReceived) :
      FlagCase c (.tick ms) c'
  | received {seg : TCPSegment} {c' : TCPConnection} (h : c.SegmentCase seg c') :
      FlagCase c (.segmentReceived seg) c'

theorem step_flagCase {c c' : TCPConnection} {op : Op} (h : c.step op = some c')
    (hclean : c'.Clean) : c.FlagCase op c' := by
  cases op with
  | connect =>
      obtain rfl := Option.some.inj h
      exact .connected rfl rfl
  | write data | endInputStream | read len | popOutput len =>
      obtain rfl := Option.some.inj h
      exact .same rfl rfl
  | dequeue =>
      obtain ⟨seg, rest, -, rfl⟩ := step_dequeue h
      exact .same rfl rfl
  | tick ms =>
      obtain rfl := Option.some.inj h
      obtain ⟨hlike, -, -, hflags⟩ := c.tick_frame ms
      obtain ⟨hrec, ⟨hact, hlinger⟩ | ⟨⟨hover, -, htime⟩, hact, hoff⟩⟩ := hflags hclean
      · exact .same hact hlinger
      · refine .lingered ?_ (by rw [active, hact, hoff]; rfl) ?_
        · rw [Over, hrec, hlike.ended_eq, hlike.outstanding_eq]
          exact hover
        · rw [(c.tick_clock ms).2]
          exact htime
  | segmentReceived seg => exact .received (segmentReceived_case h hclean)

-- ============================================================================
-- Closed connections
-- ============================================================================

/-- Without an error on either stream, a connection that is not active is not opened
    again: it is not connected, and a SYN finds nothing in flight and nothing unsent. -/
def StaysClosed (c : TCPConnection) : Op → Prop
  | .connect => c.Clean → c.active = true
  | .segmentReceived seg => c.Clean → c.active = false → seg.header.syn = true →
      seg.header.rst = false → c.bytesInFlight = 0 ∧ ¬ c.sender.Unsent
  | _ => True

instance (c : TCPConnection) : ∀ op, Decidable (c.StaysClosed op)
  | .connect => inferInstanceAs (Decidable (_ → _))
  | .segmentReceived _ => inferInstanceAs (Decidable (_ → _ → _ → _ → _))
  | .write _ | .endInputStream | .read _ | .popOutput _ | .tick _ | .dequeue => isTrue trivial

/-- No segment makes a sender that is done send again. -/
theorem segmentReceived_finished {c c' : TCPConnection} {seg : TCPSegment}
    (h : c.segmentReceived seg = some c') (hc : c.sender.Finished) : c'.sender.Finished := by
  have hstep : c.step (.segmentReceived seg) = some c' := h
  refine step_sender_invariant (I := TCPSender.Finished) hstep hc ?_
  intro t sop hsop ht
  cases sop with
  | write data => exact nomatch hsop.1
  | endInput => exact ht.of_alike (TCPSender.endStream_alike ht.ended)
  | setError => exact ht.of_alike t.sender.setStreamError_alike
  | fillWindow =>
      show t.sender.fillWindow.Finished
      rw [ht.fillWindow_eq]
      exact ht
  | ackReceived ackno w => exact ht.ackReceived ackno w
  | tick ms => exact ht.of_alike (t.sender.tick_alike ms)
  | sendEmptySegment => exact ht.of_alike t.sender.sendEmptySegment_alike
  | drain => exact ht.of_alike t.sender.drain_alike

end TCPConnection

-- ============================================================================
-- Runs
-- ============================================================================

/-- A connection with the history its end depends on. -/
structure LingerTrace where
  conn : TCPConnection
  /-- `end_input_stream()` was called before the inbound stream ended -/
  endedFirst : Bool
  /-- the ticks since the last received segment -/
  waited : Nat
  /-- the operations in which `active()` became false without an error, each with the
      time waited at its end -/
  closings : List (TCPConnection.Op × Nat)

namespace LingerTrace

open TCPConnection

def new (endNode : List ByteString → Nat) (cfg : TCPConfig) (isn : WrappingInt32) :
    LingerTrace where
  conn := .new endNode cfg isn
  endedFirst := false
  waited := 0
  closings := []

def step (t : LingerTrace) (op : Op) : Option LingerTrace :=
  (t.conn.step op).map fun c =>
    { conn := c
      endedFirst := match op with
        | .endInputStream => t.endedFirst || !t.conn.inboundStream.inputEnded
        | _ => t.endedFirst
      waited := waitedAfter t.waited op
      closings := if t.conn.active = true ∧ c.active = false ∧ c.Clean then
          t.closings ++ [(op, waitedAfter t.waited op)]
        else t.closings }

/-- The inbound stream did not end before the outbound one was ended. -/
def Early (t : LingerTrace) : Prop :=
  t.endedFirst = true ∨ t.conn.inboundStream.inputEnded = false

/-- It was closed by a tick, after ten timeouts. -/
def InTime (cfg : TCPConfig) (closing : Op × Nat) : Prop :=
  ∃ ms, closing.1 = .tick ms ∧ 10 * cfg.rtTimeout.toNat ≤ closing.2

/-- What holds between the operations of such a connection. -/
structure LingerInv (cfg : TCPConfig) (t : LingerTrace) : Prop where
  cfg_eq : t.conn.cfg = cfg
  clock : t.conn.timeSinceLastSegmentReceived = t.waited % 2 ^ 64
  ended : t.endedFirst = true →
    t.conn.sender.stream.inputEnded = true ∧ 0 < t.conn.sender.nextSeqnoAbsolute
  lingers : t.Early → t.conn.Clean → t.conn.lingerAfterStreamsFinish = true ∨
    t.conn.active = false ∧ t.conn.inboundStream.inputEnded = true
  in_time : t.Early → ∀ closing ∈ t.closings, InTime cfg closing

theorem lingerInv_new (endNode : List ByteString → Nat) (cfg : TCPConfig) (isn : WrappingInt32) :
    (new endNode cfg isn).LingerInv cfg where
  cfg_eq := rfl
  clock := rfl
  ended := by simp [new]
  lingers := fun _ _ => Or.inl rfl
  in_time := by simp [new]

theorem Early.of_step {t t' : LingerTrace} {op : Op} (hs : t.step op = some t')
    (h : t'.Early) : t.Early := by
  obtain ⟨c, hc, rfl⟩ := Option.map_eq_some_iff.mp hs
  rcases h with hfirst | hopen
  · cases op with
    | endInputStream => simpa [Early] using hfirst
    | _ => exact Or.inl hfirst
  · refine Or.inr ?_
    by_contra hin
    rw [Bool.not_eq_false] at hin
    have hin' := (step_receiver hc).keeps.2.1 hin
    rw [show c.receiver.streamOut.inputEnded = false from hopen] at hin'
    cases hin'

theorem LingerInv.ended_step {cfg : TCPConfig} {t t' : LingerTrace} (h : t.LingerInv cfg)
    {op : Op} (hs : t.step op = some t') (hfirst : t'.endedFirst = true) :
    t'.conn.sender.stream.inputEnded = true ∧ 0 < t'.conn.sender.nextSeqnoAbsolute := by
  obtain ⟨c, hc, rfl⟩ := Option.map_eq_some_iff.mp hs
  by_cases hop : op = .endInputStream
  · subst hop
    obtain rfl := Option.some.inj hc
    exact ⟨endInputStream_inputEnded t.conn, t.conn.sender.endStream.fillWindow_run.1⟩
  · have hbefore : t.endedFirst = true := by
      cases op with
      | endInputStream => exact absurd rfl hop
      | _ => exact hfirst
    obtain ⟨hended, hpos⟩ := h.ended hbefore
    exact ⟨(step_inputEnded hc hop).trans hended, Nat.lt_of_lt_of_le hpos (step_nextSeqnoAbsolute_le hc)⟩

/-- While the inbound stream has not ended first, no segment finds it ended with the
    outbound stream open. -/
theorem LingerInv.outbound_ended {cfg : TCPConfig} {t t' : LingerTrace} (h : t.LingerInv cfg)
    {op : Op} (hs : t.step op = some t') (hearly : t'.Early)
    (hin : t'.conn.receiver.streamOut.inputEnded = true) :
    t'.conn.sender.stream.inputEnded = true := by
  rcases hearly with hfirst | hopen
  · exact (h.ended_step hs hfirst).1
  · rw [show t'.conn.receiver.streamOut.inputEnded = false from hopen] at hin
    cases hin

theorem LingerInv.lingers_step {cfg : TCPConfig} {t t' : LingerTrace} (h : t.LingerInv cfg)
    {op : Op} (hop : t.conn.StaysClosed op) (hs : t.step op = some t') (hearly : t'.Early)
    (hclean' : t'.conn.Clean) : t'.conn.lingerAfterStreamsFinish = true ∨
      t'.conn.active = false ∧ t'.conn.inboundStream.inputEnded = true := by
  have houtbound := h.outbound_ended hs hearly
  have hearly' := hearly.of_step hs
  obtain ⟨c, hc, rfl⟩ := Option.map_eq_some_iff.mp hs
  have hclean := clean_of_step hc hclean'
  have hkeeps := (step_receiver hc).keeps.2.1
  have hbefore := h.lingers hearly' hclean
  cases step_flagCase hc hclean' with
  | same hact hlinger =>
      rw [hlinger, active, hact, hlinger]
      exact hbefore.imp_right fun hin => ⟨hin.1, hkeeps hin.2⟩
  | connected _ hlinger =>
      rcases hbefore with hon | ⟨hna, -⟩
      · exact Or.inl (hlinger.trans hon)
      · have hact := hop hclean
        rw [hna] at hact
        cases hact
  | lingered hover hna _ => exact Or.inr ⟨hna, hover.1⟩
  | @received seg _ hseg =>
      cases hseg with
      | ignored => exact hbefore
      | answered hp hrst _ _ hlinger hrest =>
          rcases hbefore with hon | ⟨hna, hin⟩
          · exact Or.inl (hlinger.trans hon)
          · -- a SYN that came after the end: nothing is left to send, so it is closed again
            obtain ⟨hinactive, hoff⟩ : t.conn.activeFlag = false ∧
                t.conn.lingerAfterStreamsFinish = false := by simpa [active] using hna
            have hsyn : seg.header.syn = true := by simpa [Processes, hinactive] using hp
            obtain ⟨hzero, hsent⟩ := hop hclean hna hsyn hrst
            have hfirst : t.endedFirst = true := by
              rcases hearly' with hfirst | hopen
              · exact hfirst
              · rw [hin] at hopen
                cases hopen
            obtain ⟨hended, hpos⟩ := h.ended hfirst
            have hdone := segmentReceived_finished hc
              ⟨hpos, hended, TCPSender.bytesInFlight_eq_zero.mp hzero, hsent⟩
            exact absurd hdone.idle ((hrest (hkeeps hin)).2 (hlinger.trans hoff))
      | endedFirst hin hout _ _ =>
          rw [houtbound hin] at hout
          cases hout
      | closed hover hact hoff _ => exact Or.inr ⟨by rw [active, hact, hoff]; rfl, hover.1⟩

/-- A step that closes the connection is a tick that finds it has waited. -/
theorem LingerInv.closing_step {cfg : TCPConfig} {t t' : LingerTrace} (h : t.LingerInv cfg)
    {op : Op} (hs : t.step op = some t') (hearly : t'.Early) (hact : t.conn.active = true)
    (hna : t'.conn.active = false) (hclean' : t'.conn.Clean) :
    InTime cfg (op, waitedAfter t.waited op) := by
  have hearly' := hearly.of_step hs
  obtain ⟨c, hc, rfl⟩ := Option.map_eq_some_iff.mp hs
  obtain ⟨hcfg, hclock⟩ := step_clock hc h.clock
  cases step_flagCase hc hclean' with
  | same hflag hlinger =>
      rw [active, hflag, hlinger] at hna
      rw [active, hna] at hact
      cases hact
  | connected hflag _ => simp [active, hflag] at hna
  | received hseg =>
      cases hseg with
      | ignored =>
          rw [show t.conn.active = false from hna] at hact
          cases hact
      | answered _ _ _ hflag _ _ | endedFirst _ _ hflag _ => simp [active, hflag] at hna
      | closed _ _ _ hoff =>
          rcases h.lingers hearly' (clean_of_step hc hclean') with hon | ⟨hinactive, -⟩
          · rw [hoff] at hon
            cases hon
          · rw [hact] at hinactive
            cases hinactive
  | @lingered ms _ _ _ htime =>
      refine ⟨ms, rfl, ?_⟩
      rw [h.cfg_eq, hclock] at htime
      exact Nat.le_trans htime (Nat.mod_le _ _)

theorem LingerInv.step {cfg : TCPConfig} {t t' : LingerTrace} (h : t.LingerInv cfg) {op : Op}
    (hop : t.conn.StaysClosed op) (hs : t.step op = some t') : t'.LingerInv cfg := by
  have hended := h.ended_step hs
  have hlingers := h.lingers_step hop hs
  have hclosing := h.closing_step hs
  have hof := Early.of_step hs
  obtain ⟨c, hc, rfl⟩ := Option.map_eq_some_iff.mp hs
  obtain ⟨hcfg, hclock⟩ := step_clock hc h.clock
  refine ⟨hcfg.trans h.cfg_eq, hclock, hended, hlingers, ?_⟩
  intro hearly closing hmem
  simp only at hmem
  split at hmem
  · rename_i hclose
    rcases List.mem_append.mp hmem with hmem | hmem
    · exact h.in_time (hof hearly) closing hmem
    · rw [List.mem_singleton.mp hmem]
      exact hclosing hearly hclose.1 hclose.2.1 hclose.2.2
  · exact h.in_time (hof hearly) closing hmem

-- ============================================================================
-- Lingering
-- ============================================================================

/-- The end of a connection whose outbound stream was ended first: only a tick closes
    it, when the ticks since the last segment add up to ten timeouts; segments alone do
    not; and the connection's own counter starts again with each segment, as the time
    waited does. -/
structure Lingers (cfg : TCPConfig) (t : LingerTrace) : Prop where
  in_time : ∀ closing ∈ t.closings, InTime cfg closing
  segments_alone : ∀ ops t', t.conn.active = true →
    Run (Guarded (fun _ op => ∃ seg, op = .segmentReceived seg) step) t ops t' →
    t'.conn.Clean → t'.conn.active = true
  restarts : t.conn.timeSinceLastSegmentReceived = t.waited % 2 ^ 64

theorem Lingers.waits {cfg : TCPConfig} {t : LingerTrace} (h : t.Lingers cfg) (n : Nat)
    (hn : n ∈ t.closings.map (·.2)) : 10 * cfg.rtTimeout.toNat ≤ n := by
  obtain ⟨closing, hmem, rfl⟩ := List.mem_map.mp hn
  obtain ⟨ms, -, hle⟩ := h.in_time closing hmem
  exact hle

/-- Without a tick an active connection stays active, or ends with an error. -/
theorem LingerInv.segments_alone {cfg : TCPConfig} {t t' : LingerTrace} (h : t.LingerInv cfg)
    (hearly : t.endedFirst = true) {ops : List Op} (hact : t.conn.active = true)
    (hrun : Run (Guarded (fun _ op => ∃ seg, op = .segmentReceived seg) LingerTrace.step) t ops t') :
    t'.conn.Clean → t'.conn.active = true := by
  have hinv := hrun.invariant (I := fun u => u.conn.Clean →
    u.LingerInv cfg ∧ u.endedFirst = true ∧ u.conn.active = true) (fun _ => ⟨h, hearly, hact⟩) ?_
  · exact fun hclean => (hinv hclean).2.2
  · rintro u op u' hu ⟨⟨seg, rfl⟩, hs⟩ hclean'
    have hstep := hs
    obtain ⟨c, hc, rfl⟩ := Option.map_eq_some_iff.mp hs
    obtain ⟨hinv, hfirst, hact⟩ := hu (clean_of_step hc hclean')
    -- it is active, so there is nothing to be kept away from
    have hstays : u.conn.StaysClosed (.segmentReceived seg) := by
      intro _ hna
      rw [hact] at hna
      cases hna
    refine ⟨hinv.step hstays hstep, hfirst, ?_⟩
    by_contra hna
    rw [Bool.not_eq_true] at hna
    obtain ⟨ms, hop, -⟩ := hinv.closing_step hstep (Or.inl hfirst) hact hna hclean'
    cases hop

/-- **Lingering.**  In every run in which a closed connection is not opened again, one
    that ended its own stream first lingers. -/
theorem lingers_of_staysClosed (endNode : List ByteString → Nat) (cfg : TCPConfig)
    (isn : WrappingInt32) {ops : List Op} {t : LingerTrace}
    (hrun : Run (Guarded (fun t op => t.conn.StaysClosed op) step) (new endNode cfg isn) ops t)
    (hfirst : t.endedFirst = true) : t.Lingers cfg := by
  have hinv : t.LingerInv cfg := hrun.invariant (lingerInv_new endNode cfg isn)
    fun _ _ _ h hs => h.step hs.1 hs.2
  exact ⟨hinv.in_time (Or.inl hfirst), fun _ _ => hinv.segments_alone hfirst, hinv.clock⟩

/-- The stream is ended and its FIN acknowledged, then the peer's FIN comes; a segment
    after that makes the wait start again. -/
def activeClose : List Op :=
  [.connect,
    .segmentReceived synAck,
    .endInputStream,
    .segmentReceived
      { header := { seqno := ⟨101⟩, ackno := ⟨2⟩, win := 100, ack := true, fin := true } },
    .tick 9999,
    .segmentReceived
      { header := { seqno := ⟨101⟩, ackno := ⟨2⟩, win := 100, ack := true, fin := true } },
    .tick 9999,
    .tick 1]

theorem lingers_of_staysClosed_activeClose :
    ∃ t, Run (Guarded (fun t op => t.conn.StaysClosed op) step)
        (new List.length { fixedIsn := some ⟨0⟩ } ⟨0⟩) activeClose t ∧
      t.endedFirst = true ∧ t.conn.active = false ∧ t.closings.map (·.2) = [10000] ∧
      t.Lingers { fixedIsn := some ⟨0⟩ } := by
  have hrun := Run.of_exec (fun t op => t.conn.StaysClosed op) step
    (new List.length { fixedIsn := some ⟨0⟩ } ⟨0⟩) activeClose (by decide)
  exact ⟨_, hrun, by decide, by decide, by decide,
    lingers_of_staysClosed List.length { fixedIsn := some ⟨0⟩ } ⟨0⟩ hrun (by decide)⟩

/-- After its end the connection is connected again, and an acknowledgement closes it. -/
def connectedAgain : List Op :=
  activeClose ++ [.connect,
    .segmentReceived { header := { seqno := ⟨102⟩, ackno := ⟨2⟩, win := 100, ack := true } }]

theorem lingers_fails :
    ∃ t, Run (Guarded (fun _ _ => True) step)
        (new List.length { fixedIsn := some ⟨0⟩ } ⟨0⟩) connectedAgain t ∧
      t.endedFirst = true ∧ t.conn.Clean ∧ t.closings.map (·.2) = [10000, 0] ∧
      ¬ t.Lingers { fixedIsn := some ⟨0⟩ } := by
  have hrun := Run.of_exec (fun _ _ => True) step
    (new List.length { fixedIsn := some ⟨0⟩ } ⟨0⟩) connectedAgain (by decide)
  refine ⟨_, hrun, by decide, by decide, by decide, fun h => ?_⟩
  -- the second time nothing was waited for
  exact absurd (h.waits 0 (by decide)) (by decide)

end LingerTrace

end Sponge
