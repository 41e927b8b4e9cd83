/-
  Sponge.TcpConnection.Shutdown

  What holds when a connection is no longer active.

  `update_connection_status` and `tick` shut a connection down when both streams
  have ended and nothing is in flight.  That is a clean end as long as nothing in
  flight means that nothing is left to send.  The window update of `ack_received`
  breaks this: an acknowledgement that does not move the right edge of the window
  leaves a window of 0 in place, so everything can be acknowledged while bytes or the
  FIN still wait (`cleanShutdown_fails`).  A run loses nothing exactly if no segment
  and no tick shuts down a connection whose sender is stuck, and no write is accepted
  after the shutdown (`cleanShutdown_iff_losesNothing`).
-/

import Sponge.TcpConnection.Steps
import Sponge.TcpSender.Outstanding
import Sponge.TcpSender.Stall

namespace Sponge

open Lib (Run Guarded)

namespace TCPConnection

-- ============================================================================
-- The end of a connection
-- ============================================================================

/-- Neither stream has its error flag set. -/
def Clean (c : TCPConnection) : Prop :=
  c.receiver.streamOut.error = false ∧ c.sender.stream.error = false

instance (c : TCPConnection) : Decidable c.Clean := inferInstanceAs (Decidable (_ ∧ _))

/-- Both streams are over, and everything was sent and acknowledged. -/
structure CleanlyClosed (c : TCPConnection) : Prop where
  inbound_ended : c.inboundStream.inputEnded = true
  outbound_ended : c.sender.stream.inputEnded = true
  all_sent : c.sender.stream.buffer = [] ∧
    c.sender.stream.bytesRead = c.sender.stream.bytesWritten
  fin_sent : c.sender.nextSeqnoAbsolute = c.sender.stream.bytesWritten + 2
  acknowledged : c.bytesInFlight = 0
  state_eq : c.state = .ofState .closed

/-- A connection that is not active, without an error, was closed cleanly. -/
def CleanShutdown (c : TCPConnection) : Prop := c.active = false → c.Clean → c.CleanlyClosed

/-- Both streams are over and nothing is in flight. -/
def Over (c : TCPConnection) : Prop :=
  c.receiver.streamOut.inputEnded = true ∧ c.sender.stream.inputEnded = true ∧
    c.sender.outstandingSegments = []

instance (c : TCPConnection) : Decidable c.Over :=
  decidable_of_iff (c.receiver.streamOut.inputEnded = true ∧ c.sender.stream.inputEnded = true ∧
    c.sender.outstandingSegments.isEmpty = true) (by simp [Over])

/-- `tick(ms)` shuts the connection down, and does not give it up. -/
def EndsOnTick (c : TCPConnection) (ms : Nat) : Prop :=
  c.Over ∧ c.sender.consecutiveRetransmissions ≤ TCPConfig.maxRetxAttempts ∧
    10 * c.cfg.rtTimeout.toNat ≤ (c.timeSinceLastSegmentReceived + ms) % 2 ^ 64

instance (c : TCPConnection) (ms : Nat) : Decidable (c.EndsOnTick ms) :=
  inferInstanceAs (Decidable (_ ∧ _))

/-- Without an error on either stream, nothing is accepted once the connection is
    inactive; and what shuts a connection down, a segment after lingering was switched
    off or a tick, does not find a sender that has something to send. -/
def LosesNothing (c : TCPConnection) : Op → Prop
  | .write data => c.Clean → c.active = false → c.sender.stream.bytesToWrite data = 0
  | .segmentReceived seg => c.Clean → c.Processes seg → seg.header.rst = false →
      c.lingerAfterStreamsFinish = false → c.sender.stream.inputEnded = true →
      ¬ c.sender.StuckAfter seg
  | .tick ms => c.Clean → c.EndsOnTick ms → ¬ c.sender.Unsent
  | _ => True

instance (c : TCPConnection) : ∀ op, Decidable (c.LosesNothing op)
  | .write _ => inferInstanceAs (Decidable (_ → _ → _))
  | .segmentReceived _ => inferInstanceAs (Decidable (_ → _ → _ → _ → _ → _))
  | .tick _ => inferInstanceAs (Decidable (_ → _ → _))
  | .connect | .endInputStream | .read _ | .popOutput _ | .dequeue => isTrue trivial

theorem clean_of_step {c c' : TCPConnection} {op : Op} (h : c.step op = some c')
    (hclean : c'.Clean) : c.Clean := by
  refine ⟨(step_receiver h).keeps.1 hclean.1, ?_⟩
  by_contra herr
  rw [Bool.not_eq_false] at herr
  have hout := hclean.2
  rw [step_sender_error h herr] at hout
  cases hout

/-- What holds between the operations of a connection. -/
structure ShutdownInv (c : TCPConnection) : Prop where
  started : c.activeFlag = true ∨ c.receiver.synRecv = true → 0 < c.sender.nextSeqnoAbsolute
  ended : c.receiver.streamOut.inputEnded = true → c.receiver.synRecv = true
  lingers : c.Clean → c.lingerAfterStreamsFinish = false → c.receiver.streamOut.inputEnded = true
  finished : c.Clean → c.active = false → c.sender.Finished

theorem shutdownInv_new (endNode : List ByteString → Nat) (cfg : TCPConfig)
    (isn : WrappingInt32) : (new endNode cfg isn).ShutdownInv where
  started := by simp [new, TCPReceiver.new]
  ended := fun h => nomatch h
  lingers := fun _ h => nomatch h
  finished := fun _ h => nomatch h

theorem ShutdownInv.started_of_ended {c : TCPConnection} (h : c.ShutdownInv)
    (hended : c.receiver.streamOut.inputEnded = true) : 0 < c.sender.nextSeqnoAbsolute :=
  h.started (Or.inr (h.ended hended))

/-- What `update_connection_status` decides. -/
theorem updateConnectionStatus_cases (c : TCPConnection) :
    (c.receiver.streamOut.inputEnded = true ∧ c.sender.stream.inputEnded = false ∧
      c.updateConnectionStatus = { c with lingerAfterStreamsFinish := false }) ∨
    (c.Over ∧ c.lingerAfterStreamsFinish = false ∧ c.updateConnectionStatus = c.shutdown) ∨
    (c.updateConnectionStatus = c ∧ (c.receiver.streamOut.inputEnded = true →
      c.sender.stream.inputEnded = true ∧
      (c.lingerAfterStreamsFinish = false → c.sender.outstandingSegments ≠ []))) := by
  rw [updateConnectionStatus]
  split
  · next hin =>
      split
      · next hout => exact Or.inl ⟨hin, hout, rfl⟩
      · next hout =>
          replace hout : c.sender.stream.inputEnded = true := by simpa using hout
          split
          · next hend =>
              exact Or.inr (Or.inl ⟨⟨hin, hout, TCPSender.bytesInFlight_eq_zero.mp hend.1⟩,
                hend.2, rfl⟩)
          · next hend =>
              refine Or.inr (Or.inr ⟨rfl, fun _ => ⟨hout, fun hoff hnil => ?_⟩⟩)
              exact hend ⟨TCPSender.bytesInFlight_eq_zero.mpr hnil, hoff⟩
  · next hin => exact Or.inr (Or.inr ⟨rfl, fun hend => absurd hend hin⟩)

/-- What a segment does to a connection, without an error: it is ignored, or answered and
    then the two flags are looked at. -/
inductive SegmentCase (c : TCPConnection) (seg : TCPSegment) : TCPConnection → Prop
  | ignored (hnot : ¬ c.Processes seg) :
      SegmentCase c seg { c with timeSinceLastSegmentReceived := 0 }
  | answered {c' : TCPConnection} (hp : c.Processes seg) (hrst : seg.header.rst = false)
      (hr : c.receiver.segmentReceived seg = some c'.receiver) (hact : c'.activeFlag = true)
      (hlinger : c'.lingerAfterStreamsFinish = c.lingerAfterStreamsFinish)
      (hrest : c'.receiver.streamOut.inputEnded = true →
        c'.sender.stream.inputEnded = true ∧
        (c'.lingerAfterStreamsFinish = false → c'.sender.outstandingSegments ≠ [])) :
      SegmentCase c seg c'
  | endedFirst {c' : TCPConnection} (hin : c'.receiver.streamOut.inputEnded = true)
      (hout : c'.sender.stream.inputEnded = false) (hact : c'.activeFlag = true)
      (hoff : c'.lingerAfterStreamsFinish = false) : SegmentCase c seg c'
  | closed {c' : TCPConnection} (hover : c'.Over) (hact : c'.activeFlag = false)
      (hoff : c'.lingerAfterStreamsFinish = false)
      (hbefore : c.lingerAfterStreamsFinish = false) : SegmentCase c seg c'

theorem segmentReceived_case {c c' : TCPConnection} {seg : TCPSegment}
    (h : c.segmentReceived seg = some c') (hclean : c'.Clean) : c.SegmentCase seg c' := by
  obtain ⟨hnot, rfl⟩ | ⟨-, -, rfl⟩ | ⟨hp, hrst, receiver, hr, rfl⟩ := segmentReceived_cases h
  · exact .ignored hnot
  · cases hclean.1
  · obtain ⟨hrec, -, hact, hlinger⟩ := reply_frame (c.received receiver) seg
    replace hact := hact.trans (activated_frame c).2.2.1
    replace hlinger := hlinger.trans (activated_frame c).2.2.2
    generalize hd : (((c.received receiver).takeAck seg).ensureReply seg).sendSegments = d
    have hr : c.receiver.segmentReceived seg = some d.receiver := hd ▸ hrec ▸ hr
    have hact : d.activeFlag = true := hd ▸ hact
    have hlinger : d.lingerAfterStreamsFinish = c.lingerAfterStreamsFinish := hd ▸ hlinger
    obtain ⟨hin, hout, heq⟩ | ⟨hover, hoff, heq⟩ | ⟨heq, hrest⟩ := d.updateConnectionStatus_cases
    · rw [heq]
      exact .endedFirst hin hout hact rfl
    · rw [heq]
      exact .closed hover rfl rfl (hlinger.symm.trans hoff)
    · rw [heq]
      exact .answered hp hrst hr hact hlinger hrest

-- ============================================================================
-- Steps
-- ============================================================================

/-- A step that changes neither the flags nor what the sender will send next. -/
theorem ShutdownInv.of_alike {c c' : TCPConnection} (op : Op) (h : c.ShutdownInv)
    (hstep : c.step op = some c') (hs : c.sender.Alike c'.sender)
    (hsyn : c'.receiver.synRecv = c.receiver.synRecv)
    (hact : c'.activeFlag = c.activeFlag)
    (hlinger : c'.lingerAfterStreamsFinish = c.lingerAfterStreamsFinish) : c'.ShutdownInv where
  started := by
    rw [hs.next_eq, hsyn, hact]
    exact h.started
  ended := (step_receiver hstep).ended h.ended
  lingers := by
    intro hc hoff
    exact (step_receiver hstep).keeps.2.1 (h.lingers (clean_of_step hstep hc) (hlinger ▸ hoff))
  finished := by
    intro hc hna
    rw [active, hact, hlinger] at hna
    exact (h.finished (clean_of_step hstep hc) hna).of_alike hs

/-- A step that ends in `fill_window` on the sender `s`, with the receiver left
    alone. -/
theorem ShutdownInv.of_fillWindow {c c' : TCPConnection} (op : Op) (h : c.ShutdownInv)
    (hstep : c.step op = some c') (s : TCPSender) (hs : c'.sender = s.fillWindow.drain)
    (hrec : c'.receiver = c.receiver)
    (hlinger : c'.lingerAfterStreamsFinish = c.lingerAfterStreamsFinish)
    (hdead : c.Clean → c'.active = false → c.active = false ∧ c.sender.Alike s) :
    c'.ShutdownInv where
  started := by
    intro _
    rw [hs]
    exact s.fillWindow_run.1
  ended := by
    rw [hrec]
    exact h.ended
  lingers := by
    rw [hrec, hlinger]
    exact fun hc => h.lingers (clean_of_step hstep hc)
  finished := by
    -- the connection was closed before, so there is nothing to send
    intro hc hna
    obtain ⟨hna, hlike⟩ := hdead (clean_of_step hstep hc) hna
    have hfin := (h.finished (clean_of_step hstep hc) hna).of_alike hlike
    rw [hs, hfin.fillWindow_eq]
    exact hfin.of_alike s.drain_alike

theorem ShutdownInv.connect {c : TCPConnection} (h : c.ShutdownInv) :
    c.connect.ShutdownInv :=
  h.of_fillWindow .connect rfl c.sender rfl rfl rfl fun _ hna => nomatch hna

theorem ShutdownInv.write {c : TCPConnection} (h : c.ShutdownInv) {data : List UInt8}
    (hok : c.LosesNothing (.write data)) : (c.write data).2.ShutdownInv :=
  h.of_fillWindow (.write data) rfl (c.sender.writeStream data) rfl rfl rfl fun hc hna =>
    ⟨hna, TCPSender.writeStream_alike (hok hc hna)⟩

theorem ShutdownInv.endInputStream {c : TCPConnection} (h : c.ShutdownInv) :
    c.endInputStream.ShutdownInv :=
  h.of_fillWindow .endInputStream rfl c.sender.endStream rfl rfl rfl fun hc hna =>
    ⟨hna, TCPSender.endStream_alike (h.finished hc hna).ended⟩

/-- The clock and the sender's timer move on, which is what `tick` begins with. -/
def ticked (c : TCPConnection) (ms : Nat) : TCPConnection :=
  sendSegments { c with
    timeSinceLastSegmentReceived := (c.timeSinceLastSegmentReceived + ms) % 2 ^ 64
    sender := c.sender.tick ms }

theorem tick_eq (c : TCPConnection) (ms : Nat) :
    c.tick ms = (c.ticked ms).giveUp.stopLingering := rfl

theorem ticked_alike (c : TCPConnection) (ms : Nat) : c.sender.Alike (c.ticked ms).sender :=
  (c.sender.tick_alike ms).trans (c.sender.tick ms).drain_alike

/-- Whether `tick` shuts the connection down can be told before or after its timers have
    moved on: with nothing in flight nothing is sent again. -/
theorem endsOnTick_iff {c : TCPConnection} {ms : Nat} :
    c.EndsOnTick ms ↔
      ¬ (c.ticked ms).sender.consecutiveRetransmissions > TCPConfig.maxRetxAttempts ∧
      (c.ticked ms).Over ∧
      10 * c.cfg.rtTimeout.toNat ≤ (c.timeSinceLastSegmentReceived + ms) % 2 ^ 64 := by
  have hlike := c.ticked_alike ms
  have hover : (c.ticked ms).Over ↔ c.Over := by
    rw [Over, Over, hlike.ended_eq, hlike.outstanding_eq]
    exact Iff.rfl
  have hcount : (c.ticked ms).sender.consecutiveRetransmissions = _ :=
    c.sender.tick_consecutiveRetransmissions ms
  rw [hover, EndsOnTick]
  constructor
  · rintro ⟨hover, hmax, htime⟩
    have hidle : ¬ c.sender.Expires ms := fun hexp => by
      simp [TCPSender.Expires, hover.2.2] at hexp
    rw [if_neg fun hexp => hidle hexp.1] at hcount
    exact ⟨by omega, hover, htime⟩
  · rintro ⟨hmax, hover, htime⟩
    exact ⟨hover, by omega, htime⟩

/-- What `tick` does: the sender's timer moves on, and the flags stay unless the connection
    is shut down or gives up. -/
theorem tick_frame (c : TCPConnection) (ms : Nat) :
    c.sender.Alike (c.tick ms).sender ∧ (c.tick ms).receiver.synRecv = c.receiver.synRecv ∧
    ((c.tick ms).activeFlag = true → c.activeFlag = true) ∧
    ((c.tick ms).Clean → (c.tick ms).receiver = c.receiver ∧
      ((c.tick ms).activeFlag = c.activeFlag ∧
          (c.tick ms).lingerAfterStreamsFinish = c.lingerAfterStreamsFinish ∨
        c.EndsOnTick ms ∧ (c.tick ms).activeFlag = false ∧
          (c.tick ms).lingerAfterStreamsFinish = false)) := by
  have hlike := c.ticked_alike ms
  rw [tick_eq, giveUp]
  split
  · -- the RST sets both errors, and nothing lingers any more
    obtain ⟨hs, hr, -⟩ := (sendRst { c.ticked ms with segmentsOut := [] }).stopLingering_frame
    rw [Clean, hs, hr]
    refine ⟨hlike.trans (c.ticked ms).sender.setStreamError_alike, rfl, ?_, fun hc => nomatch hc.1⟩
    intro ha
    rw [stopLingering] at ha
    split at ha <;> cases ha
  · rename_i hmax
    rw [stopLingering]
    split
    · rename_i hend
      have hover : (c.ticked ms).Over :=
        ⟨hend.1, hend.2.1, TCPSender.bytesInFlight_eq_zero.mp hend.2.2.1⟩
      have hends : c.EndsOnTick ms := endsOnTick_iff.mpr ⟨hmax, hover, hend.2.2.2⟩
      exact ⟨hlike, rfl, (fun ha => nomatch ha), fun _ => ⟨rfl, Or.inr ⟨hends, rfl, rfl⟩⟩⟩
    · exact ⟨hlike, rfl, id, fun _ => ⟨rfl, Or.inl ⟨rfl, rfl⟩⟩⟩

/-- What `tick` does with a connection that has lingered long enough. -/
theorem tick_of_endsOnTick {c : TCPConnection} {ms : Nat} (h : c.EndsOnTick ms) :
    (c.tick ms).active = false ∧ (c.tick ms).receiver = c.receiver ∧
      (c.tick ms).sender.stream = c.sender.stream := by
  obtain ⟨hmax, hover, htime⟩ := endsOnTick_iff.mp h
  have hflight := TCPSender.bytesInFlight_eq_zero.mpr hover.2.2
  have hstream : (c.ticked ms).sender.stream = c.sender.stream := by
    obtain ⟨segs, timer, timeout, retransmissions, -, heq⟩ := c.sender.tick_eq ms
    show (c.sender.tick ms).stream = c.sender.stream
    rw [heq]
  rw [tick_eq, giveUp, if_neg hmax, stopLingering,
    if_pos ⟨hover.1, hover.2.1, hflight, htime⟩]
  exact ⟨rfl, rfl, hstream⟩

theorem ShutdownInv.tick {c : TCPConnection} (h : c.ShutdownInv) {ms : Nat}
    (hok : c.LosesNothing (.tick ms)) : (c.tick ms).ShutdownInv := by
  have hstep : c.step (.tick ms) = some (c.tick ms) := rfl
  obtain ⟨hlike, hsyn, hact, hflags⟩ := c.tick_frame ms
  refine ⟨?_, (step_receiver hstep).ended h.ended, ?_, ?_⟩
  · rw [hlike.next_eq, hsyn]
    exact fun hc => h.started (hc.imp_left hact)
  · intro hclean hoff
    obtain ⟨hrec, ⟨-, hlinger⟩ | ⟨hends, -⟩⟩ := hflags hclean
    · exact hrec ▸ h.lingers (clean_of_step hstep hclean) (hlinger ▸ hoff)
    · exact hrec ▸ hends.1.1
  · intro hclean hna
    obtain ⟨hrec, ⟨hsame, hlinger⟩ | ⟨hends, -⟩⟩ := hflags hclean
    · rw [active, hsame, hlinger] at hna
      exact (h.finished (clean_of_step hstep hclean) hna).of_alike hlike
    · obtain ⟨hin, hout, hnil⟩ := hends.1
      have hsent := hok (clean_of_step hstep hclean) hends
      exact TCPSender.Finished.of_alike hlike ⟨h.started_of_ended hin, hout, hnil, hsent⟩

/-- Taking the acknowledgement of a segment and queueing a reply. -/
theorem reply_sender {c : TCPConnection} (hpos : 0 < c.sender.nextSeqnoAbsolute)
    (seg : TCPSegment) :
    0 < ((c.takeAck seg).ensureReply seg).sender.nextSeqnoAbsolute ∧
    (((c.takeAck seg).ensureReply seg).sender.Stuck ↔ c.sender.StuckAfter seg) ∧
    (((c.takeAck seg).ensureReply seg).sender.Stuck →
      ((c.takeAck seg).ensureReply seg).sender.stream = c.sender.stream) := by
  have hreply : ((c.takeAck seg).ensureReply seg).sender.nextSeqnoAbsolute =
        (c.takeAck seg).sender.nextSeqnoAbsolute ∧
      ((c.takeAck seg).ensureReply seg).sender.outstandingSegments =
        (c.takeAck seg).sender.outstandingSegments ∧
      ((c.takeAck seg).ensureReply seg).sender.finSent = (c.takeAck seg).sender.finSent ∧
      ((c.takeAck seg).ensureReply seg).sender.stream = (c.takeAck seg).sender.stream := by
    unfold ensureReply
    split <;> exact ⟨rfl, rfl, rfl, rfl⟩
  obtain ⟨hnext, hout, hfin, hstream⟩ := hreply
  rw [hnext, hstream, TCPSender.Stuck, TCPSender.Unsent, hout, hfin, hstream]
  show _ ∧ ((c.takeAck seg).sender.Stuck ↔ _) ∧ ((c.takeAck seg).sender.Stuck → _)
  unfold takeAck TCPSender.StuckAfter
  by_cases hack : seg.header.ack = true
  · simp only [hack, if_true, true_and]
    refine ⟨TCPSender.ackReceived_pos hpos _ _, ?_, fun h => TCPSender.ackReceived_stream h.1⟩
    split
    · rename_i hacc
      exact TCPSender.ackReceived_stuck_iff hpos hacc _
    · rename_i hacc
      rw [TCPSender.ackReceived, if_neg hacc]
  · simp only [hack, false_and, if_false, Bool.false_eq_true]
    exact ⟨hpos, trivial, fun _ => trivial⟩

/-- Once lingering is switched off, the sender of a connection that is activated stays as
    it is. -/
theorem ShutdownInv.activated_sender {c : TCPConnection} (h : c.ShutdownInv) (hclean : c.Clean)
    (hoff : c.lingerAfterStreamsFinish = false) : c.activated.sender = c.sender := by
  unfold activated
  split
  · rfl
  · rename_i hact
    have hna : c.active = false := by simp [active, hact, hoff]
    exact (h.finished hclean hna).fillWindow_eq

theorem ShutdownInv.activated_pos {c : TCPConnection} (h : c.ShutdownInv) :
    0 < c.activated.sender.nextSeqnoAbsolute := by
  unfold activated
  split
  · rename_i hact
    exact h.started (Or.inl hact)
  · exact c.sender.fillWindow_run.1

/-- What a segment that is processed leaves of the sender. -/
theorem ShutdownInv.sender_segmentReceived {c c' : TCPConnection} (h : c.ShutdownInv)
    {seg : TCPSegment} (hp : c.Processes seg) (hrst : seg.header.rst = false)
    (hs : c.segmentReceived seg = some c') :
    c.receiver.segmentReceived seg = some c'.receiver ∧ 0 < c'.sender.nextSeqnoAbsolute ∧
    (c'.sender.Stuck ↔ c.activated.sender.StuckAfter seg) ∧
    (c'.sender.Stuck → c'.sender.stream = c.activated.sender.stream) := by
  obtain ⟨hnot, -⟩ | ⟨-, hrst', -⟩ | ⟨-, -, receiver, hr, rfl⟩ := segmentReceived_cases hs
  · exact absurd hp hnot
  · rw [hrst] at hrst'
    cases hrst'
  · obtain ⟨hsender, hrec, -⟩ := updateConnectionStatus_frame
      (((c.received receiver).takeAck seg).ensureReply seg).sendSegments
    rw [hsender, hrec]
    refine ⟨?_, reply_sender (c := c.received receiver) h.activated_pos seg⟩
    rw [hr]
    exact congrArg some (reply_frame (c.received receiver) seg).1.symm

theorem ShutdownInv.segmentReceived {c c' : TCPConnection} (h : c.ShutdownInv) {seg : TCPSegment}
    (hok : c.LosesNothing (.segmentReceived seg)) (hs : c.segmentReceived seg = some c') :
    c'.ShutdownInv := by
  have hstep : c.step (.segmentReceived seg) = some c' := hs
  have hended := (step_receiver hstep).ended h.ended
  have hclean := clean_of_step hstep
  obtain ⟨-, rfl⟩ | ⟨-, -, rfl⟩ | ⟨hp, hrst, -⟩ := segmentReceived_cases hs
  · exact h.of_alike _ hstep TCPSender.Alike.refl rfl rfl rfl
  · -- killed by a RST: both streams have an error
    exact ⟨fun _ => h.activated_pos, hended, (fun hc => nomatch hc.1), fun hc => nomatch hc.1⟩
  · obtain ⟨-, hpos, hstuck, hstream⟩ := h.sender_segmentReceived hp hrst hs
    refine ⟨fun _ => hpos, hended, fun hc hoff => ?_, fun hc hna => ?_⟩
    · cases segmentReceived_case hs hc with
      | ignored hnot => exact absurd hp hnot
      | answered _ _ _ _ hlinger _ =>
          exact (step_receiver hstep).keeps.2.1 (h.lingers (hclean hc) (hlinger ▸ hoff))
      | endedFirst hin _ _ _ => exact hin
      | closed hover _ _ _ => exact hover.1
    · cases segmentReceived_case hs hc with
      | ignored hnot => exact absurd hp hnot
      | answered _ _ _ hact _ _ | endedFirst _ _ hact _ => simp [active, hact] at hna
      | closed hover _ _ hbefore =>
          refine ⟨hpos, hover.2.1, hover.2.2, fun hunsent => ?_⟩
          rw [h.activated_sender (hclean hc) hbefore] at hstuck hstream
          have hst : c'.sender.Stuck := ⟨hover.2.2, hunsent⟩
          exact hok (hclean hc) hp hrst hbefore (hstream hst ▸ hover.2.1) (hstuck.mp hst)

theorem ShutdownInv.step {c c' : TCPConnection} (h : c.ShutdownInv) {op : Op}
    (hok : c.LosesNothing op) (hs : c.step op = some c') : c'.ShutdownInv := by
  cases op with
  | connect => exact Option.some.inj hs ▸ h.connect
  | write data => exact Option.some.inj hs ▸ h.write hok
  | endInputStream => exact Option.some.inj hs ▸ h.endInputStream
  | read len =>
      obtain rfl := Option.some.inj hs
      exact h.of_alike (.read len) rfl TCPSender.Alike.refl rfl rfl rfl
  | popOutput len =>
      obtain rfl := Option.some.inj hs
      exact h.of_alike (.popOutput len) rfl TCPSender.Alike.refl rfl rfl rfl
  | tick ms => exact Option.some.inj hs ▸ h.tick hok
  | segmentReceived seg => exact h.segmentReceived hok hs
  | dequeue =>
      have hstep := hs
      obtain ⟨seg, rest, -, rfl⟩ := step_dequeue hs
      exact h.of_alike .dequeue hstep TCPSender.Alike.refl rfl rfl rfl

-- ============================================================================
-- What is lost
-- ============================================================================

/-- A segment that shuts the connection down while its sender is stuck. -/
theorem ShutdownInv.segmentReceived_of_stuckAfter {c c' : TCPConnection} (h : c.ShutdownInv)
    {seg : TCPSegment} (hclean : c.Clean) (hp : c.Processes seg) (hrst : seg.header.rst = false)
    (hoff : c.lingerAfterStreamsFinish = false) (hout : c.sender.stream.inputEnded = true)
    (hst : c.sender.StuckAfter seg) (hs : c.segmentReceived seg = some c') :
    c'.active = false ∧ c'.Clean ∧ c'.sender.Unsent := by
  obtain ⟨hr, -, hstuck, hstream⟩ := h.sender_segmentReceived hp hrst hs
  rw [h.activated_sender hclean hoff] at hstuck hstream
  obtain ⟨herr, hended, -⟩ := TCPReceiver.segmentReceived_keeps hr
  have hst' : c'.sender.Stuck := hstuck.mpr hst
  have hclean' : c'.Clean := by
    rw [Clean, herr, hstream hst']
    exact hclean
  cases segmentReceived_case hs hclean' with
  | ignored hnot => exact absurd hp hnot
  | answered _ _ _ _ hlinger hrest =>
      -- both streams have ended, so with nothing in flight the connection is closed
      exact absurd hst'.1 ((hrest (hended (h.lingers hclean hoff))).2 (hlinger.trans hoff))
  | endedFirst _ hnot _ _ =>
      rw [hstream hst', hout] at hnot
      cases hnot
  | closed _ hact hoff' _ => exact ⟨by simp [active, hact, hoff'], hclean', hst'.2⟩

/-- A write that is accepted after the shutdown: the bytes wait, or are in flight. -/
theorem not_cleanlyClosed_write {c : TCPConnection} {data : List UInt8}
    (hpos : 0 < c.sender.stream.bytesToWrite data) : ¬ (c.write data).2.CleanlyClosed := by
  intro hclosed
  have hflight : (c.sender.writeStream data).fillWindow.outstandingSegments = [] :=
    TCPSender.bytesInFlight_eq_zero.mp hclosed.acknowledged
  have hbuf : (c.sender.writeStream data).fillWindow.stream.buffer = [] := hclosed.all_sent.1
  rw [(TCPSender.fillWindow_sends _).resolve_right (not_not_intro hflight)] at hbuf
  have hlen : (c.sender.stream.buffer ++
      data.take (c.sender.stream.bytesToWrite data)).length = 0 := congrArg List.length hbuf
  rw [ByteStream.bytesToWrite_eq] at hpos hlen
  rw [List.length_append, List.length_take] at hlen
  omega

-- ============================================================================
-- Whole runs
-- ============================================================================

/-- A connection whose sender is done is closed. -/
theorem ShutdownInv.cleanShutdown {c : TCPConnection} (h : c.ShutdownInv)
    (hcounts : c.sender.Counts) : c.CleanShutdown := by
  intro hna hc
  have hin := h.lingers hc (Bool.or_eq_false_iff.mp hna).2
  obtain ⟨hpos, hout, hnil, hnot⟩ := h.finished hc hna
  have hbuf : c.sender.stream.buffer = [] := by
    by_contra hne
    exact hnot (Or.inl hne)
  have hfin : c.sender.finSent = true := by
    by_contra hne
    exact hnot (Or.inr ⟨hout, by simpa using hne⟩)
  have hread : c.sender.stream.bytesRead = c.sender.stream.bytesWritten := by
    rw [hcounts.written_eq, hbuf]
    rfl
  have hnext : c.sender.nextSeqnoAbsolute = c.sender.stream.bytesWritten + 2 := by
    have hcount := hcounts.next_eq hpos
    rw [hfin, if_pos rfl] at hcount
    omega
  have hflight : c.sender.bytesInFlight = 0 := TCPSender.bytesInFlight_eq_zero.mpr hnil
  refine ⟨hin, hout, ⟨hbuf, hread⟩, hnext, hflight, ?_⟩
  have heof : c.sender.stream.eof = true := (ByteStream.eof_iff _).mpr ⟨hout, hbuf⟩
  have hs : c.sender.stateSummary = .finAcked := by
    rw [hcounts.stateSummary_sent hc.2 (by omega) hfin heof, if_pos hflight]
  have hr : c.receiver.stateSummary = .finRecv := by
    simp [TCPReceiver.stateSummary, hc.1, hin, TCPReceiver.ackno, h.ended hin]
  simp [state, TCPState.of, hs, hr, hna, TCPState.ofState]

/-- A connection that was closed cleanly has nothing left to send. -/
theorem CleanlyClosed.not_unsent {c : TCPConnection} (h : c.CleanlyClosed)
    (hcounts : c.sender.Counts) : ¬ c.sender.Unsent := by
  rintro (hbuf | ⟨-, hfin⟩)
  · exact hbuf h.all_sent.1
  · have hnext := h.fin_sent
    have hread := h.all_sent.2
    have hcount := hcounts.next_eq (by omega)
    rw [hfin, if_neg Bool.false_ne_true] at hcount
    omega

/-- A step that loses something ends in a connection that is not closed cleanly. -/
theorem ShutdownInv.not_cleanShutdown {c c' : TCPConnection} (h : c.ShutdownInv) {op : Op}
    (hbad : ¬ c.LosesNothing op) (hs : c.step op = some c') (hcounts : c'.sender.Counts) :
    ¬ c'.CleanShutdown := by
  intro hshut
  cases op with
  | write data =>
      obtain rfl := Option.some.inj hs
      simp only [LosesNothing, Classical.not_imp] at hbad
      obtain ⟨hclean, hna, hne⟩ := hbad
      have herr := (c.sender.writeStream data).fillWindow_error
      exact not_cleanlyClosed_write (Nat.pos_of_ne_zero hne)
        (hshut hna ⟨hclean.1, herr.trans hclean.2⟩)
  | segmentReceived seg =>
      simp only [LosesNothing, Classical.not_imp, not_not] at hbad
      obtain ⟨hclean, hp, hrst, hoff, hout, hst⟩ := hbad
      obtain ⟨hna, hclean', hunsent⟩ :=
        h.segmentReceived_of_stuckAfter hclean hp hrst hoff hout hst hs
      exact (hshut hna hclean').not_unsent hcounts hunsent
  | tick ms =>
      obtain rfl := Option.some.inj hs
      simp only [LosesNothing, Classical.not_imp, not_not] at hbad
      obtain ⟨hclean, hends, hunsent⟩ := hbad
      obtain ⟨hna, hrec, hstream⟩ := tick_of_endsOnTick hends
      have hclean' : (c.tick ms).Clean := by
        rw [Clean, hrec, hstream]
        exact hclean
      exact (hshut hna hclean').not_unsent hcounts
        ((c.tick_frame ms).1.unsent_iff.mpr hunsent)
  | _ => exact hbad trivial

/-- **Clean shutdown.**  Along a run an inactive connection without an error was always
    closed cleanly exactly if nothing shuts a connection down whose sender is stuck, and
    nothing is accepted once it is inactive. -/
theorem cleanShutdown_iff_losesNothing (endNode : List ByteString → Nat) (cfg : TCPConfig)
    (isn : WrappingInt32) {ops : List Op} {c : TCPConnection}
    (hrun : Run (Guarded (fun _ _ => True) step) (new endNode cfg isn) ops c) :
    (∀ fs d, fs <+: ops → Run (Guarded (fun _ _ => True) step) (new endNode cfg isn) fs d →
      d.CleanShutdown) ↔
    Run (Guarded LosesNothing step) (new endNode cfg isn) ops c := by
  have hinv : ∀ fs d, Run (Guarded LosesNothing step) (new endNode cfg isn) fs d →
      d.ShutdownInv := fun fs d hd =>
    hd.invariant (shutdownInv_new endNode cfg isn) fun _ _ _ h hs => h.step hs.1 hs.2
  refine Run.always_iff_of_true (P := fun _ => CleanShutdown)
    (fun fs d hd => (hinv fs d hd).cleanShutdown (run_counts hd)) ?_ hrun
  intro fs d op e hd hbad hs
  have hcounts : e.sender.Counts :=
    run_counts (Run.snoc op (hd.mono fun _ _ _ h => ⟨trivial, h.2⟩)
      (⟨trivial, hs⟩ : Guarded (fun _ _ => True) step d op e))
  exact (hinv fs d hd).not_cleanShutdown hbad hs hcounts

/-- The peer's SYN, with the acknowledgement of ours and a window of 100. -/
def synAck : TCPSegment :=
  { header := { seqno := ⟨100⟩, ackno := ⟨1⟩, win := 100, ack := true, syn := true } }

/-- The peer ends its stream first and closes its window; one of two bytes goes out
    and is acknowledged with a window that ends before the first one did. -/
def stalledClose : List Op :=
  [.connect,
    .segmentReceived synAck,
    .segmentReceived
      { header := { seqno := ⟨101⟩, ackno := ⟨1⟩, win := 0, ack := true, fin := true } },
    .write [97, 98],
    .endInputStream,
    .segmentReceived { header := { seqno := ⟨102⟩, ackno := ⟨2⟩, win := 10, ack := true } }]

/-- The connection is shut down with a byte and the FIN unsent. -/
theorem cleanShutdown_fails :
    ∃ c, Run (Guarded (fun _ _ => True) step) (new List.length { fixedIsn := some ⟨0⟩ } ⟨0⟩)
        stalledClose c ∧
      c.active = false ∧ c.Clean ∧ c.sender.stream.buffer = [98] ∧
      c.sender.nextSeqnoAbsolute = 2 ∧ ¬ c.CleanShutdown := by
  have hrun := Run.of_exec (fun _ _ => True) step (new List.length { fixedIsn := some ⟨0⟩ } ⟨0⟩)
    stalledClose (by decide)
  refine ⟨_, hrun, by decide, by decide, by decide, by decide, fun h => ?_⟩
  have hsent := (h (by decide) (by decide)).fin_sent
  revert hsent
  decide

/-- The peer ends its stream first; then two bytes and the FIN are sent and
    acknowledged. -/
def passiveClose : List Op :=
  [.connect,
    .segmentReceived synAck,
    .segmentReceived
      { header := { seqno := ⟨101⟩, ackno := ⟨1⟩, win := 100, ack := true, fin := true } },
    .write [97, 98],
    .endInputStream,
    .segmentReceived { header := { seqno := ⟨102⟩, ackno := ⟨4⟩, win := 100, ack := true } }]

theorem cleanShutdown_iff_losesNothing_passiveClose :
    ∃ c, Run (Guarded LosesNothing step) (new List.length { fixedIsn := some ⟨0⟩ } ⟨0⟩)
        passiveClose c ∧
      c.active = false ∧ c.CleanlyClosed := by
  have hrun := Run.of_exec (fun _ _ => True) step (new List.length { fixedIsn := some ⟨0⟩ } ⟨0⟩)
    passiveClose (by decide)
  have hgood := Run.of_exec LosesNothing step (new List.length { fixedIsn := some ⟨0⟩ } ⟨0⟩)
    passiveClose (by decide)
  refine ⟨_, hgood, by decide, ?_⟩
  exact (cleanShutdown_iff_losesNothing List.length { fixedIsn := some ⟨0⟩ } ⟨0⟩ hrun).mpr hgood
    passiveClose _ (List.prefix_refl _) hrun (by decide) (by decide)

end TCPConnection

end Sponge
