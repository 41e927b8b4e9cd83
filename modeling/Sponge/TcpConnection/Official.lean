/-
  Sponge.TcpConnection.Official

  Which of the official states a connection is in.

  The state is not stored: it is read off the counters of the sender, the flags of the
  receiver and the linger flag, and of the combinations only some have a name.  The flag
  is decided when a segment arrives, by whether the outbound stream was ended
  (`update_connection_status`), but the name depends on whether the FIN was sent.  So a
  connection whose FIN is held back by the window when the peer's FIN completes the
  inbound stream lingers in a state that has no name (`officialStates_fails`).

  `officialStates_of_keepsOfficial` says what else has to be kept away from: bytes that
  are written behind the FIN and wait there once the inbound stream is complete, and
  connecting a connection again that is over.
-/

import Sponge.TcpConnection.Finality
import Sponge.TcpConnection.Shutdown

namespace Sponge

open Lib (Run Guarded)

-- ============================================================================
-- The FIN of a sender
-- ============================================================================

namespace SenderTrace

open TCPSender

/-- A FIN that was sent stays sent. -/
theorem finSent_after {t : SenderTrace} (h : t.sender.finSent = true) (op : TCPSender.Op) :
    (t.after op).sender.finSent = true := by
  apply after_induction (I := fun u => u.sender.finSent = true)
  · rw [direct_finSent, h]
  · rintro u seg s hu ⟨hf⟩
    show (u.sender.finSent || seg.header.fin) = true
    rw [hu, Bool.true_or]

/-- The FIN is sent after the SYN, when the input has ended. -/
theorem finEnded_after {t : SenderTrace}
    (h : t.sender.finSent = true →
      t.sender.stream.inputEnded = true ∧ 0 < t.sender.nextSeqnoAbsolute) (op : TCPSender.Op) :
    (t.after op).sender.finSent = true →
      (t.after op).sender.stream.inputEnded = true ∧
        0 < (t.after op).sender.nextSeqnoAbsolute := by
  apply after_induction (I := fun u => u.sender.finSent = true →
    u.sender.stream.inputEnded = true ∧ 0 < u.sender.nextSeqnoAbsolute)
  · rw [direct_finSent, direct_nextSeqnoAbsolute]
    intro hfin
    refine ⟨?_, (h hfin).2⟩
    by_cases hop : ∃ data, op = .write data
    · obtain ⟨data, rfl⟩ := hop
      rw [direct_write]
      exact (h hfin).1
    · push Not at hop
      obtain ⟨-, hs | hs | hs⟩ := t.direct_stream hop <;> simp [hs, (h hfin).1]
  · rintro u seg s hu hemit hfin
    refine ⟨?_, Nat.lt_of_le_of_lt (Nat.zero_le _) hemit.nextSeqnoAbsolute_lt⟩
    obtain ⟨hf⟩ := hemit
    obtain hfin | hfin := (Bool.or_eq_true _ _).mp hfin
    · exact hf.inputEnded_eq.trans (hu hfin).1
    · exact ((ByteStream.eof_iff _).mp (hf.fin_ok hfin).2).1

/-- Unless it is written to, a stream whose FIN was sent last stays empty. -/
theorem finDrained_after {t : SenderTrace}
    (h : t.sender.finSent = true ∧ t.sender.stream.buffer = []) {op : TCPSender.Op}
    (hop : ∀ data, op ≠ .write data) :
    (t.after op).sender.finSent = true ∧ (t.after op).sender.stream.buffer = [] := by
  apply after_induction (I := fun u => u.sender.finSent = true ∧ u.sender.stream.buffer = [])
  · rw [direct_finSent]
    obtain ⟨-, hs | hs | hs⟩ := t.direct_stream hop <;> simp [hs, h.1, h.2]
  · rintro u seg s ⟨hfin, hempty⟩ ⟨hf⟩
    have hbuf := hf.buffer_eq
    rw [hempty] at hbuf
    refine ⟨?_, (List.append_eq_nil_iff.mp hbuf).2⟩
    show (u.sender.finSent || seg.header.fin) = true
    rw [hfin, Bool.true_or]

end SenderTrace

namespace TCPConnection

-- ============================================================================
-- The flags
-- ============================================================================

/-- The segment completes the inbound stream. -/
def Completes (c : TCPConnection) (seg : TCPSegment) : Prop :=
  c.inboundStream.inputEnded = false ∧ c.Processes seg ∧ seg.header.rst = false ∧
    c.receiver.EndsStream seg

instance (c : TCPConnection) (seg : TCPSegment) : Decidable (c.Completes seg) :=
  inferInstanceAs (Decidable (_ ∧ _))

/-- Without an error on either stream, a connection that is over is not connected again;
    once the inbound stream is complete and while the connection lingers, no more is
    written than the window has room for; and when the inbound stream is completed after
    the end of the outbound one, the FIN was sent and nothing waits behind it. -/
def KeepsOfficial (c : TCPConnection) : Op → Prop
  | .connect => c.Clean → c.active = false → ¬ c.sender.Finished
  | .write data => c.Clean → c.inboundStream.inputEnded = true →
      c.lingerAfterStreamsFinish = true →
      c.sender.stream.bytesToWrite data ≤ c.sender.windowSize
  | .segmentReceived seg => c.Clean → c.Completes seg → c.sender.stream.inputEnded = true →
      c.sender.finSent = true ∧ c.sender.stream.buffer = []
  | _ => True

instance (c : TCPConnection) : ∀ op, Decidable (c.KeepsOfficial op)
  | .connect => inferInstanceAs (Decidable (_ → _ → _))
  | .write _ => inferInstanceAs (Decidable (_ → _ → _ → _))
  | .segmentReceived _ => inferInstanceAs (Decidable (_ → _ → _ → _))
  | .endInputStream | .read _ | .popOutput _ | .tick _ | .dequeue => isTrue trivial

/-- What the linger flag and the FIN say about each other.  Lingering is off only after
    the inbound stream is complete; a connection that lingers after that has sent its FIN,
    and nothing is left to send behind it; and one that does not linger is active only
    while its FIN, or something before it, is not acknowledged. -/
structure OfficialInv (c : TCPConnection) : Prop where
  inv : c.receiver.reassembler.Inv
  fin_ended : c.sender.finSent = true →
    c.sender.stream.inputEnded = true ∧ 0 < c.sender.nextSeqnoAbsolute
  linger_off : c.Clean → c.lingerAfterStreamsFinish = false →
    c.receiver.streamOut.inputEnded = true
  linger_on : c.Clean → c.receiver.streamOut.inputEnded = true →
    c.lingerAfterStreamsFinish = true →
    c.sender.finSent = true ∧ c.sender.stream.buffer = []
  in_flight : c.Clean → c.activeFlag = true → c.lingerAfterStreamsFinish = false →
    ¬ c.sender.Finished

theorem officialInv_new (endNode : List ByteString → Nat) (cfg : TCPConfig)
    (isn : WrappingInt32) : (new endNode cfg isn).OfficialInv where
  inv := StreamReassembler.inv_new endNode cfg.recvCapacity
  fin_ended := nofun
  linger_off := nofun
  linger_on := nofun
  in_flight := nofun

theorem step_finEnded {c c' : TCPConnection} {op : Op} (h : c.step op = some c')
    (hfin : c.sender.finSent = true →
      c.sender.stream.inputEnded = true ∧ 0 < c.sender.nextSeqnoAbsolute) :
    c'.sender.finSent = true →
      c'.sender.stream.inputEnded = true ∧ 0 < c'.sender.nextSeqnoAbsolute :=
  step_sender_invariant (I := fun s => s.finSent = true →
    s.stream.inputEnded = true ∧ 0 < s.nextSeqnoAbsolute) h hfin
    fun _ sop _ ht => SenderTrace.finEnded_after ht sop

/-- Nothing waits behind the FIN after a step, unless it was written. -/
theorem step_finDrained {c c' : TCPConnection} {op : Op} (h : c.step op = some c')
    (hfin : c.sender.finSent = true ∧ c.sender.stream.buffer = [])
    (hop : ∀ data, op ≠ .write data) :
    c'.sender.finSent = true ∧ c'.sender.stream.buffer = [] := by
  refine step_sender_invariant (I := fun s => s.finSent = true ∧ s.stream.buffer = []) h hfin ?_
  intro t sop hsop ht
  refine SenderTrace.finDrained_after ht ?_
  rintro data rfl
  exact hop data hsop.1

/-- What is written behind the FIN goes out if the window has room for it. -/
theorem write_finDrained {c : TCPConnection} {data : List UInt8}
    (hfin : c.sender.finSent = true ∧ c.sender.stream.buffer = [])
    (hnext : 0 < c.sender.nextSeqnoAbsolute)
    (hfit : c.sender.stream.bytesToWrite data ≤ c.sender.windowSize) :
    (c.write data).2.sender.finSent = true ∧ (c.write data).2.sender.stream.buffer = [] := by
  have hsent : (c.write data).2.sender.finSent = true :=
    step_sender_invariant (I := fun s => s.finSent = true)
      (show c.step (.write data) = some (c.write data).2 from rfl) hfin.1
      fun _ sop _ ht => SenderTrace.finSent_after ht sop
  refine ⟨hsent, ?_⟩
  show (c.sender.writeStream data).fillWindow.stream.buffer = []
  refine TCPSender.fillWindow_drains hnext hfin.1 ?_
  show (c.sender.stream.buffer ++
    data.take (c.sender.stream.bytesToWrite data)).length ≤ c.sender.windowSize
  rw [hfin.2, List.nil_append, List.length_take]
  omega

/-- What a step from `c` to `c'` does with the flags. -/
structure FlagStep (c c' : TCPConnection) : Prop where
  linger : c'.Clean → c'.lingerAfterStreamsFinish = c.lingerAfterStreamsFinish ∨
    c'.lingerAfterStreamsFinish = false ∧ c'.receiver.streamOut.inputEnded = true
  ended : c'.Clean → c'.receiver.streamOut.inputEnded = true →
    c'.lingerAfterStreamsFinish = true →
    c.receiver.streamOut.inputEnded = true ∨
      c.sender.finSent = true ∧ c.sender.stream.buffer = []
  in_flight : c'.Clean → c'.activeFlag = true → c'.lingerAfterStreamsFinish = false →
    ¬ c'.sender.Finished

/-- A step that keeps the connection lingering comes from one that lingered. -/
theorem FlagStep.lingered {c c' : TCPConnection} (h : c.FlagStep c') (hclean : c'.Clean)
    (hlinger : c'.lingerAfterStreamsFinish = true) : c.lingerAfterStreamsFinish = true := by
  obtain hsame | ⟨hoff, -⟩ := h.linger hclean
  · exact hsame.symm.trans hlinger
  · rw [hlinger] at hoff
    cases hoff

/-- After a step that completes the inbound stream, or finds it complete, the connection
    lingers only if the FIN was sent before, and nothing waited behind it. -/
theorem OfficialInv.finSent_of_linger {c c' : TCPConnection} (h : c.OfficialInv) {op : Op}
    (hs : c.step op = some c') (hf : c.FlagStep c') (hclean : c'.Clean)
    (hended : c'.receiver.streamOut.inputEnded = true)
    (hlinger : c'.lingerAfterStreamsFinish = true) :
    c.sender.finSent = true ∧ c.sender.stream.buffer = [] := by
  obtain hbefore | hfin := hf.ended hclean hended hlinger
  · exact h.linger_on (clean_of_step hs hclean) hbefore (hf.lingered hclean hlinger)
  · exact hfin

theorem OfficialInv.of_flagStep {c c' : TCPConnection} (h : c.OfficialInv) {op : Op}
    (hop : c.KeepsOfficial op) (hs : c.step op = some c') (hf : c.FlagStep c') :
    c'.OfficialInv where
  inv := (step_receiver hs).inv h.inv
  fin_ended := step_finEnded hs h.fin_ended
  linger_off := by
    intro hclean hoff
    obtain hsame | ⟨-, hended⟩ := hf.linger hclean
    · have hbefore := h.linger_off (clean_of_step hs hclean) (hsame.symm.trans hoff)
      exact (step_receiver hs).keeps.2.1 hbefore
    · exact hended
  linger_on := by
    intro hclean hended hlinger
    have hfin := h.finSent_of_linger hs hf hclean hended hlinger
    by_cases hwrite : ∃ data, op = .write data
    · obtain ⟨data, rfl⟩ := hwrite
      obtain rfl := Option.some.inj hs
      exact write_finDrained hfin (h.fin_ended hfin.1).2
        (hop (clean_of_step hs hclean) hended (hf.lingered hclean hlinger))
    · push Not at hwrite
      exact step_finDrained hs hfin hwrite
  in_flight := hf.in_flight

-- ============================================================================
-- Steps
-- ============================================================================

/-- A step that leaves the flags and the receiver alone, and the sender as far as they
    depend on it. -/
theorem OfficialInv.flagStep_of_same {c c' : TCPConnection} (h : c.OfficialInv) {op : Op}
    (hs : c.step op = some c')
    (hlinger : c'.lingerAfterStreamsFinish = c.lingerAfterStreamsFinish)
    (hactive : c.Clean → c'.activeFlag = true → c.active = false → ¬ c.sender.Finished)
    (hended : c'.receiver.streamOut.inputEnded = c.receiver.streamOut.inputEnded)
    (hsender : c'.sender.Finished → c.sender.Finished) : c.FlagStep c' where
  linger := fun _ => Or.inl hlinger
  ended := fun _ hend _ => Or.inl (hended ▸ hend)
  in_flight := by
    intro hclean hact hoff hfin
    have hclean := clean_of_step hs hclean
    rw [hlinger] at hoff
    cases hflag : c.activeFlag with
    | true => exact h.in_flight hclean hflag hoff (hsender hfin)
    | false => exact hactive hclean hact (by rw [active, hflag, hoff]; rfl) (hsender hfin)

/-- A step that ends in `fill_window` sends something, or changes nothing. -/
theorem finished_of_fillWindow {s : TCPSender} (h : s.fillWindow.drain.Finished) : s.Finished := by
  have hsame := s.fillWindow_sends.resolve_right (not_not_intro h.idle)
  rw [hsame] at h
  exact ⟨h.started, h.ended, h.idle, h.all_sent⟩

theorem active_ne_false {c : TCPConnection} (h : c.activeFlag = true) : c.active ≠ false := by
  rw [active, h, Bool.true_or]
  exact Bool.true_eq_false_eq_False

theorem FlagStep.of_not_clean {c c' : TCPConnection} (h : ¬ c'.Clean) : c.FlagStep c' where
  linger := fun hclean => absurd hclean h
  ended := fun hclean => absurd hclean h
  in_flight := fun hclean => absurd hclean h

/-- Shutting down is possible once the inbound stream is complete. -/
theorem FlagStep.of_shutdown {c c' : TCPConnection} (hended : c'.receiver.streamOut.inputEnded = true)
    (hact : c'.activeFlag = false) (hoff : c'.lingerAfterStreamsFinish = false) :
    c.FlagStep c' where
  linger := fun _ => Or.inr ⟨hoff, hended⟩
  ended := by
    intro _ _ hon
    rw [hoff] at hon
    cases hon
  in_flight := by
    intro _ hactive
    rw [hact] at hactive
    cases hactive

theorem OfficialInv.tick {c : TCPConnection} (h : c.OfficialInv) (ms : Nat) :
    c.FlagStep (c.tick ms) := by
  obtain ⟨hlike, -, hact, hflags⟩ := c.tick_frame ms
  by_cases hclean : (c.tick ms).Clean
  · obtain ⟨hrec, ⟨-, hlinger⟩ | ⟨hends, hna, hoff⟩⟩ := hflags hclean
    · exact h.flagStep_of_same (show c.step (.tick ms) = some (c.tick ms) from rfl) hlinger
        (fun _ ha hna => absurd hna (active_ne_false (hact ha))) (by rw [hrec])
        (TCPSender.Finished.of_alike hlike.symm)
    · exact .of_shutdown (hrec ▸ hends.1.1) hna hoff
  · exact .of_not_clean hclean

theorem OfficialInv.segmentReceived {c c' : TCPConnection} (h : c.OfficialInv)
    {seg : TCPSegment} (hop : c.KeepsOfficial (.segmentReceived seg))
    (hs : c.segmentReceived seg = some c') : c.FlagStep c' := by
  have hstep : c.step (.segmentReceived seg) = some c' := hs
  have houtbound := step_inputEnded hstep nofun
  have hkeeps := (step_receiver hstep).keeps.2.1
  by_cases hclean : c'.Clean
  · have hbefore := clean_of_step hstep hclean
    cases segmentReceived_case hs hclean with
    | ignored =>
        exact h.flagStep_of_same hstep rfl (fun _ ha hna => absurd hna (active_ne_false ha)) rfl id
    | answered hp hrst hr _ hlinger hrest =>
        refine ⟨fun _ => Or.inl hlinger, ?_, ?_⟩
        · intro _ hend _
          cases hin : c.receiver.streamOut.inputEnded with
          | true => exact Or.inl rfl
          | false =>
              have hends := (TCPReceiver.segmentReceived_inputEnded_iff h.inv hin hr).mp hend
              exact Or.inr (hop hbefore ⟨hin, hp, hrst, hends⟩
                (houtbound.symm.trans (hrest hend).1))
        · intro _ _ hoff hfin
          have hin := h.linger_off hbefore (hlinger.symm.trans hoff)
          exact (hrest (hkeeps hin)).2 hoff hfin.idle
    | endedFirst hin hout _ hoff =>
        refine ⟨fun _ => Or.inr ⟨hoff, hin⟩, ?_, ?_⟩
        · intro _ _ hon
          rw [hoff] at hon
          cases hon
        · intro _ _ _ hfin
          rw [hfin.ended] at hout
          cases hout
    | closed hover hact hoff _ => exact .of_shutdown hover.1 hact hoff
  · exact .of_not_clean hclean

theorem OfficialInv.flagStep {c c' : TCPConnection} (h : c.OfficialInv) {op : Op}
    (hop : c.KeepsOfficial op) (hs : c.step op = some c') : c.FlagStep c' := by
  have hstep := hs
  cases op with
  | connect =>
      obtain rfl := Option.some.inj hs
      exact h.flagStep_of_same hstep rfl (fun hc _ => hop hc) rfl finished_of_fillWindow
  | write data =>
      obtain rfl := Option.some.inj hs
      refine h.flagStep_of_same hstep rfl (fun _ ha hna => absurd hna (active_ne_false ha)) rfl ?_
      intro hfin
      obtain ⟨hpos, hended, hidle, hsent⟩ :=
        finished_of_fillWindow (s := c.sender.writeStream data) hfin
      refine ⟨hpos, hended, hidle, fun hunsent => hsent (hunsent.imp_left fun hne hnil => ?_)⟩
      exact hne (List.append_eq_nil_iff.mp hnil).1
  | endInputStream =>
      obtain rfl := Option.some.inj hs
      refine h.flagStep_of_same hstep rfl (fun _ ha hna => absurd hna (active_ne_false ha)) rfl ?_
      intro hfin
      obtain ⟨hpos, -, hidle, hsent⟩ :=
        finished_of_fillWindow (s := c.sender.endStream) hfin
      have hfinSent : c.sender.finSent = true := by
        by_contra hnot
        exact hsent (Or.inr ⟨rfl, Bool.eq_false_iff.mpr hnot⟩)
      refine ⟨hpos, (h.fin_ended hfinSent).1, hidle, fun hunsent => hsent ?_⟩
      exact hunsent.imp_right fun hwait => ⟨rfl, hwait.2⟩
  | read len | popOutput len =>
      obtain rfl := Option.some.inj hs
      exact h.flagStep_of_same hstep rfl (fun _ ha hna => absurd hna (active_ne_false ha)) rfl id
  | tick ms => exact Option.some.inj hs ▸ h.tick ms
  | segmentReceived seg => exact h.segmentReceived hop hs
  | dequeue =>
      obtain ⟨seg, rest, -, rfl⟩ := step_dequeue hs
      exact h.flagStep_of_same hstep rfl (fun _ ha hna => absurd hna (active_ne_false ha)) rfl id

-- ============================================================================
-- The official states
-- ============================================================================

/-- Active, without an error, and synchronised in both directions. -/
structure Synchronised (c : TCPConnection) : Prop where
  active : c.active = true
  clean : c.Clean
  syn_received : c.receiver.synRecv = true
  syn_acked : c.bytesInFlight < c.sender.nextSeqnoAbsolute

/-- The official states of a synchronised connection. -/
def synchronisedStates : List TCPState.State :=
  [.established, .closeWait, .lastAck, .finWait1, .finWait2, .closing, .timeWait]

theorem Synchronised.state_eq {c : TCPConnection} (h : c.Synchronised) :
    c.state = {
      sender := c.sender.stateSummary
      receiver := if c.receiver.streamOut.inputEnded then .finRecv else .synRecv
      lingerAfterStreamsFinish := c.lingerAfterStreamsFinish } := by
  simp [state, TCPState.of, h.active, TCPReceiver.stateSummary, h.clean.1, TCPReceiver.ackno,
    h.syn_received]

/-- A connection that does not linger is in CLOSE_WAIT or LAST_ACK. -/
theorem OfficialInv.passive {c : TCPConnection} (h : c.OfficialInv) (hcounts : c.sender.Counts)
    (hc : c.Synchronised) (hoff : c.lingerAfterStreamsFinish = false) :
    c.state = .ofState .closeWait ∨ c.state = .ofState .lastAck := by
  have hended := h.linger_off hc.clean hoff
  rw [hc.state_eq, hended, hoff]
  cases hfin : c.sender.finSent with
  | false =>
      rw [hcounts.stateSummary_unsent hc.clean.2 hc.syn_acked hfin]
      exact Or.inl rfl
  | true =>
      rw [TCPSender.stateSummary_of_acked hc.clean.2 hc.syn_acked]
      split
      · next hsent =>
          have hact := hc.active
          rw [TCPConnection.active, hoff, Bool.or_false] at hact
          obtain ⟨houtbound, hbuf⟩ := (ByteStream.eof_iff _).mp hsent.1
          have hflight : c.sender.bytesInFlight ≠ 0 := by
            intro hzero
            refine h.in_flight hc.clean hact hoff ⟨(h.fin_ended hfin).2, houtbound,
              TCPSender.bytesInFlight_eq_zero.mp hzero, ?_⟩
            rintro (hne | ⟨-, hunsent⟩)
            · exact hne hbuf
            · rw [hfin] at hunsent
              cases hunsent
          rw [if_neg hflight]
          exact Or.inr rfl
      · exact Or.inl rfl

/-- A connection that lingers is in one of the other five. -/
theorem OfficialInv.lingering {c : TCPConnection} (h : c.OfficialInv)
    (hcounts : c.sender.Counts) (hc : c.Synchronised)
    (hon : c.lingerAfterStreamsFinish = true) :
    ∃ s ∈ [TCPState.State.established, .finWait1, .finWait2, .closing, .timeWait],
      c.state = .ofState s := by
  rw [hc.state_eq, hon]
  cases hended : c.receiver.streamOut.inputEnded with
  | false =>
      rw [TCPSender.stateSummary_of_acked hc.clean.2 hc.syn_acked]
      split
      · split
        · exact ⟨.finWait2, by simp, rfl⟩
        · exact ⟨.finWait1, by simp, rfl⟩
      · exact ⟨.established, by simp, rfl⟩
  | true =>
      obtain ⟨hfin, hbuf⟩ := h.linger_on hc.clean hended hon
      have heof : c.sender.stream.eof = true :=
        (ByteStream.eof_iff _).mpr ⟨(h.fin_ended hfin).1, hbuf⟩
      rw [hcounts.stateSummary_sent hc.clean.2 hc.syn_acked hfin heof]
      split
      · exact ⟨.timeWait, by simp, rfl⟩
      · exact ⟨.closing, by simp, rfl⟩

theorem OfficialInv.official {c : TCPConnection} (h : c.OfficialInv)
    (hcounts : c.sender.Counts) (hc : c.Synchronised) :
    ∃ s ∈ synchronisedStates, c.state = .ofState s := by
  cases hlinger : c.lingerAfterStreamsFinish with
  | false =>
      obtain hstate | hstate := h.passive hcounts hc hlinger
      · exact ⟨_, by simp [synchronisedStates], hstate⟩
      · exact ⟨_, by simp [synchronisedStates], hstate⟩
  | true =>
      obtain ⟨s, hs, hstate⟩ := h.lingering hcounts hc hlinger
      refine ⟨s, ?_, hstate⟩
      revert hs
      cases s <;> simp [synchronisedStates]

end TCPConnection

-- ============================================================================
-- Runs
-- ============================================================================

/-- A connection, and whether the peer's FIN was assembled before its own was sent.  A
    segment is assembled before its acknowledgement makes the sender send. -/
structure CloseTrace where
  conn : TCPConnection
  peerFirst : Bool := false

namespace CloseTrace

open TCPConnection

def new (endNode : List ByteString → Nat) (cfg : TCPConfig) (isn : WrappingInt32) :
    CloseTrace where
  conn := .new endNode cfg isn

def step (t : CloseTrace) (op : Op) : Option CloseTrace :=
  (t.conn.step op).map fun c =>
    { conn := c
      peerFirst := t.peerFirst || (c.inboundStream.inputEnded && !t.conn.sender.finSent) }

/-- A synchronised connection is in an official state; if the peer's FIN was first, in
    CLOSE_WAIT or LAST_ACK and not lingering. -/
structure OfficialStates (t : CloseTrace) : Prop where
  official : t.conn.Synchronised → ∃ s ∈ synchronisedStates, t.conn.state = .ofState s
  passive : t.conn.Synchronised → t.peerFirst = true →
    (t.conn.state = .ofState .closeWait ∨ t.conn.state = .ofState .lastAck) ∧
    t.conn.lingerAfterStreamsFinish = false

/-- After the peer's FIN was first, the connection does not linger. -/
structure CloseInv (t : CloseTrace) : Prop where
  conn : t.conn.OfficialInv
  peer_first : t.conn.Clean → t.peerFirst = true → t.conn.lingerAfterStreamsFinish = false

theorem closeInv_new (endNode : List ByteString → Nat) (cfg : TCPConfig) (isn : WrappingInt32) :
    (new endNode cfg isn).CloseInv where
  conn := officialInv_new endNode cfg isn
  peer_first := fun _ h => absurd h Bool.false_ne_true

theorem CloseInv.step {t t' : CloseTrace} (h : t.CloseInv) {op : Op}
    (hop : t.conn.KeepsOfficial op) (hs : t.step op = some t') : t'.CloseInv := by
  obtain ⟨c, hc, rfl⟩ := Option.map_eq_some_iff.mp hs
  have hf := h.conn.flagStep hop hc
  refine ⟨h.conn.of_flagStep hop hc hf, ?_⟩
  intro hclean hfirst
  by_contra hon
  have hon : c.lingerAfterStreamsFinish = true := by simpa using hon
  obtain hfirst | hfirst := (Bool.or_eq_true _ _).mp hfirst
  · have hoff := h.peer_first (clean_of_step hc hclean) hfirst
    rw [hf.lingered hclean hon] at hoff
    cases hoff
  · obtain ⟨hended, hunsent⟩ := (Bool.and_eq_true _ _).mp hfirst
    rw [(h.conn.finSent_of_linger hc hf hclean hended hon).1] at hunsent
    cases hunsent

/-- **Official states.**  In every run whose steps keep to `KeepsOfficial`, a synchronised
    connection is in an official state in every state reached. -/
theorem officialStates_of_keepsOfficial (endNode : List ByteString → Nat) (cfg : TCPConfig)
    (isn : WrappingInt32) {ops : List Op} {t : CloseTrace}
    (hrun : Run (Guarded (fun t op => t.conn.KeepsOfficial op) step) (new endNode cfg isn)
      ops t) : t.OfficialStates := by
  have hinv : t.CloseInv :=
    hrun.invariant (closeInv_new endNode cfg isn) fun _ _ _ h hs => h.step hs.1 hs.2
  have hconn : Run (Guarded KeepsOfficial TCPConnection.step) (.new endNode cfg isn) ops
      t.conn := by
    refine hrun.map (f := CloseTrace.conn) ?_
    rintro u op v ⟨hop, hs⟩
    obtain ⟨c, hc, rfl⟩ := Option.map_eq_some_iff.mp hs
    exact ⟨hop, hc⟩
  have hcounts := run_counts hconn
  refine ⟨hinv.conn.official hcounts, fun hc hfirst => ?_⟩
  have hoff := hinv.peer_first hc.clean hfirst
  exact ⟨hinv.conn.passive hcounts hc hoff, hoff⟩

/-- The peer ends its stream first; then a byte and the FIN are sent. -/
def answeredClose : List Op :=
  [.connect, .segmentReceived synAck,
    .segmentReceived
      { header := { seqno := ⟨101⟩, ackno := ⟨1⟩, win := 100, ack := true, fin := true } },
    .write [97], .endInputStream]

theorem officialStates_of_keepsOfficial_answeredClose :
    ∃ t, Run (Guarded (fun t op => t.conn.KeepsOfficial op) step)
        (new List.length { fixedIsn := some ⟨0⟩ } ⟨0⟩) answeredClose t ∧
      t.peerFirst = true ∧ t.conn.state = .ofState .lastAck ∧ t.OfficialStates := by
  have hrun := Run.of_exec (fun (t : CloseTrace) op => t.conn.KeepsOfficial op) step
    (new List.length { fixedIsn := some ⟨0⟩ } ⟨0⟩) answeredClose (by decide)
  exact ⟨_, hrun, by decide, by decide, officialStates_of_keepsOfficial _ _ _ hrun⟩

/-- The peer's window has room for one of two bytes, so the FIN is held back when the
    peer's own FIN comes. -/
def heldBack : List Op :=
  [.connect,
    .segmentReceived
      { header := { seqno := ⟨100⟩, ackno := ⟨1⟩, win := 1, ack := true, syn := true } },
    .write [97, 98], .endInputStream,
    .segmentReceived
      { header := { seqno := ⟨101⟩, ackno := ⟨1⟩, win := 1, ack := true, fin := true } }]

/-- The connection is in CLOSE_WAIT, except that it lingers. -/
theorem officialStates_fails :
    ∃ t, Run (Guarded (fun _ _ => True) step) (new List.length { fixedIsn := some ⟨0⟩ } ⟨0⟩)
        heldBack t ∧
      t.peerFirst = true ∧ t.conn.state = { sender := .synAcked, receiver := .finRecv } ∧
      ¬ t.OfficialStates := by
  have hrun := Run.of_exec (fun _ _ => True) step (new List.length { fixedIsn := some ⟨0⟩ } ⟨0⟩)
    heldBack (by decide)
  refine ⟨_, hrun, by decide, by decide, fun h => ?_⟩
  have hofficial := h.official ⟨by decide, by decide, by decide, by decide⟩
  revert hofficial
  decide

end CloseTrace

end Sponge
