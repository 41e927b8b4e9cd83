/-
  Sponge.TcpConnection.Steps

  What a step of a connection can do to its two halves.

  `step_receiver` lists what happens to the receiver.  To the sender a step is a
  few of the sender's own operations: `step_tracks` carries a history of the sender
  along with the connection, so everything that was shown about runs of a sender
  holds of the sender inside a connection.
-/

import Sponge.TcpConnection.Basic
import Sponge.TcpSender.Encoding

namespace Sponge

open Lib (Run Guarded)

namespace TCPConnection

open TCPSender (writeStream endStream)

-- ============================================================================
-- Fields
-- ============================================================================

section Fields

variable (c : TCPConnection) (seg : TCPSegment)

/-- Adding an acknowledgement does not change what a segment carries. -/
theorem stamp_frame (receiver : TCPReceiver) :
    (stamp receiver seg).header.seqno = seg.header.seqno ∧
    (stamp receiver seg).header.syn = seg.header.syn ∧
    (stamp receiver seg).header.fin = seg.header.fin ∧
    (stamp receiver seg).payload = seg.payload := by
  unfold stamp
  split <;> exact ⟨rfl, rfl, rfl, rfl⟩

theorem stamp_of_ackno {receiver : TCPReceiver} {ackno : WrappingInt32}
    (h : receiver.ackno = some ackno) :
    stamp receiver seg = { seg with
      header := { seg.header with
        ack := true
        ackno := ackno
        win := UInt16.ofNat receiver.windowSize } } := by
  unfold stamp
  rw [h]

theorem mem_sendSegments {x : TCPSegment} : x ∈ c.sendSegments.segmentsOut ↔
    x ∈ c.segmentsOut ∨ ∃ seg₀ ∈ c.sender.segmentsOut, stamp c.receiver seg₀ = x := by
  simp [sendSegments]

/-- Deciding whether to close only touches the two flags. -/
theorem updateConnectionStatus_frame :
    c.updateConnectionStatus.sender = c.sender ∧
    c.updateConnectionStatus.receiver = c.receiver ∧
    c.updateConnectionStatus.segmentsOut = c.segmentsOut := by
  unfold updateConnectionStatus shutdown
  split_ifs <;> exact ⟨rfl, rfl, rfl⟩

theorem stopLingering_frame :
    c.stopLingering.sender = c.sender ∧
    c.stopLingering.receiver = c.receiver ∧
    c.stopLingering.segmentsOut = c.segmentsOut := by
  unfold stopLingering shutdown
  split <;> exact ⟨rfl, rfl, rfl⟩

/-- Handing an acknowledgement to the sender and queueing a reply concern the
    sender alone. -/
theorem reply_frame :
    ((c.takeAck seg).ensureReply seg).receiver = c.receiver ∧
    ((c.takeAck seg).ensureReply seg).segmentsOut = c.segmentsOut ∧
    ((c.takeAck seg).ensureReply seg).activeFlag = c.activeFlag ∧
    ((c.takeAck seg).ensureReply seg).lingerAfterStreamsFinish = c.lingerAfterStreamsFinish := by
  unfold ensureReply takeAck
  split_ifs <;> exact ⟨rfl, rfl, rfl, rfl⟩

theorem activated_frame :
    c.activated.receiver = c.receiver ∧ c.activated.segmentsOut = c.segmentsOut ∧
    c.activated.activeFlag = true ∧
    c.activated.lingerAfterStreamsFinish = c.lingerAfterStreamsFinish := by
  unfold activated connectSender
  split
  · rename_i h
    exact ⟨rfl, rfl, h, rfl⟩
  · exact ⟨rfl, rfl, rfl, rfl⟩

end Fields

/-- `dequeue` takes off the first of the queued segments. -/
theorem step_dequeue {c c' : TCPConnection} (h : c.step .dequeue = some c') :
    ∃ seg rest, c.segmentsOut = seg :: rest ∧ c' = { c with segmentsOut := rest } := by
  simp only [step] at h
  split at h
  · cases h
  · rename_i seg rest hout
    exact ⟨seg, rest, hout, (Option.some.inj h).symm⟩

-- ============================================================================
-- Receiving a segment
-- ============================================================================

/-- The connection looks at a segment when it is active or the segment has a SYN. -/
def Processes (c : TCPConnection) (seg : TCPSegment) : Prop :=
  c.activeFlag = true ∨ seg.header.syn = true

instance (c : TCPConnection) (seg : TCPSegment) : Decidable (c.Processes seg) :=
  inferInstanceAs (Decidable (_ ∨ _))

/-- The connection in which a processed segment's payload has been received. -/
def received (c : TCPConnection) (receiver : TCPReceiver) : TCPConnection :=
  { c.activated with receiver := receiver, timeSinceLastSegmentReceived := 0 }

/-- A segment is ignored, kills the connection, or is received and answered. -/
theorem segmentReceived_cases {c c' : TCPConnection} {seg : TCPSegment}
    (h : c.segmentReceived seg = some c') :
    (¬ c.Processes seg ∧ c' = { c with timeSinceLastSegmentReceived := 0 }) ∨
    (c.Processes seg ∧ seg.header.rst = true ∧
      c' = (c.received c.receiver).shutdown.streamsSetErr) ∨
    (c.Processes seg ∧ seg.header.rst = false ∧ ∃ receiver,
      c.receiver.segmentReceived seg = some receiver ∧
      c' = (((c.received receiver).takeAck seg).ensureReply
        seg).sendSegments.updateConnectionStatus) := by
  have hact : activated { c with timeSinceLastSegmentReceived := 0 } = c.received c.receiver := by
    unfold received activated
    cases hc : c.activeFlag <;> simp [connectSender, hc]
  have hrec : ∀ receiver, { c.received c.receiver with receiver := receiver } =
      c.received receiver := fun _ => rfl
  unfold segmentReceived at h
  simp only at h
  split at h
  · rename_i hign
    refine Or.inl ⟨?_, (Option.some.inj h).symm⟩
    simp [Processes, hign.1, hign.2]
  · rename_i hproc
    have hp : c.Processes seg := by
      unfold Processes
      by_contra hnot
      simp only [not_or, Bool.not_eq_true] at hnot
      exact hproc hnot
    rw [hact] at h
    unfold handleSegment at h
    split at h
    · rename_i hrst
      exact Or.inr (Or.inl ⟨hp, hrst, (Option.some.inj h).symm⟩)
    · rename_i hrst
      obtain ⟨receiver, hr, rfl⟩ := Option.map_eq_some_iff.mp h
      exact Or.inr (Or.inr ⟨hp, by simpa using hrst, receiver, hr, by rw [hrec]⟩)

/-- `segment_received` returns if the receiver's does. -/
theorem segmentReceived_returns {c : TCPConnection} {seg : TCPSegment} {receiver : TCPReceiver}
    (h : c.receiver.segmentReceived seg = some receiver) : ∃ c', c.segmentReceived seg = some c' := by
  unfold segmentReceived
  simp only
  split
  · exact ⟨_, rfl⟩
  · unfold handleSegment
    rw [(activated_frame _).1]
    split
    · exact ⟨_, rfl⟩
    · exact ⟨_, congrArg (Option.map _) h⟩

-- ============================================================================
-- The receiver
-- ============================================================================

/-- The bytes that a step hands to the application. -/
def deliveredBy (c : TCPConnection) : Op → List UInt8
  | .read len => (c.inboundStream.read len).1
  | .popOutput len => c.inboundStream.peekOutput len
  | _ => []

/-- What a step does to the receiver. -/
inductive ReceiverStep (c : TCPConnection) : Op → TCPReceiver → Prop
  | same {op : Op} (h : c.deliveredBy op = []) : ReceiverStep c op c.receiver
  | setError {op : Op} (h : c.deliveredBy op = []) : ReceiverStep c op c.receiver.setError
  | read (len : Nat) : ReceiverStep c (.read len) (c.receiver.read len)
  | popOutput (len : Nat) : ReceiverStep c (.popOutput len) (c.receiver.popOutput len)
  | receive {seg : TCPSegment} {receiver : TCPReceiver} (hp : c.Processes seg)
      (hrst : seg.header.rst = false) (h : c.receiver.segmentReceived seg = some receiver) :
      ReceiverStep c (.segmentReceived seg) receiver

theorem step_receiver {c c' : TCPConnection} {op : Op} (h : c.step op = some c') :
    c.ReceiverStep op c'.receiver := by
  cases op with
  | connect | write data | endInputStream =>
      obtain rfl := Option.some.inj h
      exact .same rfl
  | read len =>
      obtain rfl := Option.some.inj h
      exact .read len
  | popOutput len =>
      obtain rfl := Option.some.inj h
      exact .popOutput len
  | tick ms =>
      obtain rfl := Option.some.inj h
      unfold tick
      rw [(stopLingering_frame _).2.1]
      unfold giveUp
      split
      · exact .setError rfl
      · exact .same rfl
  | segmentReceived seg =>
      obtain ⟨-, rfl⟩ | ⟨-, -, rfl⟩ | ⟨hp, hrst, receiver, hr, rfl⟩ := segmentReceived_cases h
      · exact .same rfl
      · exact .setError rfl
      · rw [(updateConnectionStatus_frame _).2.1]
        show c.ReceiverStep _ (((c.received receiver).takeAck seg).ensureReply seg).receiver
        rw [(reply_frame _ _).1]
        exact .receive hp hrst hr
  | dequeue =>
      obtain ⟨seg, rest, -, rfl⟩ := step_dequeue h
      exact .same rfl

/-- What no step takes back from the receiver. -/
theorem ReceiverStep.keeps {c : TCPConnection} {op : Op} {r : TCPReceiver}
    (h : c.ReceiverStep op r) :
    (r.streamOut.error = false → c.receiver.streamOut.error = false) ∧
    (c.receiver.streamOut.inputEnded = true → r.streamOut.inputEnded = true) ∧
    c.receiver.streamOut.bytesWritten ≤ r.streamOut.bytesWritten ∧
    (c.receiver.synRecv = true → r.synRecv = true) := by
  cases h with
  | same => exact ⟨id, id, Nat.le_refl _, id⟩
  | setError => exact ⟨(fun h => nomatch h), id, Nat.le_refl _, id⟩
  | read len => exact ⟨id, id, Nat.le_refl _, id⟩
  | popOutput len => exact ⟨id, id, Nat.le_refl _, id⟩
  | receive _ _ h =>
      obtain ⟨herr, hrest⟩ := TCPReceiver.segmentReceived_keeps h
      exact ⟨fun hf => herr.symm.trans hf, hrest⟩

theorem ReceiverStep.inv {c : TCPConnection} {op : Op} {r : TCPReceiver}
    (h : c.ReceiverStep op r) (hc : c.receiver.reassembler.Inv) : r.reassembler.Inv := by
  cases h with
  | same => exact hc
  | setError => exact hc.setError
  | read len => exact hc.read len
  | popOutput len => exact hc.popOutput len
  | receive _ _ h =>
      obtain ⟨-, -, rfl⟩ | ⟨-, reassembler, hpush, rfl⟩ := TCPReceiver.segmentReceived_cases h
      · exact hc
      · exact hc.pushSubstring hpush

/-- The inbound stream does not end before a SYN has come. -/
theorem ReceiverStep.ended {c : TCPConnection} {op : Op} {r : TCPReceiver}
    (h : c.ReceiverStep op r)
    (hc : c.receiver.streamOut.inputEnded = true → c.receiver.synRecv = true) :
    r.streamOut.inputEnded = true → r.synRecv = true := by
  cases h with
  | same | setError | read len | popOutput len => exact hc
  | receive _ _ h =>
      obtain ⟨-, -, rfl⟩ | ⟨-, reassembler, -, rfl⟩ := TCPReceiver.segmentReceived_cases h
      · exact hc
      · exact fun _ => TCPReceiver.synced_synRecv ..

-- ============================================================================
-- The sender
-- ============================================================================

/-- The operations of its sender that a step of the connection performs. -/
def Performs (c : TCPConnection) (op : Op) (t : SenderTrace) : TCPSender.Op → Prop
  | .write data => op = .write data ∧ t.sender = c.sender
  | .ackReceived ackno w => ∃ seg, op = .segmentReceived seg ∧ c.Processes seg ∧
      seg.header.rst = false ∧ seg.header.ack = true ∧ ackno = seg.header.ackno ∧
      w = seg.header.win
  | _ => True

/-- The bytes that a step accepts into the outbound stream. -/
def acceptedBy (c : TCPConnection) : Op → List UInt8
  | .write data => data.take (c.write data).1
  | _ => []

/-- `t'` goes on from `t` by operations that the step `op` of `c` performs. -/
def Continues (c : TCPConnection) (op : Op) (t t' : SenderTrace) : Prop :=
  ∃ sops, Run (Guarded (c.Performs op) SenderTrace.step) t sops t'

section Continues

variable {c : TCPConnection} {op : Op} {t u v : SenderTrace}

theorem Continues.refl : c.Continues op t t := ⟨[], Run.nil⟩

theorem Continues.trans (h₁ : c.Continues op t u) (h₂ : c.Continues op u v) :
    c.Continues op t v := by
  obtain ⟨sops₁, hrun₁⟩ := h₁
  obtain ⟨sops₂, hrun₂⟩ := h₂
  exact ⟨_, hrun₁.append hrun₂⟩

theorem Continues.after {sop : TCPSender.Op} (h : c.Continues op t u)
    (hsop : c.Performs op u sop) : c.Continues op t (u.after sop) :=
  h.trans ⟨_, Run.single ⟨hsop, rfl⟩⟩

end Continues

/-- What the history's operations keep, `t'` keeps. -/
theorem Continues.invariant {c : TCPConnection} {op : Op} {t t' : SenderTrace}
    {I : SenderTrace → Prop} (h : c.Continues op t t') (ht : I t)
    (hafter : ∀ u sop, c.Performs op u sop → I u → I (u.after sop)) : I t' := by
  obtain ⟨sops, hrun⟩ := h
  refine hrun.invariant (I := I) ht ?_
  rintro u sop v hu ⟨hsop, hv⟩
  obtain rfl := Option.some.inj hv
  exact hafter u sop hsop hu

theorem Continues.nextSeqnoAbsolute_le {c : TCPConnection} {op : Op} {t t' : SenderTrace}
    (h : c.Continues op t t') : t.sender.nextSeqnoAbsolute ≤ t'.sender.nextSeqnoAbsolute :=
  h.invariant (I := fun u => t.sender.nextSeqnoAbsolute ≤ u.sender.nextSeqnoAbsolute)
    (Nat.le_refl _) fun u sop _ hu => Nat.le_trans hu (u.nextSeqnoAbsolute_le_after sop)

/-- The history `t'` ends in the sender of `c'`, and what `c'` has queued was queued
    before, is a RST, or is something the sender pushed, with the acknowledgement of
    the receiver of `c'`. -/
structure Tracks (c : TCPConnection) (op : Op) (t : SenderTrace) (c' : TCPConnection)
    (t' : SenderTrace) : Prop where
  continues : c.Continues op t t'
  sender_eq : t'.sender = c'.sender
  written_eq : t'.written = t.written ++ c.acceptedBy op
  queue : ∀ seg ∈ c'.segmentsOut, seg ∈ c.segmentsOut ∨ seg = rstSegment ∨
    ∃ seg₀ ∈ t'.pushed, seg = stamp c'.receiver seg₀

/-- `send_segments` empties the queue of the sender into that of the connection. -/
theorem Tracks.sendSegments {c : TCPConnection} (c₁ : TCPConnection) {op : Op}
    {t t₁ : SenderTrace}
    (hcont : c.Continues op t t₁) (hs : t₁.sender = c₁.sender)
    (hw : t₁.written = t.written ++ c.acceptedBy op) (hq : t₁.Queued)
    (hout : c₁.segmentsOut = c.segmentsOut) :
    c.Tracks op t c₁.sendSegments (t₁.after .drain) where
  continues := hcont.after trivial
  sender_eq := by
    show t₁.sender.drain = c₁.sender.drain
    rw [hs]
  written_eq := hw
  queue := by
    intro seg hseg
    rcases (mem_sendSegments c₁).mp hseg with hseg | ⟨seg₀, hseg₀, rfl⟩
    · exact Or.inl (hout ▸ hseg)
    · refine Or.inr (Or.inr ⟨seg₀, ?_, rfl⟩)
      rw [← hs] at hseg₀
      exact List.mem_append_left _ (hq hseg₀)

/-- The part of a step that follows the last `send_segments` at most sets flags. -/
theorem Tracks.congr {c c₁ c₂ : TCPConnection} {op : Op} {t t₁ : SenderTrace}
    (h : c.Tracks op t c₁ t₁)
    (hframe : c₂.sender = c₁.sender ∧ c₂.receiver = c₁.receiver ∧ c₂.segmentsOut = c₁.segmentsOut) :
    c.Tracks op t c₂ t₁ where
  continues := h.continues
  sender_eq := h.sender_eq.trans hframe.1.symm
  written_eq := h.written_eq
  queue := by
    rw [hframe.2.1, hframe.2.2]
    exact h.queue

/-- A step that leaves the sender alone. -/
theorem Tracks.idle {c c' : TCPConnection} {op : Op} {t : SenderTrace} (hs : t.sender = c.sender)
    (hs' : c'.sender = c.sender) (hop : c.acceptedBy op = [])
    (hout : c'.segmentsOut ⊆ c.segmentsOut) : c.Tracks op t c' t where
  continues := .refl
  sender_eq := hs.trans hs'.symm
  written_eq := by rw [hop, List.append_nil]
  queue := fun _ hseg => Or.inl (hout hseg)

/-- Giving up replaces the queue by a RST. -/
theorem Tracks.giveUp {c c₁ : TCPConnection} {op : Op} {t t₁ : SenderTrace}
    (h : c.Tracks op t c₁ t₁) : ∃ t', c.Tracks op t c₁.giveUp t' := by
  unfold TCPConnection.giveUp
  split
  · refine ⟨t₁.after .setError, h.continues.after trivial, ?_, h.written_eq, ?_⟩
    · show t₁.sender.setStreamError = c₁.sender.setStreamError
      rw [h.sender_eq]
    · intro seg hseg
      exact Or.inr (Or.inl (by simpa [sendRst, streamsSetErr, shutdown] using hseg))
  · exact ⟨t₁, h⟩

/-- The history after a connection was activated. -/
theorem activated_continues {c : TCPConnection} (op : Op) {t : SenderTrace}
    (hs : t.sender = c.sender) (hq : t.Queued) :
    ∃ t', c.Continues op t t' ∧ t'.sender = c.activated.sender ∧ t'.written = t.written ∧
      t'.Queued := by
  unfold activated
  split
  · exact ⟨t, .refl, hs, rfl, hq⟩
  · refine ⟨t.after .fillWindow, Continues.refl.after trivial, ?_, rfl, hq.after _⟩
    show t.sender.fillWindow = c.sender.fillWindow
    rw [hs]

/-- The history after an acknowledgement was taken and a reply was queued. -/
theorem reply_continues {c : TCPConnection} (c₁ : TCPConnection) {seg : TCPSegment} {t : SenderTrace}
    (hp : c.Processes seg) (hrst : seg.header.rst = false) (hs : t.sender = c₁.sender)
    (hq : t.Queued) :
    ∃ t', c.Continues (.segmentReceived seg) t t' ∧
      t'.sender = ((c₁.takeAck seg).ensureReply seg).sender ∧ t'.written = t.written ∧
      t'.Queued := by
  have hack : ∃ t', c.Continues (.segmentReceived seg) t t' ∧
      t'.sender = (c₁.takeAck seg).sender ∧ t'.written = t.written ∧ t'.Queued := by
    unfold takeAck
    split
    · rename_i hack
      refine ⟨t.after (.ackReceived seg.header.ackno seg.header.win),
        Continues.refl.after ⟨seg, rfl, hp, hrst, hack, rfl, rfl⟩, ?_, rfl, hq.after _⟩
      show t.sender.ackReceived _ _ = c₁.sender.ackReceived _ _
      rw [hs]
    · exact ⟨t, .refl, hs, rfl, hq⟩
  obtain ⟨t₁, hcont, hs₁, hw, hq₁⟩ := hack
  unfold ensureReply
  split
  · refine ⟨t₁.after .sendEmptySegment, hcont.after trivial, ?_, hw, hq₁.after _⟩
    show t₁.sender.sendEmptySegment = (c₁.takeAck seg).sender.sendEmptySegment
    rw [hs₁]
  · exact ⟨t₁, hcont, hs₁, hw, hq₁⟩

theorem segmentReceived_tracks {c c' : TCPConnection} {seg : TCPSegment} {t : SenderTrace}
    (h : c.segmentReceived seg = some c') (hs : t.sender = c.sender) (hq : t.Queued) :
    ∃ t', c.Tracks (.segmentReceived seg) t c' t' := by
  have hnil : t.written = t.written ++ c.acceptedBy (.segmentReceived seg) :=
    (List.append_nil _).symm
  obtain ⟨-, rfl⟩ | ⟨-, -, rfl⟩ | ⟨hp, hrst, receiver, hr, rfl⟩ := segmentReceived_cases h
  · exact ⟨t, .idle hs rfl rfl (List.Subset.refl _)⟩
  · obtain ⟨t₁, hcont, hs₁, hw, -⟩ := activated_continues (.segmentReceived seg) hs hq
    refine ⟨t₁.after .setError, hcont.after trivial, ?_, hw.trans hnil, ?_⟩
    · show t₁.sender.setStreamError = c.activated.sender.setStreamError
      rw [hs₁]
    · intro x hx
      exact Or.inl ((activated_frame c).2.1 ▸ hx)
  · obtain ⟨t₁, hcont₁, hs₁, hw₁, hq₁⟩ := activated_continues (.segmentReceived seg) hs hq
    obtain ⟨t₂, hcont₂, hs₂, hw₂, hq₂⟩ := reply_continues (c.received receiver) hp hrst hs₁ hq₁
    have htracks := Tracks.sendSegments _ (hcont₁.trans hcont₂) hs₂
      ((hw₂.trans hw₁).trans hnil) hq₂
      ((reply_frame (c.received receiver) seg).2.1.trans (activated_frame c).2.1)
    exact ⟨_, htracks.congr (updateConnectionStatus_frame _)⟩

/-- A step of a connection performs operations of its sender. -/
theorem step_tracks {c c' : TCPConnection} {op : Op} {t : SenderTrace} (h : c.step op = some c')
    (hs : t.sender = c.sender) (hq : t.Queued) : ∃ t', c.Tracks op t c' t' := by
  cases op with
  | connect =>
      obtain rfl := Option.some.inj h
      have hcont : c.Continues .connect t (t.after .fillWindow) := Continues.refl.after trivial
      exact ⟨_, Tracks.sendSegments c.connectSender hcont (congrArg TCPSender.fillWindow hs)
        (List.append_nil _).symm (hq.after _) rfl⟩
  | write data =>
      obtain rfl := Option.some.inj h
      have hwrite : c.Continues (.write data) t (t.after (.write data)) :=
        Continues.refl.after (show c.Performs (.write data) t (.write data) from ⟨rfl, hs⟩)
      have hcont : c.Continues (.write data) t ((t.after (.write data)).after .fillWindow) :=
        hwrite.after trivial
      refine ⟨_, Tracks.sendSegments
        { c with sender := (c.sender.writeStream data).fillWindow } hcont
        (congrArg (fun s => (writeStream s data).fillWindow) hs) ?_ ((hq.after _).after _) rfl⟩
      show t.written ++ data.take (t.sender.stream.write data).1 = _
      rw [hs]
      rfl
  | endInputStream =>
      obtain rfl := Option.some.inj h
      have hend : c.Continues .endInputStream t (t.after .endInput) := Continues.refl.after trivial
      have hcont : c.Continues .endInputStream t ((t.after .endInput).after .fillWindow) :=
        hend.after trivial
      exact ⟨_, Tracks.sendSegments { c with sender := c.sender.endStream.fillWindow } hcont
        (congrArg (fun s => (endStream s).fillWindow) hs) (List.append_nil _).symm
        ((hq.after _).after _) rfl⟩
  | read len | popOutput len =>
      obtain rfl := Option.some.inj h
      exact ⟨t, .idle hs rfl rfl (List.Subset.refl _)⟩
  | tick ms =>
      obtain rfl := Option.some.inj h
      have hcont : c.Continues (.tick ms) t (t.after (.tick ms)) := Continues.refl.after trivial
      have htracks := Tracks.sendSegments
        { c with
          timeSinceLastSegmentReceived := (c.timeSinceLastSegmentReceived + ms) % 2 ^ 64
          sender := c.sender.tick ms }
        hcont (congrArg (fun s => TCPSender.tick s ms) hs) (List.append_nil _).symm (hq.after _) rfl
      obtain ⟨t', ht'⟩ := htracks.giveUp
      exact ⟨t', ht'.congr (stopLingering_frame _)⟩
  | segmentReceived seg => exact segmentReceived_tracks h hs hq
  | dequeue =>
      obtain ⟨seg, rest, hout, rfl⟩ := step_dequeue h
      refine ⟨t, .idle hs rfl rfl ?_⟩
      rw [hout]
      exact List.subset_cons_self ..

/-- A sender without a past. -/
theorem step_tracks_sender {c c' : TCPConnection} {op : Op} (h : c.step op = some c') :
    ∃ t t', t.sender = c.sender ∧ c.Tracks op t c' t' :=
  ⟨⟨c.sender, [], c.sender.segmentsOut, [], []⟩, (step_tracks h rfl (List.Subset.refl _)).imp
    fun _ ht' => ⟨rfl, ht'⟩⟩

/-- What the operations of the sender keep, a step of the connection keeps. -/
theorem step_sender_invariant {I : TCPSender → Prop} {c c' : TCPConnection} {op : Op}
    (h : c.step op = some c') (hc : I c.sender)
    (hafter : ∀ t sop, c.Performs op t sop → I t.sender → I (t.after sop).sender) :
    I c'.sender := by
  obtain ⟨t, t', ht, htracks⟩ := step_tracks_sender h
  rw [← htracks.sender_eq]
  exact htracks.continues.invariant (I := fun t => I t.sender) (ht ▸ hc) hafter

/-- No step clears the error flag of the outbound stream. -/
theorem step_sender_error {c c' : TCPConnection} {op : Op} (h : c.step op = some c')
    (herr : c.sender.stream.error = true) : c'.sender.stream.error = true :=
  step_sender_invariant (I := fun s => s.stream.error = true) h herr
    fun _ sop _ ht => SenderTrace.error_after ht sop

theorem step_nextSeqnoAbsolute_le {c c' : TCPConnection} {op : Op} (h : c.step op = some c') :
    c.sender.nextSeqnoAbsolute ≤ c'.sender.nextSeqnoAbsolute :=
  step_sender_invariant (I := fun s => c.sender.nextSeqnoAbsolute ≤ s.nextSeqnoAbsolute) h
    (Nat.le_refl _) fun t sop _ ht => Nat.le_trans ht (t.nextSeqnoAbsolute_le_after sop)

/-- The sender of a connection has a history as the sender of any owner has one. -/
theorem run_tracks {adm : TCPConnection → Op → Prop} {endNode : List ByteString → Nat}
    {cfg : TCPConfig} {isn : WrappingInt32} {ops : List Op} {c : TCPConnection}
    (hrun : Run (Guarded adm step) (new endNode cfg isn) ops c) :
    ∃ t sops, Run (Guarded (fun _ _ => True) SenderTrace.step)
      (SenderTrace.new cfg.sendCapacity cfg.rtTimeout (cfg.fixedIsn.getD isn)) sops t ∧
      t.sender = c.sender ∧ t.Queued := by
  refine hrun.invariant (I := fun c => ∃ t sops, Run (Guarded (fun _ _ => True) SenderTrace.step)
      (SenderTrace.new cfg.sendCapacity cfg.rtTimeout (cfg.fixedIsn.getD isn)) sops t ∧
      t.sender = c.sender ∧ t.Queued) ⟨_, [], Run.nil, rfl, List.nil_subset _⟩ ?_
  rintro c op c' ⟨t, sops, htrace, hs, hq⟩ ⟨-, hstep⟩
  obtain ⟨t', ht'⟩ := step_tracks hstep hs hq
  have hq' := ht'.continues.invariant hq fun _ sop _ hu => hu.after sop
  obtain ⟨sops', hcont⟩ := ht'.continues
  exact ⟨t', sops ++ sops', htrace.append (hcont.mono fun _ _ _ h => ⟨trivial, h.2⟩),
    ht'.sender_eq, hq'⟩

theorem run_counts {adm : TCPConnection → Op → Prop} {endNode : List ByteString → Nat}
    {cfg : TCPConfig} {isn : WrappingInt32} {ops : List Op} {c : TCPConnection}
    (hrun : Run (Guarded adm step) (new endNode cfg isn) ops c) : c.sender.Counts := by
  obtain ⟨t, sops, htrace, heq, -⟩ := run_tracks hrun
  obtain ⟨finAt, hw⟩ := SenderTrace.wireInv_run htrace
  exact heq ▸ hw.counts

end TCPConnection

end Sponge
