/-
  Sponge.TcpConnection.Output

  What a connection puts on `segments_out()`, over a whole run.

  Every operation reaches `send_segments()` at most once, in the state `sending`;
  `tick` may add a RST after it.  A `ConnectionTrace` carries what was put out so
  far, with the receiver as it was at that moment, and the history of the sender.
  Everything put out is a RST or something the sender pushed (`TraceInv`), so it has
  a place in the sequence space or occupies none (`TraceInv.placed`).
-/

import Sponge.TcpConnection.Steps

namespace Sponge

open Lib (Run Guarded)

namespace TCPConnection

-- ============================================================================
-- One operation
-- ============================================================================

/-- A segment that was put on `segments_out()`, with the receiver at that moment. -/
structure Emission where
  seg : TCPSegment
  receiver : TCPReceiver

/-- What `send_segments()` puts on `segments_out()`. -/
def outgoing (c : TCPConnection) : List Emission :=
  c.sender.segmentsOut.map fun seg => ⟨stamp c.receiver seg, c.receiver⟩

/-- The connection at the `send_segments()` of an operation, if there is one. -/
def sending (c : TCPConnection) : Op → Option TCPConnection
  | .connect => some c.connectSender
  | .write data => some { c with sender := (c.sender.writeStream data).fillWindow }
  | .endInputStream => some { c with sender := c.sender.endStream.fillWindow }
  | .tick ms => some { c with
      timeSinceLastSegmentReceived := (c.timeSinceLastSegmentReceived + ms) % 2 ^ 64
      sender := c.sender.tick ms }
  | .segmentReceived seg =>
      if c.Processes seg ∧ seg.header.rst = false then
        (c.receiver.segmentReceived seg).map fun receiver =>
          ((c.received receiver).takeAck seg).ensureReply seg
      else none
  | .read _ | .popOutput _ | .dequeue => none

/-- The operation ends in `send_rst()`: it is a tick after too many retransmissions, or
    one that makes one too many. -/
def GivesUp (c : TCPConnection) : Op → Prop
  | .tick ms => TCPConfig.maxRetxAttempts < c.sender.consecutiveRetransmissions ∨
      c.sender.consecutiveRetransmissions = TCPConfig.maxRetxAttempts ∧
        c.sender.Expires ms ∧ c.sender.windowEmpty = false
  | _ => False

instance (c : TCPConnection) : ∀ op, Decidable (c.GivesUp op)
  | .tick _ => inferInstanceAs (Decidable (_ ∨ _))
  | .connect | .write _ | .endInputStream | .read _ | .popOutput _ | .segmentReceived _
  | .dequeue => isFalse id

/-- What `tick` looks at after the sender's tick. -/
theorem givesUp_tick_iff {c : TCPConnection} {ms : Nat} : c.GivesUp (.tick ms) ↔
    (c.sender.tick ms).consecutiveRetransmissions > TCPConfig.maxRetxAttempts := by
  rw [TCPSender.tick_consecutiveRetransmissions]
  show _ ∨ _ ∧ _ ↔ _
  by_cases hretx : c.sender.Expires ms ∧ c.sender.windowEmpty = false
  · have hle := hretx.1.2.1
    rw [if_pos hretx]
    simp only [hretx, and_self, and_true]
    omega
  · simp [hretx]

/-- What an operation puts on `segments_out()`. -/
def queuedBy (c : TCPConnection) (op : Op) : List Emission :=
  (c.sending op).elim [] outgoing ++ if c.GivesUp op then [⟨rstSegment, c.receiver⟩] else []

/-- What becomes of an operation after its `send_segments()`. -/
theorem step_of_sending {c c' c₁ : TCPConnection} {op : Op} (h : c.step op = some c')
    (h₁ : c.sending op = some c₁) :
    (c.GivesUp op ∧ c' = (sendRst { c₁.sendSegments with segmentsOut := [] }).stopLingering) ∨
    (¬ c.GivesUp op ∧ c'.sender = c₁.sender.drain ∧ c'.receiver = c₁.receiver ∧
      c'.segmentsOut = c.segmentsOut ++ c₁.outgoing.map (·.seg)) := by
  have hmap : ∀ c₁ : TCPConnection,
      c₁.outgoing.map (·.seg) = c₁.sender.segmentsOut.map (stamp c₁.receiver) := by
    intro c₁
    simp [outgoing]
  cases op with
  | connect | write data | endInputStream =>
      obtain rfl := Option.some.inj h
      obtain rfl := Option.some.inj h₁
      exact Or.inr ⟨id, rfl, rfl, by rw [hmap]; rfl⟩
  | tick ms =>
      obtain rfl := Option.some.inj h
      obtain rfl := Option.some.inj h₁
      unfold tick giveUp
      split
      · rename_i hgive
        exact Or.inl ⟨givesUp_tick_iff.mpr hgive, rfl⟩
      · rename_i hgive
        obtain ⟨hs, hr, hq⟩ := stopLingering_frame (sendSegments { c with
          timeSinceLastSegmentReceived := (c.timeSinceLastSegmentReceived + ms) % 2 ^ 64
          sender := c.sender.tick ms })
        exact Or.inr ⟨fun h => hgive (givesUp_tick_iff.mp h), hs, hr, by rw [hq, hmap]; rfl⟩
  | segmentReceived seg =>
      refine Or.inr ⟨id, ?_⟩
      obtain ⟨hp, -⟩ | ⟨-, hrst, -⟩ | ⟨hp, hrst, receiver, hr, rfl⟩ := segmentReceived_cases h
      · simp [sending, hp] at h₁
      · simp [sending, hrst] at h₁
      · simp only [sending, hp, hrst, hr, and_self, if_true, Option.map_some,
          Option.some.injEq] at h₁
        subst h₁
        obtain ⟨hs, hrec, hq⟩ := updateConnectionStatus_frame
          (((c.received receiver).takeAck seg).ensureReply seg).sendSegments
        refine ⟨hs, hrec, ?_⟩
        obtain ⟨-, hout, -⟩ := reply_frame (c.received receiver) seg
        rw [hq, hmap]
        show (((c.received receiver).takeAck seg).ensureReply seg).segmentsOut ++ _ = _
        rw [hout]
        show c.activated.segmentsOut ++ _ = _
        rw [(activated_frame c).2.1]
  | read len | popOutput len | dequeue => cases h₁

-- ============================================================================
-- The sender's part
-- ============================================================================

/-- An empty segment is queued as the answer to `seg`. -/
def NeedsReply (c : TCPConnection) (seg : TCPSegment) : Prop :=
  (c.activated.takeAck seg).sender.segmentsOut.isEmpty = true ∧ seg.lengthInSequenceSpace > 0

instance (c : TCPConnection) (seg : TCPSegment) : Decidable (c.NeedsReply seg) :=
  inferInstanceAs (Decidable (_ ∧ _))

/-- The operations of its sender that an operation performs up to `send_segments()`. -/
def prepares (c : TCPConnection) : Op → List TCPSender.Op
  | .connect => [.fillWindow]
  | .write data => [.write data, .fillWindow]
  | .endInputStream => [.endInput, .fillWindow]
  | .tick ms => [.tick ms]
  | .segmentReceived seg =>
      if c.Processes seg then
        (if c.activeFlag then [] else [.fillWindow]) ++
          if seg.header.rst then []
          else
            (if seg.header.ack then [.ackReceived seg.header.ackno seg.header.win] else []) ++
              if c.NeedsReply seg then [.sendEmptySegment] else []
      else []
  | .read _ | .popOutput _ | .dequeue => []

/-- The operation sets the error flags of the streams. -/
def SetsError (c : TCPConnection) : Op → Prop
  | .tick ms => c.GivesUp (.tick ms)
  | .segmentReceived seg => c.Processes seg ∧ seg.header.rst = true
  | _ => False

instance (c : TCPConnection) : ∀ op, Decidable (c.SetsError op)
  | .tick ms => inferInstanceAs (Decidable (c.GivesUp (.tick ms)))
  | .segmentReceived _ => inferInstanceAs (Decidable (_ ∧ _))
  | .connect | .write _ | .endInputStream | .read _ | .popOutput _ | .dequeue => isFalse id

/-- All operations of its sender that an operation performs. -/
def performed (c : TCPConnection) (op : Op) : List TCPSender.Op :=
  c.prepares op ++ (if (c.sending op).isSome then [.drain] else []) ++
    if c.SetsError op then [.setError] else []

theorem activated_sender (c : TCPConnection) :
    c.activated.sender =
      (if c.activeFlag then [] else [TCPSender.Op.fillWindow]).foldl TCPSender.step c.sender := by
  unfold activated
  split <;> rfl

theorem takeAck_sender (c : TCPConnection) (seg : TCPSegment) :
    (c.takeAck seg).sender = (if seg.header.ack then
      [TCPSender.Op.ackReceived seg.header.ackno seg.header.win] else []).foldl TCPSender.step
        c.sender := by
  unfold takeAck
  split <;> rfl

theorem ensureReply_sender (c : TCPConnection) (seg : TCPSegment) :
    (c.ensureReply seg).sender =
      (if c.sender.segmentsOut.isEmpty = true ∧ seg.lengthInSequenceSpace > 0 then
        [TCPSender.Op.sendEmptySegment] else []).foldl TCPSender.step c.sender := by
  unfold ensureReply
  split <;> rfl

/-- The answer to a segment that occupies sequence space is never missing. -/
theorem ensureReply_ne_nil (c : TCPConnection) {seg : TCPSegment}
    (h : 0 < seg.lengthInSequenceSpace) : (c.ensureReply seg).sender.segmentsOut ≠ [] := by
  unfold ensureReply
  by_cases hempty : c.sender.segmentsOut = []
  · rw [if_pos (by simp [hempty, h])]
    simp [TCPSender.sendEmptySegment]
  · rw [if_neg (by simp [hempty])]
    exact hempty

/-- Up to `send_segments()` they give the sender as it is there. -/
theorem prepares_sender {c c₁ : TCPConnection} {op : Op} (h : c.sending op = some c₁) :
    (c.prepares op).foldl TCPSender.step c.sender = c₁.sender := by
  cases op with
  | connect | write data | endInputStream | tick ms =>
      obtain rfl := Option.some.inj h
      rfl
  | segmentReceived seg =>
      simp only [sending] at h
      split at h
      · rename_i hsent
        obtain ⟨hp, hrst⟩ := hsent
        obtain ⟨receiver, -, rfl⟩ := Option.map_eq_some_iff.mp h
        have htake : ((c.received receiver).takeAck seg).sender =
            (c.activated.takeAck seg).sender := by
          rw [takeAck_sender, takeAck_sender]
          rfl
        simp only [prepares, hp, hrst, if_true, List.foldl_append]
        rw [← activated_sender]
        simp only [Bool.false_eq_true, if_false, List.foldl_append]
        rw [← takeAck_sender, ensureReply_sender, htake]
        rfl
      · cases h
  | read len | popOutput len | dequeue => cases h

/-- An operation that gets to `send_segments()` sets the errors when it gives up. -/
theorem setsError_iff {c c₁ : TCPConnection} {op : Op} (h : c.sending op = some c₁) :
    c.SetsError op ↔ c.GivesUp op := by
  cases op with
  | tick ms => exact Iff.rfl
  | segmentReceived seg =>
      refine ⟨?_, False.elim⟩
      rintro ⟨-, hrst⟩
      simp [sending, hrst] at h
  | _ => exact Iff.rfl

/-- All of them give the sender after the operation. -/
theorem performed_sender {c c' : TCPConnection} {op : Op} (h : c.step op = some c') :
    (c.performed op).foldl TCPSender.step c.sender = c'.sender := by
  rw [performed, List.foldl_append, List.foldl_append]
  cases h₁ : c.sending op with
  | some c₁ =>
      rw [prepares_sender h₁]
      obtain ⟨hgive, rfl⟩ | ⟨hgive, hs, -, -⟩ := step_of_sending h h₁
      · rw [(stopLingering_frame _).1, if_pos ((setsError_iff h₁).mpr hgive)]
        rfl
      · rw [hs, if_neg ((setsError_iff h₁).not.mpr hgive)]
        rfl
  | none =>
      cases op with
      | segmentReceived seg =>
          obtain ⟨hp, rfl⟩ | ⟨hp, hrst, rfl⟩ | ⟨hp, hrst, receiver, hr, -⟩ :=
            segmentReceived_cases h
          · simp [prepares, SetsError, hp]
          · have herr : c.SetsError (.segmentReceived seg) := ⟨hp, hrst⟩
            rw [if_pos herr, prepares, if_pos hp, if_pos hrst, List.append_nil, ← activated_sender]
            rfl
          · simp [sending, hp, hrst, hr] at h₁
      | read len | popOutput len =>
          obtain rfl := Option.some.inj h
          rfl
      | dequeue =>
          obtain ⟨seg, rest, -, rfl⟩ := step_dequeue h
          rfl
      | connect | write data | endInputStream | tick ms => cases h₁

end TCPConnection

-- ============================================================================
-- Runs
-- ============================================================================

/-- A connection with the history its properties speak about. -/
structure ConnectionTrace where
  conn : TCPConnection
  /-- everything that was put on `segments_out()` -/
  emitted : List TCPConnection.Emission
  /-- what its sender went through -/
  history : SenderTrace
  /-- `end_input_stream()` was called -/
  ended : Bool
  /-- the bytes that `write()` accepted after that -/
  late : List UInt8

namespace ConnectionTrace

open TCPConnection

def new (endNode : List ByteString → Nat) (cfg : TCPConfig) (isn : WrappingInt32) :
    ConnectionTrace where
  conn := .new endNode cfg isn
  emitted := []
  history := .new cfg.sendCapacity cfg.rtTimeout (cfg.fixedIsn.getD isn)
  ended := false
  late := []

def step (t : ConnectionTrace) (op : Op) : Option ConnectionTrace :=
  (t.conn.step op).map fun c =>
    { conn := c
      emitted := t.emitted ++ t.conn.queuedBy op
      history := (t.conn.performed op).foldl SenderTrace.after t.history
      ended := match op with
        | .endInputStream => true
        | _ => t.ended
      late := if t.ended then t.late ++ t.conn.acceptedBy op else t.late }

theorem step_conn {t t' : ConnectionTrace} {op : Op} (h : t.step op = some t') :
    t.conn.step op = some t'.conn ∧ t'.emitted = t.emitted ++ t.conn.queuedBy op ∧
    t'.history = (t.conn.performed op).foldl SenderTrace.after t.history := by
  obtain ⟨c, hc, rfl⟩ := Option.map_eq_some_iff.mp h
  exact ⟨hc, rfl, rfl⟩

theorem foldl_after_sender (ops : List TCPSender.Op) (t : SenderTrace) :
    (ops.foldl SenderTrace.after t).sender = ops.foldl TCPSender.step t.sender := by
  induction ops generalizing t with
  | nil => rfl
  | cons op ops ih => exact ih (t.after op)

theorem foldl_after_invariant {I : SenderTrace → Prop} {ops : List TCPSender.Op}
    {t : SenderTrace} (ht : I t) (hafter : ∀ u, ∀ op ∈ ops, I u → I (u.after op)) :
    I (ops.foldl SenderTrace.after t) := by
  induction ops generalizing t with
  | nil => exact ht
  | cons op ops ih =>
      exact ih (hafter t op (List.mem_cons_self ..) ht)
        fun u sop hsop => hafter u sop (List.mem_cons_of_mem _ hsop)

theorem pushed_subset_foldl (ops : List TCPSender.Op) (t : SenderTrace) :
    t.pushed ⊆ (ops.foldl SenderTrace.after t).pushed := by
  induction ops generalizing t with
  | nil => exact List.Subset.refl _
  | cons op ops ih => exact List.Subset.trans (List.subset_append_left ..) (ih (t.after op))

/-- The history is that of the connection's sender, and what was put out is a RST or
    was pushed by the sender. -/
structure TraceInv (t : ConnectionTrace) : Prop where
  sender_eq : t.history.sender = t.conn.sender
  queued : t.history.Queued
  wired : ∃ finAt, t.history.WireInv finAt
  emitted : ∀ e ∈ t.emitted, e.seg = rstSegment ∨
    ∃ seg ∈ t.history.pushed, e.seg = stamp e.receiver seg

theorem traceInv_new (endNode : List ByteString → Nat) (cfg : TCPConfig) (isn : WrappingInt32) :
    (new endNode cfg isn).TraceInv where
  sender_eq := rfl
  queued := List.nil_subset _
  wired := ⟨none, SenderTrace.wireInv_new ..⟩
  emitted := by simp [new]

/-- What an operation puts out. -/
theorem TraceInv.queuedBy {t : ConnectionTrace} (h : t.TraceInv) {op : Op} {e : Emission}
    (he : e ∈ t.conn.queuedBy op) : (t.conn.GivesUp op ∧ e = ⟨rstSegment, t.conn.receiver⟩) ∨
      ∃ seg ∈ ((t.conn.performed op).foldl SenderTrace.after t.history).pushed,
        e.seg = stamp e.receiver seg := by
  rcases List.mem_append.mp he with he | he
  · cases h₁ : t.conn.sending op with
    | none =>
        rw [h₁] at he
        cases he
    | some c₁ =>
        rw [h₁] at he
        obtain ⟨seg, hseg, rfl⟩ := List.mem_map.mp he
        refine Or.inr ⟨seg, ?_, rfl⟩
        -- it was in the queue of the sender at `send_segments()`
        have hs := foldl_after_sender (t.conn.prepares op) t.history
        rw [h.sender_eq, prepares_sender h₁] at hs
        have hq : ((t.conn.prepares op).foldl SenderTrace.after t.history).Queued :=
          foldl_after_invariant h.queued fun _ sop _ hu => hu.after sop
        rw [← hs] at hseg
        rw [performed, List.append_assoc, List.foldl_append]
        exact pushed_subset_foldl _ _ (hq hseg)
  · split at he
    · rename_i hgive
      exact Or.inl ⟨hgive, List.mem_singleton.mp he⟩
    · cases he

theorem TraceInv.step {t t' : ConnectionTrace} (h : t.TraceInv) {op : Op}
    (hs : t.step op = some t') : t'.TraceInv := by
  obtain ⟨hc, hemit, hhist⟩ := step_conn hs
  refine ⟨?_, ?_, ?_, ?_⟩
  · rw [hhist, foldl_after_sender, h.sender_eq, performed_sender hc]
  · rw [hhist]
    exact foldl_after_invariant (I := SenderTrace.Queued) h.queued fun _ sop _ hu => hu.after sop
  · rw [hhist]
    exact foldl_after_invariant (I := fun u => ∃ finAt, u.WireInv finAt) h.wired
      fun _ sop _ hu => SenderTrace.wireInv_after hu sop
  · intro e he
    rw [hemit] at he
    rcases List.mem_append.mp he with he | he
    · refine (h.emitted e he).imp_right ?_
      rintro ⟨seg, hseg, heq⟩
      rw [hhist]
      exact ⟨seg, pushed_subset_foldl _ _ hseg, heq⟩
    · rw [hhist]
      refine (h.queuedBy he).imp_left ?_
      rintro ⟨-, rfl⟩
      rfl

theorem traceInv_run {adm : ConnectionTrace → Op → Prop} {endNode : List ByteString → Nat}
    {cfg : TCPConfig} {isn : WrappingInt32} {ops : List Op} {t : ConnectionTrace}
    (hrun : Run (Guarded adm step) (new endNode cfg isn) ops t) : t.TraceInv :=
  hrun.invariant (traceInv_new endNode cfg isn) fun _ _ _ h hs => h.step hs.2

end ConnectionTrace

end Sponge
