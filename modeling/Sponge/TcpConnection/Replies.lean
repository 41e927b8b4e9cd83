/-
  Sponge.TcpConnection.Replies

  What a connection answers to a segment.

  `segment_received` queues an empty segment if the sender has nothing to send and the
  segment occupies sequence space, so such a segment is acknowledged at once.  To any
  other segment the answer is what the sender has to send.  Between two operations
  only segments that occupy sequence space can be left in the sender's queue
  (`QueueOccupies`), so an empty segment is never answered by an empty one.

  There is no answer at all if the call does not return.  The FIN of a segment announces
  an end to the reassembler, and with strings pending beyond that end `set_eof` may erase
  the end of the list; otherwise every segment is answered (`answersAtOnce_iff_canTake`).
-/

import Sponge.TcpConnection.Output

namespace Sponge

open Lib (Run Guarded)

namespace TCPSender

/-- Everything in the queue occupies sequence space. -/
def QueueOccupies (s : TCPSender) : Prop := ∀ seg ∈ s.segmentsOut, 0 < seg.lengthInSequenceSpace

theorem QueueOccupies.of_run {s s' : TCPSender} (h : s.QueueOccupies) {segs : List TCPSegment}
    (hrun : Run Emit s segs s') : s'.QueueOccupies := by
  refine hrun.invariant (I := QueueOccupies) h ?_
  rintro t seg u ht ⟨hf⟩ x hx
  rw [afterSend_segmentsOut] at hx
  rcases List.mem_append.mp hx with hx | hx
  · exact ht x hx
  · exact List.mem_singleton.mp hx ▸ hf.pos

theorem QueueOccupies.fillWindow {s : TCPSender} (h : s.QueueOccupies) :
    s.fillWindow.QueueOccupies := by
  obtain ⟨-, segs, hrun⟩ := s.fillWindow_run
  exact h.of_run hrun

theorem QueueOccupies.ackReceived {s : TCPSender} (h : s.QueueOccupies) (ackno : WrappingInt32)
    (w : UInt16) : (s.ackReceived ackno w).QueueOccupies := by
  unfold TCPSender.ackReceived
  split
  · refine QueueOccupies.fillWindow ?_
    unfold QueueOccupies
    rwa [acknowledge_segmentsOut]
  · exact h

end TCPSender

namespace TCPConnection

-- ============================================================================
-- What is left in the sender's queue
-- ============================================================================

theorem activated_queueOccupies {c : TCPConnection} (h : c.sender.QueueOccupies) :
    c.activated.sender.QueueOccupies := by
  unfold activated
  split
  · exact h
  · exact h.fillWindow

theorem takeAck_queueOccupies {c : TCPConnection} (h : c.sender.QueueOccupies)
    (seg : TCPSegment) : (c.takeAck seg).sender.QueueOccupies := by
  unfold takeAck
  split
  · exact h.ackReceived _ _
  · exact h

/-- An operation that gets to `send_segments()` leaves the sender's queue empty. -/
theorem sender_segmentsOut_of_sending {c c' c₁ : TCPConnection} {op : Op}
    (h : c.step op = some c') (h₁ : c.sending op = some c₁) : c'.sender.segmentsOut = [] := by
  obtain ⟨-, rfl⟩ | ⟨-, hs, -⟩ := step_of_sending h h₁
  · rw [(stopLingering_frame _).1]
    rfl
  · rw [hs]
    rfl

theorem step_queueOccupies {c c' : TCPConnection} {op : Op} (h : c.step op = some c')
    (hc : c.sender.QueueOccupies) : c'.sender.QueueOccupies := by
  cases h₁ : c.sending op with
  | some c₁ =>
      intro seg hseg
      rw [sender_segmentsOut_of_sending h h₁] at hseg
      cases hseg
  | none =>
      cases op with
      | segmentReceived seg =>
          obtain ⟨-, rfl⟩ | ⟨-, -, rfl⟩ | ⟨hp, hrst, receiver, hr, -⟩ := segmentReceived_cases h
          · exact hc
          · -- the SYN of a connection that was activated and reset stays in the queue
            exact activated_queueOccupies hc
          · simp [sending, hp, hrst, hr] at h₁
      | read len | popOutput len =>
          obtain rfl := Option.some.inj h
          exact hc
      | dequeue =>
          obtain ⟨seg, rest, -, rfl⟩ := step_dequeue h
          exact hc
      | connect | write data | endInputStream | tick ms => cases h₁

theorem queueOccupies_run {adm : TCPConnection → Op → Prop} {endNode : List ByteString → Nat}
    {cfg : TCPConfig} {isn : WrappingInt32} {ops : List Op} {c : TCPConnection}
    (hrun : Run (Guarded adm step) (new endNode cfg isn) ops c) : c.sender.QueueOccupies := by
  refine hrun.invariant (I := fun c => c.sender.QueueOccupies) ?_ ?_
  · intro seg hseg
    cases hseg
  · rintro c op c' hc ⟨-, hs⟩
    exact step_queueOccupies hs hc

-- ============================================================================
-- Answers
-- ============================================================================

/-- The answer to a segment: what occupies sequence space is acknowledged at once, and
    what does not is not answered by an empty segment. -/
structure AnswersAtOnce (c : TCPConnection) (seg : TCPSegment) (c' : TCPConnection)
    (answer : List TCPSegment) : Prop where
  appended : c'.segmentsOut = c.segmentsOut ++ answer
  acknowledges : ∀ ackno, c'.receiver.ackno = some ackno → 0 < seg.lengthInSequenceSpace →
    answer ≠ [] ∧ ∀ x ∈ answer, x.header.ack = true ∧ x.header.ackno = ackno
  never_empty : seg.lengthInSequenceSpace = 0 → ∀ x ∈ answer, 0 < x.lengthInSequenceSpace

theorem stamp_ackno {receiver : TCPReceiver} {ackno : WrappingInt32}
    (h : receiver.ackno = some ackno) (seg : TCPSegment) :
    (stamp receiver seg).header.ack = true ∧ (stamp receiver seg).header.ackno = ackno := by
  rw [stamp_of_ackno seg h]
  exact ⟨rfl, rfl⟩

theorem stamp_length (receiver : TCPReceiver) (seg : TCPSegment) :
    (stamp receiver seg).lengthInSequenceSpace = seg.lengthInSequenceSpace := by
  obtain ⟨-, hsyn, hfin, hpay⟩ := stamp_frame seg receiver
  exact TCPSegment.lengthInSequenceSpace_congr hsyn hfin hpay

/-- When the call returns, it answers at once. -/
theorem answersAtOnce_of_returns {c c' : TCPConnection} {seg : TCPSegment}
    (hqueue : c.sender.QueueOccupies) (hp : c.Processes seg) (hrst : seg.header.rst = false)
    (hs : c.segmentReceived seg = some c') : ∃ answer, c.AnswersAtOnce seg c' answer := by
  obtain ⟨hnot, -⟩ | ⟨-, hreset, -⟩ | ⟨-, -, receiver, hr, -⟩ := segmentReceived_cases hs
  · exact absurd hp hnot
  · rw [hrst] at hreset
    cases hreset
  have h₁ : c.sending (.segmentReceived seg) =
      some (((c.received receiver).takeAck seg).ensureReply seg) := by
    simp [sending, hp, hrst, hr]
  have hstep : c.step (.segmentReceived seg) = some c' := hs
  obtain ⟨hgive, -⟩ | ⟨-, -, hrec, hout⟩ := step_of_sending hstep h₁
  · exact hgive.elim
  have htake : ((c.received receiver).takeAck seg).sender.QueueOccupies :=
    takeAck_queueOccupies (c := c.received receiver) (activated_queueOccupies hqueue) seg
  refine ⟨_, hout, ?_, ?_⟩
  · intro ackno hackno hpos
    rw [hrec] at hackno
    constructor
    · have hne := ensureReply_ne_nil ((c.received receiver).takeAck seg) hpos
      simpa [outgoing] using hne
    · intro x hx
      simp only [outgoing, List.map_map, List.mem_map, Function.comp_apply] at hx
      obtain ⟨seg₀, -, rfl⟩ := hx
      exact stamp_ackno hackno seg₀
  · intro hzero x hx
    simp only [outgoing, List.map_map, List.mem_map, Function.comp_apply] at hx
    obtain ⟨seg₀, hseg₀, rfl⟩ := hx
    rw [stamp_length]
    -- no empty segment was added
    rw [ensureReply, if_neg (by omega)] at hseg₀
    exact htake seg₀ hseg₀

theorem segmentReceived_eq_none_iff {c : TCPConnection} {seg : TCPSegment}
    (hp : c.Processes seg) (hrst : seg.header.rst = false) :
    c.segmentReceived seg = none ↔ ¬ c.receiver.CanTake seg := by
  have hnot : ¬ (c.activeFlag = false ∧ seg.header.syn = false) := by
    rcases hp with hactive | hsyn
    · simp [hactive]
    · simp [hsyn]
  have hreceiver : (activated { c with timeSinceLastSegmentReceived := 0 }).receiver =
      c.receiver := by
    unfold activated
    split <;> rfl
  rw [segmentReceived, if_neg hnot, handleSegment, if_neg (by simp [hrst]),
    Option.map_eq_none_iff, hreceiver, TCPReceiver.segmentReceived_eq_none_iff]

/-- **Answers.**  In every reachable state a segment that is processed, without RST, is
    acknowledged at once if it occupies sequence space, and is not answered by an empty
    segment otherwise, exactly if the receiver can take it. -/
theorem answersAtOnce_iff_canTake (endNode : List ByteString → Nat) (cfg : TCPConfig)
    (isn : WrappingInt32) {ops : List Op} {c : TCPConnection} {seg : TCPSegment}
    (hrun : Run (Guarded (fun _ _ => True) step) (new endNode cfg isn) ops c)
    (hp : c.Processes seg) (hrst : seg.header.rst = false) :
    (∃ c' answer, c.segmentReceived seg = some c' ∧ c.AnswersAtOnce seg c' answer) ↔
      c.receiver.CanTake seg := by
  have hnone := segmentReceived_eq_none_iff hp hrst
  constructor
  · rintro ⟨c', -, hs, -⟩
    by_contra hcannot
    rw [hnone.mpr hcannot] at hs
    cases hs
  · intro hcan
    obtain ⟨c', hs⟩ := Option.ne_none_iff_exists'.mp fun h => hnone.mp h hcan
    obtain ⟨answer, hanswer⟩ := answersAtOnce_of_returns (queueOccupies_run hrun) hp hrst hs
    exact ⟨c', answer, hs, hanswer⟩

/-- A connection that waits for its peer. -/
def listening : TCPConnection := new List.length { fixedIsn := some ⟨0⟩ } ⟨0⟩

/-- The SYN of a peer. -/
def peerSyn : TCPSegment := { header := { seqno := ⟨100⟩, syn := true } }

/-- The own SYN is the answer, and acknowledges the peer's. -/
theorem answersAtOnce_iff_canTake_peerSyn :
    listening.receiver.CanTake peerSyn ∧
      ∃ c' answer, listening.segmentReceived peerSyn = some c' ∧
        listening.AnswersAtOnce peerSyn c' answer :=
  ⟨by decide, (answersAtOnce_iff_canTake List.length { fixedIsn := some ⟨0⟩ } ⟨0⟩ Run.nil
    (show listening.Processes peerSyn from Or.inr rfl) rfl).mpr (by decide)⟩

/-- A SYN, and an "x" at stream index 5. -/
def holeAhead : List Op :=
  [.segmentReceived { header := { syn := true } },
    .segmentReceived { header := { seqno := ⟨6⟩ }, payload := [120] }]

/-- A FIN at stream index 0. -/
def earlyFin : TCPSegment := { header := { seqno := ⟨1⟩, fin := true } }

/-- With the "x" pending, a FIN at the start of the stream makes `set_eof` erase the end of
    the pending list, and is not answered. -/
theorem answersAtOnce_fails :
    ∃ c, Run (Guarded (fun _ _ => True) step) listening holeAhead c ∧ c.Processes earlyFin ∧
      earlyFin.header.rst = false ∧ 0 < earlyFin.lengthInSequenceSpace ∧
      c.receiver.ackno = some ⟨1⟩ ∧ c.segmentReceived earlyFin = none ∧
      ¬ ∃ c' answer, c.segmentReceived earlyFin = some c' ∧ c.AnswersAtOnce earlyFin c' answer := by
  have hrun := Run.of_exec (fun _ _ => True) step listening holeAhead (by decide)
  have hnone : ((Lib.exec (fun _ _ => True) step listening holeAhead).get
      (by decide)).segmentReceived earlyFin = none := by rfl
  refine ⟨_, hrun, by decide, rfl, by decide, by decide, hnone, ?_⟩
  rintro ⟨c', answer, hs, -⟩
  rw [hnone] at hs
  cases hs

end TCPConnection

end Sponge
