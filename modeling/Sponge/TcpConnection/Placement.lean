/-
  Sponge.TcpConnection.Placement

  Where what a connection puts out stands in the sequence space.

  Whatever comes from the sender is a copy of a first-time segment or an empty one at
  the end of what was sent, and gets the receiver's ackno on its way.  The RST of
  `send_rst()` does not come from the sender: it keeps the header's defaults, seqno 0
  and no ACK, so its place is a matter of chance (`RstPositioned`).
-/

import Sponge.TcpConnection.Replies

namespace Sponge

open Lib (Run Guarded)

namespace TCPConnection

/-- The segment lies within what the sender of `c` has sent, and carries the ackno of
    the receiver that sent it, if there is one.  `c` is the connection after the
    operation: nothing changes `next_seqno_absolute()` behind `send_segments()`. -/
structure Emission.Positioned (e : Emission) (c : TCPConnection) : Prop where
  placed : ∃ x, e.seg.header.seqno = wrap x c.sender.isn ∧
    x + e.seg.lengthInSequenceSpace ≤ c.sender.nextSeqnoAbsolute
  acknowledges : e.receiver.synRecv = true →
    e.seg.header.ack = true ∧ e.receiver.ackno = some e.seg.header.ackno

/-- If the operation gives up, the peer's SYN was not received and the raw number 0 is
    among those that were sent. -/
def RstPositioned (c : TCPConnection) (op : Op) : Prop :=
  c.GivesUp op → c.receiver.synRecv = false ∧
    (2 ^ 32 - c.sender.isn.rawValue.toNat) % 2 ^ 32 ≤ c.sender.nextSeqnoAbsolute

/-- What comes from the sender is acknowledging. -/
theorem stamp_acknowledges {receiver : TCPReceiver} (h : receiver.synRecv = true)
    (seg : TCPSegment) : (stamp receiver seg).header.ack = true ∧
      receiver.ackno = some (stamp receiver seg).header.ackno := by
  have hackno := receiver.ackno_eq
  rw [if_pos h] at hackno
  obtain ⟨hack, heq⟩ := stamp_ackno hackno seg
  exact ⟨hack, by rw [heq, hackno]⟩

theorem rst_mem_queuedBy {c : TCPConnection} {op : Op} (h : c.GivesUp op) :
    ⟨rstSegment, c.receiver⟩ ∈ c.queuedBy op := by
  refine List.mem_append_right _ ?_
  rw [if_pos h]
  exact List.mem_singleton.mpr rfl

/-- The RST stands at the raw number 0. -/
theorem rst_positioned_iff (receiver : TCPReceiver) (c : TCPConnection) :
    Emission.Positioned ⟨rstSegment, receiver⟩ c ↔ receiver.synRecv = false ∧
      (2 ^ 32 - c.sender.isn.rawValue.toNat) % 2 ^ 32 ≤ c.sender.nextSeqnoAbsolute := by
  have hisn := c.sender.isn.rawValue.toNat_lt
  constructor
  · rintro ⟨⟨x, hx, hle⟩, hack⟩
    refine ⟨?_, ?_⟩
    · by_contra hsyn
      have := (hack (by simpa using hsyn)).1
      cases this
    · have hraw : 0 = (c.sender.isn.rawValue.toNat + x) % 2 ^ 32 := by
        rw [← wrap_toNat, ← hx]
        rfl
      have hlen : rstSegment.lengthInSequenceSpace = 0 := rfl
      simp only [hlen] at hle
      omega
  · rintro ⟨hsyn, hle⟩
    refine ⟨⟨(2 ^ 32 - c.sender.isn.rawValue.toNat) % 2 ^ 32, ?_, hle⟩, ?_⟩
    · apply WrappingInt32.ext_toNat
      rw [wrap_toNat]
      show 0 = _
      omega
    · intro hrecv
      rw [hsyn] at hrecv
      cases hrecv

/-- Giving up changes neither the start of the sequence space nor its end. -/
theorem giveUp_sender_frame {c c' : TCPConnection} {op : Op} (h : c.step op = some c')
    (hgive : c.GivesUp op) : c'.sender.isn = c.sender.isn ∧
      c'.sender.nextSeqnoAbsolute = c.sender.nextSeqnoAbsolute := by
  cases op with
  | tick ms =>
      obtain ⟨-, rfl⟩ | ⟨hnot, -⟩ := step_of_sending h rfl
      · obtain ⟨segs, timer, timeout, retransmissions, -, heq⟩ := c.sender.tick_eq ms
        rw [(stopLingering_frame _).1]
        show (c.sender.tick ms).isn = _ ∧ (c.sender.tick ms).nextSeqnoAbsolute = _
        rw [heq]
        exact ⟨rfl, rfl⟩
      · exact absurd hgive hnot
  | connect | write data | endInputStream | read len | popOutput len | segmentReceived seg
  | dequeue => exact hgive.elim

end TCPConnection

namespace ConnectionTrace

open TCPConnection

/-- **Placement.**  In every reachable state, what an operation puts out is positioned
    if and only if the RST, where it gives up, happens to be. -/
theorem positioned_iff_rstPositioned (endNode : List ByteString → Nat) (cfg : TCPConfig)
    (isn : WrappingInt32) {ops : List Op} {op : Op} {t t' : ConnectionTrace}
    (hrun : Run (Guarded (fun _ _ => True) step) (new endNode cfg isn) ops t)
    (hs : t.step op = some t') :
    (∀ e ∈ t.conn.queuedBy op, e.Positioned t'.conn) ↔ t.conn.RstPositioned op := by
  have h := traceInv_run hrun
  have h' := h.step hs
  obtain ⟨hc, -, hhist⟩ := step_conn hs
  constructor
  · intro hall hgive
    obtain ⟨hisn, hnext⟩ := giveUp_sender_frame hc hgive
    rw [← hisn, ← hnext]
    exact (rst_positioned_iff _ _).mp (hall _ (rst_mem_queuedBy hgive))
  · intro hpos e he
    rcases h.queuedBy he with ⟨hgive, rfl⟩ | ⟨seg, hseg, heq⟩
    · obtain ⟨hisn, hnext⟩ := giveUp_sender_frame hc hgive
      rw [rst_positioned_iff, hisn, hnext]
      exact hpos hgive
    · obtain ⟨finAt, hw⟩ := h'.wired
      rw [← hhist] at hseg
      obtain ⟨x, hx, hle⟩ := hw.segments.within_sent hseg
      refine ⟨⟨x, ?_, ?_⟩, ?_⟩
      · rw [heq, (stamp_frame seg e.receiver).1, hx, h'.sender_eq]
      · rw [heq, stamp_length, ← h'.sender_eq]
        exact hle
      · rw [heq]
        exact fun hsyn => stamp_acknowledges hsyn seg

/-- The SYN is answered and a byte is written, which nobody acknowledges. -/
def unacknowledged : List Op :=
  [.connect, .segmentReceived { header :=
      { seqno := ⟨100⟩, ackno := ⟨2⟩, win := 100, ack := true, syn := true } },
    .write [97]]

/-- The byte is retransmitted at its place. -/
theorem positioned_iff_rstPositioned_retransmission :
    ∃ t t', Run (Guarded (fun _ _ => True) step)
        (new List.length { fixedIsn := some ⟨1⟩ } ⟨1⟩) unacknowledged t ∧
      t.step (.tick 1000) = some t' ∧
      (t.conn.queuedBy (.tick 1000)).map (·.seg.header.seqno) = [⟨2⟩] ∧
      ∀ e ∈ t.conn.queuedBy (.tick 1000), e.Positioned t'.conn := by
  have hrun := Run.of_exec (fun _ _ => True) step
    (new List.length { fixedIsn := some ⟨1⟩ } ⟨1⟩) unacknowledged (by decide)
  refine ⟨_, _, hrun, (Option.some_get (by decide)).symm, by decide,
    (positioned_iff_rstPositioned _ _ _ hrun (Option.some_get _).symm).mpr fun hgive => ?_⟩
  revert hgive
  decide

/-- After eight retransmissions the ninth gives up: the RST has the seqno 0, which was
    not sent, and does not acknowledge. -/
theorem positioned_fails :
    ∃ t t', Run (Guarded (fun _ _ => True) step)
        (new List.length { fixedIsn := some ⟨1⟩ } ⟨1⟩)
        (unacknowledged ++ List.replicate 8 (.tick 1000000)) t ∧
      t.step (.tick 1000000) = some t' ∧ t.conn.GivesUp (.tick 1000000) ∧
      ¬ ∀ e ∈ t.conn.queuedBy (.tick 1000000), e.Positioned t'.conn := by
  have hrun := Run.of_exec (fun _ _ => True) step
    (new List.length { fixedIsn := some ⟨1⟩ } ⟨1⟩)
    (unacknowledged ++ List.replicate 8 (.tick 1000000)) (by decide)
  refine ⟨_, _, hrun, (Option.some_get (by decide)).symm, by decide +kernel, fun hall => ?_⟩
  have hrst := hall _ (rst_mem_queuedBy (by decide +kernel))
  exact absurd ((rst_positioned_iff _ _).mp hrst).1 (by decide +kernel)

end ConnectionTrace

end Sponge
