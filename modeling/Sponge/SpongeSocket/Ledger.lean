/-
  Sponge.SpongeSocket.Ledger

  A connection, and what has passed between it, its application and the network.

  This is one side of a `World`, and what a socket is compared with: whatever the thread of
  a socket does to its connection is a sequence of the connection's operations, and the
  ledger says what these operations have taken in and given out.  Two ledgers make a world
  (`World.ofLedgers`), and what one of them hears from the other is a run of it
  (`ofLedgers_run`).
-/

import Sponge.FdAdapter.Basic
import Sponge.Network.Basic

namespace Sponge

open Lib (Run Guarded)

-- ============================================================================
-- What a connection looks at
-- ============================================================================

namespace TCPConnection

/-- A connection does the same with segments that agree. -/
theorem segmentReceived_congr (c : TCPConnection) {seg seg' : TCPSegment} (h : seg.Agrees seg') :
    c.segmentReceived seg = c.segmentReceived seg' := by
  obtain ⟨⟨sport, dport, seqno, ackno, doff, urg, ack, psh, rst, syn, fin, win, cksum, uptr⟩,
    payload⟩ := seg
  obtain ⟨⟨sport', dport', seqno', ackno', doff', urg', ack', psh', rst', syn', fin', win', cksum',
    uptr'⟩, payload'⟩ := seg'
  obtain ⟨rfl, rfl, rfl, rfl, rfl, rfl, rfl, rfl⟩ := h
  rfl

theorem plain_rst : rstSegment.Plain := ⟨rfl, Nat.zero_le _⟩

/-- What the sender has pushed goes out without options and in small pieces. -/
theorem plain_stamp {t : SenderTrace} (h : t.SegmentsInv) {seg : TCPSegment} (hseg : seg ∈ t.pushed)
    (receiver : TCPReceiver) : (stamp receiver seg).Plain := by
  have hplain : seg.Plain := by
    rcases h.replays.mem_cases hseg with hfirst | ⟨n, -, rfl⟩
    · exact ⟨by rw [h.header_eq seg hfirst], h.payload_le seg hfirst⟩
    · exact ⟨rfl, Nat.zero_le _⟩
  unfold stamp
  split
  · exact ⟨hplain.doff_eq, hplain.payload_le⟩
  · exact hplain

end TCPConnection

-- ============================================================================
-- Ledgers
-- ============================================================================

structure Ledger where
  conn : TCPConnection
  /-- the segments given to `segment_received` -/
  heard : List TCPSegment := []
  /-- the segments taken off `segments_out()` -/
  net : List TCPSegment := []
  /-- the bytes that `write()` has accepted -/
  accepted : List UInt8 := []
  /-- the bytes read from the inbound stream -/
  delivered : List UInt8 := []

namespace Ledger

/-- The segment that an operation is about. -/
def heardBy : TCPConnection.Op → List TCPSegment
  | .segmentReceived seg => [seg]
  | _ => []

def step (l : Ledger) (op : TCPConnection.Op) : Option Ledger :=
  (l.conn.step op).map fun conn =>
    { conn
      heard := l.heard ++ heardBy op
      net := l.net ++ World.emittedBy l.conn op
      accepted := l.accepted ++ l.conn.acceptedBy op
      delivered := l.delivered ++ l.conn.deliveredBy op }

/-- The connection goes on by some operations. -/
def Extends (l l' : Ledger) : Prop := ∃ ops, Run (fun l op l' => step l op = some l') l ops l'

theorem Extends.refl (l : Ledger) : l.Extends l := ⟨[], .nil⟩

theorem Extends.trans {l l' l'' : Ledger} (h : l.Extends l') (h' : l'.Extends l'') : l.Extends l'' := by
  obtain ⟨ops, hrun⟩ := h
  obtain ⟨ops', hrun'⟩ := h'
  exact ⟨ops ++ ops', hrun.append hrun'⟩

theorem Extends.of_step {l l' : Ledger} {op : TCPConnection.Op} (h : l.step op = some l') :
    l.Extends l' := ⟨[op], .single h⟩

/-- What the operations keep. -/
theorem Extends.invariant {l l' : Ledger} (h : l.Extends l') {I : Ledger → Prop} (hinit : I l)
    (hstep : ∀ m op m', I m → step m op = some m' → I m') : I l' := by
  obtain ⟨ops, hrun⟩ := h
  exact hrun.invariant (I := I) hinit fun m op m' hm hs => hstep m op m' hm hs

theorem Extends.heard_prefix {l l' : Ledger} (h : l.Extends l') : l.heard <+: l'.heard := by
  refine h.invariant (I := fun m => l.heard <+: m.heard) (List.prefix_refl _) ?_
  intro m op m' hm hs
  obtain ⟨c, -, rfl⟩ := Option.map_eq_some_iff.mp hs
  exact hm.trans (List.prefix_append ..)

/-- The sender has a history, and nothing but plain segments are in the queue. -/
structure Sound (l : Ledger) : Prop where
  history : ∃ t finAt, SenderTrace.WireInv finAt t ∧ t.sender = l.conn.sender ∧ t.Queued ∧
    t.written = l.accepted
  queue : ∀ seg ∈ l.conn.segmentsOut, seg.Plain

theorem Sound.new (endNode : List ByteString → Nat) (cfg : TCPConfig) (isn : WrappingInt32) :
    Sound { conn := .new endNode cfg isn } where
  history := ⟨.new cfg.sendCapacity cfg.rtTimeout (cfg.fixedIsn.getD isn), none,
    SenderTrace.wireInv_new .., rfl, List.nil_subset _, rfl⟩
  queue := fun _ h => absurd h List.not_mem_nil

theorem Sound.step {l l' : Ledger} {op : TCPConnection.Op} (h : l.Sound) (hs : l.step op = some l') :
    l'.Sound := by
  obtain ⟨c', hc', rfl⟩ := Option.map_eq_some_iff.mp hs
  obtain ⟨t, finAt, hwire, hsender, hqueued, hwritten⟩ := h.history
  obtain ⟨t', htracks⟩ := TCPConnection.step_tracks hc' hsender hqueued
  obtain ⟨-, -, hq, hw⟩ := World.continues_facts htracks.continues
  obtain ⟨finAt', hwire'⟩ := hw finAt hwire
  refine ⟨⟨t', finAt', hwire', htracks.sender_eq, hq hqueued, ?_⟩, fun seg hseg => ?_⟩
  · rw [htracks.written_eq, hwritten]
  rcases htracks.queue seg hseg with hseg | rfl | ⟨seg₀, hseg₀, rfl⟩
  · exact h.queue seg hseg
  · exact TCPConnection.plain_rst
  · exact TCPConnection.plain_stamp hwire'.segments hseg₀ _

/-- Every byte has one sequence number, and so have the SYN and the FIN. -/
theorem Sound.nextSeqnoAbsolute_le {l : Ledger} (h : l.Sound) :
    l.conn.sender.nextSeqnoAbsolute ≤ l.accepted.length + 2 := by
  obtain ⟨t, finAt, hwire, hsender, -, hwritten⟩ := h.history
  have hread := hwire.stream.read_le
  rw [← hsender, ← hwritten]
  rcases Nat.eq_zero_or_pos t.sender.nextSeqnoAbsolute with h0 | hpos
  · omega
  · have hnext := hwire.counts.next_eq hpos
    split at hnext <;> omega

end Ledger

-- ============================================================================
-- Two ledgers
-- ============================================================================

namespace World

/-- The world that two ledgers are the sides of. -/
def ofLedgers (L : Side → Ledger) : World where
  conn := fun x => (L x).conn
  net := fun x => (L x).net
  accepted := fun x => (L x).accepted
  delivered := fun x => (L x).delivered

theorem ofLedgers_update (L : Side → Ledger) (x : Side) (l : Ledger) :
    ofLedgers (Function.update L x l) =
      { conn := Function.update (ofLedgers L).conn x l.conn
        net := Function.update (ofLedgers L).net x l.net
        accepted := Function.update (ofLedgers L).accepted x l.accepted
        delivered := Function.update (ofLedgers L).delivered x l.delivered } := by
  have hfield : ∀ {τ : Type} (f : Ledger → τ),
      (fun y => f (Function.update L x l y)) = Function.update (fun y => f (L y)) x (f l) :=
    fun f => funext fun y => Function.apply_update (fun _ => f) L x l y
  exact World.mk.injEq .. |>.mpr ⟨hfield _, hfield _, hfield _, hfield _⟩

/-- An operation of one side. -/
theorem ofLedgers_step {L : Side → Ledger} {x : Side} {op : TCPConnection.Op} {l' : Ledger}
    (h : (L x).step op = some l') :
    (ofLedgers L).step ⟨x, op⟩ = some (ofLedgers (Function.update L x l')) := by
  obtain ⟨c', hc', rfl⟩ := Option.map_eq_some_iff.mp h
  rw [ofLedgers_update]
  show ((L x).conn.step op).map _ = _
  rw [hc']
  rfl

theorem fromNetwork_of_not_received {w : World} {x : Side} {op : TCPConnection.Op}
    (h : ¬ ∃ seg, op = .segmentReceived seg) : w.FromNetwork ⟨x, op⟩ := by
  cases op with
  | segmentReceived seg => exact absurd ⟨seg, rfl⟩ h
  | connect | write data | endInputStream | read len | popOutput len | tick ms | dequeue =>
      exact trivial

/-- What one side does is a run of the world, if what it hears agrees with something that
    the other one has sent. -/
theorem ofLedgers_run {L : Side → Ledger} {x : Side} {l' : Ledger} (h : (L x).Extends l')
    (hheard : ∀ seg ∈ l'.heard, ∃ sent ∈ (L x.other).net, seg.Agrees sent) :
    ∃ es, Run (Guarded FromNetwork step) (ofLedgers L) es (ofLedgers (Function.update L x l')) := by
  obtain ⟨ops, hrun⟩ := h
  induction hrun with
  | nil => exact ⟨[], by rw [Function.update_eq_self]; exact .nil⟩
  | @snoc ops l op l' hrun hstep ih =>
      have hpre : l.heard <+: l'.heard := Ledger.Extends.heard_prefix (.of_step hstep)
      obtain ⟨es, hes⟩ := ih fun seg hseg => hheard seg (hpre.subset hseg)
      -- the segment that was heard is replaced by the one that was sent
      obtain ⟨op', hop', hnet⟩ : ∃ op', (Function.update L x l x).step op' = some { l' with
          heard := l.heard ++ Ledger.heardBy op' } ∧
          (ofLedgers (Function.update L x l)).FromNetwork ⟨x, op'⟩ := by
        rw [Function.update_self]
        obtain ⟨c', hc', rfl⟩ := Option.map_eq_some_iff.mp hstep
        by_cases hop : ∃ seg, op = .segmentReceived seg
        · obtain ⟨seg, rfl⟩ := hop
          obtain ⟨sent, hsent, hagrees⟩ := hheard seg
            (List.mem_append_right _ (List.mem_singleton_self seg))
          refine ⟨.segmentReceived sent, ?_, ?_⟩
          · show (l.conn.segmentReceived sent).map _ = _
            rw [← l.conn.segmentReceived_congr hagrees]
            rw [show l.conn.segmentReceived seg = some c' from hc']
            rfl
          · show sent ∈ (Function.update L x l x.other).net
            rw [Function.update_of_ne x.other_ne]
            exact hsent
        · exact ⟨op, by rw [Ledger.step, hc']; rfl, fromNetwork_of_not_received hop⟩
      refine ⟨es ++ [⟨x, op'⟩], .snoc _ hes ⟨hnet, ?_⟩⟩
      rw [ofLedgers_step hop', Function.update_idem, ofLedgers_update, ofLedgers_update]

end World

end Sponge
