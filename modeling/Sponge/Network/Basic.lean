/-
  Sponge.Network.Basic

  Two connections and the network between them.

  A segment that its owner takes off `segments_out()` is in the network for good:
  it may be delivered to the other side at any time, any number of times, or never.
  This is a network that drops, duplicates, delays and reorders, but does not forge
  or alter.  In every run what an application has read and can read is a prefix of
  what the other one has written (`prefix_safety`).
-/

import Mathlib.Logic.Function.Basic
import Sponge.Network.Link

namespace Sponge

open Lib (Run Guarded)

inductive Side
  | a
  | b
deriving DecidableEq, Repr

namespace Side

def other : Side → Side
  | .a => .b
  | .b => .a

@[simp] theorem other_other (x : Side) : x.other.other = x := by
  cases x <;> rfl

theorem other_ne (x : Side) : x.other ≠ x := by
  cases x <;> decide

theorem eq_or_eq_other (x y : Side) : y = x ∨ y = x.other := by
  cases x <;> cases y <;> decide

end Side

/-- The two endpoints, and what has passed between them and their applications. -/
structure World where
  conn : Side → TCPConnection
  /-- what the side has put into the network -/
  net : Side → List TCPSegment
  /-- the bytes that `write()` calls of the side accepted -/
  accepted : Side → List UInt8
  /-- the bytes that the application of the side has read -/
  delivered : Side → List UInt8

/-- Something happens to one of the sides. -/
structure Event where
  side : Side
  op : TCPConnection.Op

namespace World

def new (endNode : Side → List ByteString → Nat) (cfg : Side → TCPConfig)
    (isn : Side → WrappingInt32) : World where
  conn := fun x => .new (endNode x) (cfg x) (isn x)
  net := fun _ => []
  accepted := fun _ => []
  delivered := fun _ => []

/-- The segment that a step puts into the network. -/
def emittedBy (c : TCPConnection) : TCPConnection.Op → List TCPSegment
  | .dequeue => c.segmentsOut.take 1
  | _ => []

theorem mem_of_mem_emittedBy {c : TCPConnection} {op : TCPConnection.Op} {seg : TCPSegment}
    (h : seg ∈ emittedBy c op) : seg ∈ c.segmentsOut := by
  cases op with
  | dequeue => exact List.mem_of_mem_take h
  | _ => cases h

def step (w : World) (e : Event) : Option World :=
  let c := w.conn e.side
  (c.step e.op).map fun c' =>
    { conn := Function.update w.conn e.side c'
      net := Function.update w.net e.side (w.net e.side ++ emittedBy c e.op)
      accepted := Function.update w.accepted e.side (w.accepted e.side ++ c.acceptedBy e.op)
      delivered := Function.update w.delivered e.side (w.delivered e.side ++ c.deliveredBy e.op) }

/-- A segment is received only if the other side has sent it. -/
def FromNetwork (w : World) : Event → Prop
  | ⟨x, .segmentReceived seg⟩ => seg ∈ w.net x.other
  | _ => True

instance (w : World) : ∀ e, Decidable (w.FromNetwork e)
  | ⟨_, .segmentReceived _⟩ => inferInstanceAs (Decidable (_ ∈ _))
  | ⟨_, .connect⟩ | ⟨_, .write _⟩ | ⟨_, .endInputStream⟩ | ⟨_, .read _⟩ | ⟨_, .popOutput _⟩
  | ⟨_, .tick _⟩ | ⟨_, .dequeue⟩ => isTrue trivial

/-- The side that acts. -/
theorem step_self {w w' : World} {e : Event} (h : w.step e = some w') :
    (w.conn e.side).step e.op = some (w'.conn e.side) ∧
    w'.net e.side = w.net e.side ++ emittedBy (w.conn e.side) e.op ∧
    w'.accepted e.side = w.accepted e.side ++ (w.conn e.side).acceptedBy e.op ∧
    w'.delivered e.side = w.delivered e.side ++ (w.conn e.side).deliveredBy e.op := by
  obtain ⟨c', hc', rfl⟩ := Option.map_eq_some_iff.mp h
  simp [hc']

/-- The side that does not. -/
theorem step_other {w w' : World} {e : Event} (h : w.step e = some w') {y : Side}
    (hy : y ≠ e.side) :
    w'.conn y = w.conn y ∧ w'.net y = w.net y ∧ w'.accepted y = w.accepted y ∧
    w'.delivered y = w.delivered y := by
  obtain ⟨c', hc', rfl⟩ := Option.map_eq_some_iff.mp h
  simp [hy]

theorem step_nextSeqnoAbsolute_le {w w' : World} {e : Event} (h : w.step e = some w') (y : Side) :
    (w.conn y).sender.nextSeqnoAbsolute ≤ (w'.conn y).sender.nextSeqnoAbsolute := by
  by_cases hy : y = e.side
  · subst hy
    exact TCPConnection.step_nextSeqnoAbsolute_le (step_self h).1
  · rw [(step_other h hy).1]

-- ============================================================================
-- One direction
-- ============================================================================

/-- The stream from `x` to the other side: `t` is the history of the sender, and all
    that the receiver has put together comes from it. -/
structure Flow (w : World) (x : Side) (finAt : Option Nat) (t : SenderTrace) : Prop where
  wire : t.WireInv finAt
  sender_eq : t.sender = (w.conn x).sender
  written_eq : t.written = w.accepted x
  queued : t.Queued
  genuine : ∀ seg, seg ∈ (w.conn x).segmentsOut ∨ seg ∈ w.net x → t.Genuine seg
  receives : t.Receives (w.conn x.other).receiver (w.delivered x.other)

theorem flow_new (endNode : Side → List ByteString → Nat) (cfg : Side → TCPConfig)
    (isn : Side → WrappingInt32) (x : Side) :
    (new endNode cfg isn).Flow x none
      (.new (cfg x).sendCapacity (cfg x).rtTimeout ((cfg x).fixedIsn.getD (isn x))) where
  wire := SenderTrace.wireInv_new ..
  sender_eq := rfl
  written_eq := rfl
  queued := List.nil_subset _
  genuine := by simp [new, TCPConnection.new]
  receives := SenderTrace.receives_new ..

/-- What goes on in the history of a sender during a step. -/
theorem continues_facts {c : TCPConnection} {op : TCPConnection.Op} {t t' : SenderTrace}
    (h : c.Continues op t t') :
    t'.sender.isn = t.sender.isn ∧ t.firstTime <+: t'.firstTime ∧ (t.Queued → t'.Queued) ∧
    ∀ finAt, t.WireInv finAt → ∃ finAt', t'.WireInv finAt' := by
  refine ⟨?_, ?_, ?_, ?_⟩
  · obtain ⟨sops, hrun⟩ := h
    exact SenderTrace.isn_run hrun
  · exact h.invariant (I := fun u => t.firstTime <+: u.firstTime) (List.prefix_refl _)
      fun u sop _ hu => hu.trans (u.firstTime_prefix_after sop)
  · intro hq
    exact h.invariant hq fun _ sop _ hu => hu.after sop
  · intro finAt hw
    obtain ⟨sops, hrun⟩ := h
    exact SenderTrace.invariant (I := fun u => ∃ finAt, u.WireInv finAt) hrun ⟨finAt, hw⟩
      (fun _ op _ ⟨_, h⟩ => ⟨_, h.direct op⟩) (fun _ _ _ ⟨_, h⟩ he => ⟨_, h.emit he⟩)

/-- The sending side acts. -/
theorem Flow.send {w w' : World} {x : Side} {op : TCPConnection.Op} {finAt finAt' : Option Nat}
    {t t' : SenderTrace} (h : w.Flow x finAt t) (hs : w.step ⟨x, op⟩ = some w')
    (ht' : (w.conn x).Tracks op t (w'.conn x) t') (hw' : t'.WireInv finAt') :
    w'.Flow x finAt' t' := by
  obtain ⟨hstep, hnet, hacc, -⟩ := step_self hs
  obtain ⟨hconn, -, -, hdel⟩ := step_other hs x.other_ne
  obtain ⟨hisn, hpre, hq, -⟩ := continues_facts ht'.continues
  -- everything that was in the queue or in the network stays genuine
  have hold : ∀ seg, seg ∈ (w.conn x).segmentsOut ∨ seg ∈ w.net x → t'.Genuine seg :=
    fun seg hseg => (h.genuine seg hseg).mono hpre
  refine ⟨hw', ht'.sender_eq, ?_, hq h.queued, ?_, ?_⟩
  · rw [ht'.written_eq, h.written_eq]
    exact hacc.symm
  · rintro seg (hseg | hseg)
    · rcases ht'.queue seg hseg with hseg | rfl | ⟨seg₀, hmem, rfl⟩
      · exact hold seg (Or.inl hseg)
      · exact t'.genuine_rst
      · exact hw'.segments.genuine_stamp hmem _
    · rw [show w'.net x = _ from hnet] at hseg
      rcases List.mem_append.mp hseg with hseg | hseg
      · exact hold seg (Or.inr hseg)
      · exact hold seg (Or.inl (mem_of_mem_emittedBy hseg))
  · rw [hconn, hdel]
    exact h.receives.mono hisn hpre

/-- What the receiving side takes from the network is genuine. -/
theorem Flow.genuine_received {w : World} {x : Side} {op : TCPConnection.Op}
    {finAt : Option Nat} {t : SenderTrace} (h : w.Flow x finAt t)
    (hok : w.FromNetwork ⟨x.other, op⟩) : ∀ seg, op = .segmentReceived seg → t.Genuine seg := by
  rintro seg rfl
  have hmem : seg ∈ w.net x.other.other := hok
  rw [Side.other_other] at hmem
  exact h.genuine seg (Or.inr hmem)

/-- The receiving side acts. -/
theorem Flow.receive {w w' : World} {x : Side} {op : TCPConnection.Op} {finAt : Option Nat}
    {t : SenderTrace} (h : w.Flow x finAt t) (hs : w.step ⟨x.other, op⟩ = some w')
    (hok : w.FromNetwork ⟨x.other, op⟩) (hnext : t.sender.nextSeqnoAbsolute < 2 ^ 31) :
    w'.Flow x finAt t := by
  obtain ⟨hstep, -, -, hdel⟩ := step_self hs
  obtain ⟨hconn, hnet, hacc, -⟩ := step_other hs (y := x) x.other_ne.symm
  refine ⟨h.wire, ?_, ?_, h.queued, ?_, ?_⟩
  · rw [hconn]
    exact h.sender_eq
  · rw [hacc]
    exact h.written_eq
  · rw [hconn, hnet]
    exact h.genuine
  · rw [show w'.delivered x.other = _ from hdel]
    exact h.receives.step h.wire hnext (h.genuine_received hok)
      (TCPConnection.step_receiver hstep)

/-- Both directions, as long as the sequence numbers of a side are less than half a
    period apart. -/
theorem flow_run {endNode : Side → List ByteString → Nat} {cfg : Side → TCPConfig}
    {isn : Side → WrappingInt32} {es : List Event} {w : World}
    (hrun : Run (Guarded FromNetwork step) (new endNode cfg isn) es w)
    (hnext : ∀ x, (w.conn x).sender.nextSeqnoAbsolute < 2 ^ 31) (x : Side) :
    ∃ finAt t, w.Flow x finAt t := by
  revert hnext
  refine hrun.invariant (I := fun w =>
    (∀ x, (w.conn x).sender.nextSeqnoAbsolute < 2 ^ 31) → ∃ finAt t, w.Flow x finAt t)
    (fun _ => ⟨_, _, flow_new endNode cfg isn x⟩) ?_
  rintro w ⟨y, op⟩ w' hI ⟨hok, hs⟩ hnext
  have hbound : ∀ x, (w.conn x).sender.nextSeqnoAbsolute < 2 ^ 31 := fun x =>
    Nat.lt_of_le_of_lt (step_nextSeqnoAbsolute_le hs x) (hnext x)
  obtain ⟨finAt, t, h⟩ := hI hbound
  rcases Side.eq_or_eq_other x y with rfl | rfl
  · obtain ⟨t', ht'⟩ := TCPConnection.step_tracks (step_self hs).1 h.sender_eq h.queued
    obtain ⟨finAt', hw'⟩ := (continues_facts ht'.continues).2.2.2 finAt h.wire
    exact ⟨finAt', t', h.send hs ht' hw'⟩
  · refine ⟨finAt, t, h.receive hs hok ?_⟩
    rw [h.sender_eq]
    exact hbound x

-- ============================================================================
-- Safety
-- ============================================================================

/-- What was received is a prefix of what was written. -/
theorem Flow.isPrefix {w : World} {x : Side} {finAt : Option Nat} {t : SenderTrace}
    (h : w.Flow x finAt t) :
    w.delivered x.other ++ (w.conn x.other).inboundStream.buffer <+: w.accepted x := by
  have hcontent := h.receives.content
  have hlen : (w.delivered x.other ++ (w.conn x.other).inboundStream.buffer).length =
      (w.conn x.other).receiver.reassembler.index := hcontent.length_eq
  rcases Nat.eq_zero_or_pos t.sender.nextSeqnoAbsolute with h0 | hpos
  · have hidx := h.receives.index_le h.wire
    have hnil : w.delivered x.other ++ (w.conn x.other).inboundStream.buffer = [] :=
      List.length_eq_zero_iff.mp (by omega)
    rw [hnil]
    exact List.nil_prefix
  · have hwire := h.wire.wire_eq hpos
    have hpre := (prefix_of_dataAt h.wire.finAt_le_length fun j hj => by
      rw [← hwire]
      exact hcontent.written j (hcontent.length_eq ▸ hj)).1
    rw [← h.written_eq]
    exact hpre.trans (List.take_prefix ..)

/-- **Prefix safety.**  Whatever the network and the applications do, the bytes that
    an application has read followed by those it can read are a prefix of the bytes
    that the other side accepted. -/
theorem prefix_safety (endNode : Side → List ByteString → Nat) (cfg : Side → TCPConfig)
    (isn : Side → WrappingInt32) {es : List Event} {w : World}
    (hrun : Run (Guarded FromNetwork step) (new endNode cfg isn) es w)
    (hnext : ∀ x, (w.conn x).sender.nextSeqnoAbsolute < 2 ^ 31) (x : Side) :
    w.delivered x ++ (w.conn x).inboundStream.buffer <+: w.accepted x.other := by
  obtain ⟨finAt, t, h⟩ := flow_run hrun hnext x.other
  have hpre := h.isPrefix
  rwa [Side.other_other] at hpre

/-- Two endpoints with initial sequence numbers at the end and at the start of the
    range. -/
def pair : World :=
  new (fun _ => List.length)
    (fun
      | .a => { fixedIsn := some ⟨4294967295⟩ }
      | .b => { fixedIsn := some ⟨7⟩ })
    (fun _ => ⟨0⟩)

/-- Side `a` connects to side `b`. -/
def handshake : List Event :=
  [⟨.a, .connect⟩, ⟨.a, .dequeue⟩,
    ⟨.b, .segmentReceived { header := { seqno := ⟨4294967295⟩, syn := true } }⟩,
    ⟨.b, .dequeue⟩,
    ⟨.a, .segmentReceived
      { header := { seqno := ⟨7⟩, ackno := ⟨0⟩, win := 64000, syn := true, ack := true } }⟩,
    ⟨.a, .dequeue⟩]

/-- The segment that carries "ab" to side `b`. -/
def abSegment : TCPSegment :=
  { header := { seqno := ⟨0⟩, ackno := ⟨8⟩, win := 64000, ack := true }, payload := [97, 98] }

/-- Two bytes are sent and sent again; both copies arrive. -/
theorem prefix_safety_retransmitted :
    ∃ w, Run (Guarded FromNetwork step) pair
        (handshake ++ [⟨.a, .write [97, 98]⟩, ⟨.a, .dequeue⟩, ⟨.a, .tick 1000⟩, ⟨.a, .dequeue⟩,
          ⟨.b, .segmentReceived abSegment⟩, ⟨.b, .read 1⟩, ⟨.b, .segmentReceived abSegment⟩]) w ∧
      w.delivered .b ++ (w.conn .b).inboundStream.buffer = [97, 98] ∧
      w.delivered .b ++ (w.conn .b).inboundStream.buffer <+: w.accepted .a := by
  have hrun := Run.of_exec FromNetwork step pair
    (handshake ++ [⟨.a, .write [97, 98]⟩, ⟨.a, .dequeue⟩, ⟨.a, .tick 1000⟩, ⟨.a, .dequeue⟩,
      ⟨.b, .segmentReceived abSegment⟩, ⟨.b, .read 1⟩, ⟨.b, .segmentReceived abSegment⟩])
    (by decide)
  refine ⟨_, hrun, by decide, ?_⟩
  exact prefix_safety _ _ _ hrun (fun x => by cases x <;> decide) .b

end World

end Sponge
