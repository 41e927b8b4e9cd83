/-
  Sponge.FdAdapter.Basic

  What `TCPSpongeSocket` asks of the adapter it is given, its `AdaptT` (`fd_adapter.hh`),
  and the adapter that drops segments at random (`lossy_fd_adapter.hh`).

  `FdAdapter` has the operations that the socket calls.  An adapter is `Faithful` if it
  invents nothing: a segment that it returns is the one in the packet it has read, and a
  packet that it puts on its medium carries no segment or one that it was given to send,
  apart from the ports and the checksum (`Agrees`), which are for the adapter to fill in.
-/

import Mathlib.Data.List.Basic
import Sponge.TcpOverIp
import Sponge.Util.FileDescriptor

namespace Sponge

open Lib (Ends onPart)

namespace TCPSegment

/-- The segments agree in all that a connection looks at. -/
structure Agrees (seg seg' : TCPSegment) : Prop where
  seqno : seg.header.seqno = seg'.header.seqno
  ackno : seg.header.ackno = seg'.header.ackno
  ack : seg.header.ack = seg'.header.ack
  rst : seg.header.rst = seg'.header.rst
  syn : seg.header.syn = seg'.header.syn
  fin : seg.header.fin = seg'.header.fin
  win : seg.header.win = seg'.header.win
  payload : seg.payload = seg'.payload

/-- What a connection sends has a header without options and fits in a packet. -/
structure Plain (seg : TCPSegment) : Prop where
  doff_eq : seg.header.doff = 5
  payload_le : seg.payload.length ≤ TCPConfig.maxPayloadSize

theorem Plain.encodable {seg : TCPSegment} (h : seg.Plain) : seg.Encodable := by
  have hdoff : seg.header.doff.toNat = 5 := by
    rw [h.doff_eq]
    rfl
  have hpayload : seg.payload.length ≤ 1452 := h.payload_le
  exact ⟨by omega, by omega, by omega⟩

end TCPSegment

/-- What the adapters throw: errors of system calls, and complaints about packets that are
    too large. -/
inductive OfMedium : Thrown → Prop
  | kernel {e : Thrown} : FileDescriptor.OfKernel e → OfMedium e
  | oversized : OfMedium (.runtimeError "recvfrom (oversized datagram)")
  | tooBig : OfMedium (.runtimeError "datagram payload too big for sendmsg()")

-- ============================================================================
-- Adapters
-- ============================================================================

/-- The `AdaptT` of a `TCPSpongeSocket`. -/
class FdAdapter (α : Type) where
  /-- the conversion to `const FileDescriptor &` -/
  fd : α → FDWrapper
  /-- `config()` -/
  config : α → FdAdapterConfig
  /-- an assignment to `config_mut()` -/
  setConfig : FdAdapterConfig → α → α
  /-- `set_listening(l)` -/
  setListening : Bool → α → α
  /-- `read()` -/
  read : EStateM Thrown α (Option TCPSegment)
  /-- `write(seg)` -/
  write : TCPSegment → EStateM Thrown α Unit
  /-- `tick(ms_since_last_tick)` -/
  tick : Nat → EStateM Thrown α Unit

/-- An adapter and what passes between it and its medium. -/
class Medium (α : Type) extends FdAdapter α where
  /-- the packets read so far -/
  taken : α → List Buffer
  /-- the packets written so far -/
  put : α → List Buffer
  /-- the segment in a packet -/
  decode : Buffer → Option TCPSegment

export Medium (taken put decode)

/-- The packets carry nothing but the segments. -/
def Carried (decode : Buffer → Option TCPSegment) (segs : List TCPSegment)
    (packets : List Buffer) : Prop :=
  ∀ packet ∈ packets, ∀ seg, decode packet = some seg → ∃ sent ∈ segs, seg.Agrees sent

namespace Carried

variable {decode : Buffer → Option TCPSegment} {segs segs' : List TCPSegment}
  {packets packets' : List Buffer}

theorem nil : Carried decode segs [] := fun _ h => absurd h List.not_mem_nil

theorem mono (h : Carried decode segs packets) (hsegs : segs ⊆ segs') :
    Carried decode segs' packets := by
  intro packet hpacket seg hseg
  obtain ⟨sent, hsent, hagrees⟩ := h packet hpacket seg hseg
  exact ⟨sent, hsegs hsent, hagrees⟩

theorem append (h : Carried decode segs packets) (h' : Carried decode segs packets') :
    Carried decode segs (packets ++ packets') := by
  intro packet hpacket
  rcases List.mem_append.mp hpacket with hpacket | hpacket
  · exact h packet hpacket
  · exact h' packet hpacket

theorem singleton {packet : Buffer}
    (h : ∀ seg, decode packet = some seg → ∃ sent ∈ segs, seg.Agrees sent) :
    Carried decode segs [packet] := by
  intro packet' hpacket'
  obtain rfl := List.mem_singleton.mp hpacket'
  exact h

end Carried

/-- A call of `read` has returned what is in the packet that it has taken. -/
structure DidTake {α : Type} [Medium α] (a : α) (result : Option TCPSegment) (a' : α) : Prop where
  taken : ∃ packet, taken a' = taken a ++ [packet] ∧
    ∀ seg, result = some seg → decode α packet = some seg
  counted : (FdAdapter.fd a).readCount ≠ (FdAdapter.fd a').readCount

/-- An adapter that invents nothing, whatever its medium does. -/
class Faithful (α : Type) extends Medium α where
  /-- The adapter was given nothing but the segments to send. -/
  Sends : List TCPSegment → α → Prop
  sends_mono : ∀ {segs segs' a}, Sends segs a → segs ⊆ segs' → Sends segs' a
  carried : ∀ {segs a}, Sends segs a → Carried decode segs (put a)
  setConfig_sends : ∀ {segs a} config, Sends segs a → Sends segs (FdAdapter.setConfig config a)
  setConfig_taken : ∀ config (a : α), taken (FdAdapter.setConfig config a) = taken a
  setListening_sends : ∀ {segs a} l, Sends segs a → Sends segs (FdAdapter.setListening l a)
  setListening_taken : ∀ l (a : α), taken (FdAdapter.setListening l a) = taken a
  read_ends : ∀ {segs a}, Sends segs a →
    Ends (FdAdapter.read (α := α)) a (fun result a' => Sends segs a' ∧ DidTake a result a')
      (fun e a' => OfMedium e ∧ Sends segs a' ∧ taken a <+: taken a')
  write_ends : ∀ {segs a} {seg : TCPSegment}, seg.Plain → Sends segs a →
    Ends (FdAdapter.write (α := α) seg) a
      (fun _ a' => Sends (segs ++ [seg]) a' ∧ taken a' = taken a)
      (fun e a' => OfMedium e ∧ Sends (segs ++ [seg]) a' ∧ taken a' = taken a)
  tick_ends : ∀ {segs a} ms, Sends segs a →
    Ends (FdAdapter.tick (α := α) ms) a (fun _ a' => Sends segs a' ∧ taken a' = taken a)
      (fun e a' => OfMedium e ∧ Sends segs a' ∧ taken a' = taken a)

-- ============================================================================
-- Packets that go out whole
-- ============================================================================

/-- The kernel takes what is written to it as a whole or not at all, as packet devices do. -/
def Whole (writes : Stream' (Nat → Except Nat Nat)) : Prop :=
  ∀ i size n, writes.get i size = .ok n → n = size

theorem Whole.tail {writes : Stream' (Nat → Except Nat Nat)} (h : Whole writes) :
    Whole writes.tail := fun i => h (i + 1)

theorem Whole.head {writes : Stream' (Nat → Except Nat Nat)} (h : Whole writes) {size n : Nat}
    (hn : writes.head size = .ok n) : n = size := h 0 size n hn

-- ============================================================================
-- Losing segments
-- ============================================================================

/-- `LossyFdAdapter<AdapterT>`; `rand` is what its random number generator is going to give. -/
structure LossyFdAdapter (α : Type) where
  adapter : α
  rand : Stream' UInt32

namespace LossyFdAdapter

variable {α : Type}

/-- `_should_drop(uplink)`; the generator is asked only if there is a loss rate. -/
def shouldDrop [FdAdapter α] (uplink : Bool) : EStateM Thrown (LossyFdAdapter α) Bool := do
  let l ← get
  let cfg := FdAdapter.config l.adapter
  let loss := if uplink then cfg.lossRateUp else cfg.lossRateDn
  if loss = 0 then pure false
  else do
    modify fun l => { l with rand := l.rand.tail }
    pure (decide (l.rand.head.toUInt16 < loss))

/-- What is passed through to the underlying adapter. -/
def through {β : Type} (p : EStateM Thrown α β) : EStateM Thrown (LossyFdAdapter α) β :=
  onPart adapter (fun l a => { l with adapter := a }) p

/-- `read()` -/
def read [FdAdapter α] : EStateM Thrown (LossyFdAdapter α) (Option TCPSegment) := do
  let ret ← through FdAdapter.read
  let drop ← shouldDrop false
  if drop then pure none else pure ret

/-- `write(seg)` -/
def write [FdAdapter α] (seg : TCPSegment) : EStateM Thrown (LossyFdAdapter α) Unit := do
  let drop ← shouldDrop true
  if drop then pure () else through (FdAdapter.write seg)

instance [FdAdapter α] : FdAdapter (LossyFdAdapter α) where
  fd l := FdAdapter.fd l.adapter
  config l := FdAdapter.config l.adapter
  setConfig config l := { l with adapter := FdAdapter.setConfig config l.adapter }
  setListening listening l := { l with adapter := FdAdapter.setListening listening l.adapter }
  read := read
  write := write
  tick ms := through (FdAdapter.tick ms)

instance [Medium α] : Medium (LossyFdAdapter α) where
  taken l := taken l.adapter
  put l := put l.adapter
  decode := decode α

/-- Whether or not to drop is decided without touching the adapter. -/
theorem shouldDrop_ends [FdAdapter α] (uplink : Bool) (l : LossyFdAdapter α)
    {E : Thrown → LossyFdAdapter α → Prop} :
    Ends (shouldDrop uplink) l (fun _ l' => l'.adapter = l.adapter) E := by
  unfold shouldDrop
  simp only [Lib.ends_bind, Lib.ends_get, Lib.ends_modify, Lib.ends_ite, Lib.ends_pure]
  exact ⟨fun _ => trivial, fun _ => trivial⟩

/-- Losing segments is not inventing any. -/
instance [Faithful α] : Faithful (LossyFdAdapter α) where
  Sends segs l := Faithful.Sends segs l.adapter
  sends_mono := Faithful.sends_mono
  carried := Faithful.carried (α := α)
  setConfig_sends config h := Faithful.setConfig_sends config h
  setConfig_taken config l := Faithful.setConfig_taken config l.adapter
  setListening_sends listening h := Faithful.setListening_sends listening h
  setListening_taken listening l := Faithful.setListening_taken listening l.adapter
  read_ends := by
    intro segs l h
    show Ends (read (α := α)) l _ _
    unfold read through
    simp only [Lib.ends_bind, Lib.ends_onPart]
    refine (Faithful.read_ends h).mono ?_ fun _ _ he => he
    rintro result a' ⟨hsends, htake⟩
    refine (shouldDrop_ends false { l with adapter := a' }).mono ?_ fun _ _ he => he
    rintro drop l' (hl' : l'.adapter = a')
    subst hl'
    obtain ⟨packet, htaken, hresult⟩ := htake.taken
    simp only [Lib.ends_ite, Lib.ends_pure]
    refine ⟨fun _ => ⟨hsends, ⟨packet, htaken, by simp⟩, htake.counted⟩, fun _ => ⟨hsends, ?_⟩⟩
    exact ⟨⟨packet, htaken, hresult⟩, htake.counted⟩
  write_ends := by
    intro segs l seg hseg h
    show Ends (write (α := α) seg) l _ _
    unfold write through
    rw [Lib.ends_bind]
    refine (shouldDrop_ends true l).mono ?_ fun _ _ he => he
    rintro drop l' hl'
    simp only [Lib.ends_ite, Lib.ends_pure, Lib.ends_onPart]
    refine ⟨fun _ => ⟨?_, congrArg (taken (α := α)) hl'⟩, fun _ => ?_⟩
    · show Faithful.Sends _ l'.adapter
      rw [hl']
      exact Faithful.sends_mono h (List.subset_append_left ..)
    · rw [hl']
      exact Faithful.write_ends hseg h
  tick_ends := by
    intro segs l ms h
    show Ends (through (FdAdapter.tick ms)) l _ _
    unfold through
    rw [Lib.ends_onPart]
    exact Faithful.tick_ends ms h

end LossyFdAdapter

end Sponge
