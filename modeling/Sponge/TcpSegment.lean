/-
  Sponge.TcpSegment

  TCP headers and segments as the endpoints see them (`tcp_header.hh`,
  `tcp_segment.hh`, `tcp_segment.cc`), the configuration constants
  (`tcp_config.hh`), and the sequence space a segment occupies.

  A segment's `cells` are the items it puts on the sequence space: its SYN, its
  payload bytes, its FIN.  They are what the correctness of the sender and of
  the receiver is stated with; their number is `length_in_sequence_space()`.
-/

import Sponge.WrappingIntegers

namespace Sponge

/-- `TCPHeader` -/
structure TCPHeader where
  sport : UInt16 := 0
  dport : UInt16 := 0
  seqno : WrappingInt32 := ⟨0⟩
  ackno : WrappingInt32 := ⟨0⟩
  doff : UInt8 := 5
  urg : Bool := false
  ack : Bool := false
  psh : Bool := false
  rst : Bool := false
  syn : Bool := false
  fin : Bool := false
  win : UInt16 := 0
  cksum : UInt16 := 0
  uptr : UInt16 := 0
deriving DecidableEq, Repr

/-- `TCPSegment`; the payload `Buffer` is the bytes it exposes. -/
structure TCPSegment where
  header : TCPHeader := {}
  payload : List UInt8 := []
deriving DecidableEq, Repr

namespace TCPConfig

def maxPayloadSize : Nat := 1452

def maxRetxAttempts : Nat := 8

end TCPConfig

/-- `TCPConfig`; `fixedIsn` is unset when the sender is to draw a random one. -/
structure TCPConfig where
  rtTimeout : UInt16 := 1000
  recvCapacity : UInt64 := 64000
  sendCapacity : UInt64 := 64000
  fixedIsn : Option WrappingInt32 := none

-- ============================================================================
-- Sequence space
-- ============================================================================

/-- One item of the sequence space. -/
inductive Cell
  | syn
  | byte (b : UInt8)
  | fin
deriving DecidableEq, Repr

namespace TCPSegment

/-- `length_in_sequence_space()` -/
def lengthInSequenceSpace (seg : TCPSegment) : Nat :=
  seg.payload.length + (if seg.header.syn then 1 else 0) + (if seg.header.fin then 1 else 0)

/-- The items the segment occupies, in order. -/
def cells (seg : TCPSegment) : List Cell :=
  (if seg.header.syn then [.syn] else []) ++ seg.payload.map .byte ++
    (if seg.header.fin then [.fin] else [])

@[simp] theorem cells_length (seg : TCPSegment) :
    seg.cells.length = seg.lengthInSequenceSpace := by
  simp only [cells, lengthInSequenceSpace, List.length_append, List.length_map]
  split <;> split <;> simp <;> omega

/-- What a segment without SYN puts on the sequence space. -/
theorem cells_of_not_syn {seg : TCPSegment} (h : seg.header.syn = false) :
    seg.cells = seg.payload.map .byte ++ (if seg.header.fin then [.fin] else []) := by
  simp [cells, h]

theorem length_of_not_syn {seg : TCPSegment} (h : seg.header.syn = false) :
    seg.lengthInSequenceSpace = seg.payload.length + (if seg.header.fin then 1 else 0) := by
  simp [lengthInSequenceSpace, h]

/-- A segment without length carries neither bytes nor flags. -/
theorem lengthInSequenceSpace_eq_zero {seg : TCPSegment} :
    seg.lengthInSequenceSpace = 0 ↔
      seg.payload = [] ∧ seg.header.syn = false ∧ seg.header.fin = false := by
  unfold lengthInSequenceSpace
  cases hs : seg.header.syn <;> cases hf : seg.header.fin <;> simp

/-- The length depends on the flags and the payload only. -/
theorem lengthInSequenceSpace_congr {seg seg' : TCPSegment}
    (hsyn : seg.header.syn = seg'.header.syn) (hfin : seg.header.fin = seg'.header.fin)
    (hpay : seg.payload = seg'.payload) :
    seg.lengthInSequenceSpace = seg'.lengthInSequenceSpace := by
  simp only [lengthInSequenceSpace, hsyn, hfin, hpay]

end TCPSegment

/-- The sequence space of a stream: SYN, the bytes, and the FIN once it is sent. -/
def encode (bytes : List UInt8) (finSent : Bool) : List Cell :=
  .syn :: (bytes.map .byte ++ if finSent then [.fin] else [])

theorem syn_mem_encode (bytes : List UInt8) (finSent : Bool) : .syn ∈ encode bytes finSent :=
  List.mem_cons_self ..

@[simp] theorem fin_mem_encode (bytes : List UInt8) (finSent : Bool) :
    .fin ∈ encode bytes finSent ↔ finSent = true := by
  cases finSent <;> simp [encode]

theorem encode_length (bytes : List UInt8) (finSent : Bool) :
    (encode bytes finSent).length = 1 + bytes.length + (if finSent then 1 else 0) := by
  cases finSent <;> simp [encode] <;> omega

/-- The sequence space that a list of segments occupies. -/
def wire (segs : List TCPSegment) : List Cell := segs.flatMap (·.cells)

@[simp] theorem wire_nil : wire [] = [] := rfl

@[simp] theorem wire_append (segs segs' : List TCPSegment) :
    wire (segs ++ segs') = wire segs ++ wire segs' := List.flatMap_append

@[simp] theorem wire_singleton (seg : TCPSegment) : wire [seg] = seg.cells := by simp [wire]

/-- The segments occupy the absolute positions from `a` up to `b` in order, without
    a gap or an overlap, and carry the sequence numbers that go with them. -/
def Tiles (isn : WrappingInt32) : Nat → List TCPSegment → Nat → Prop
  | a, [], b => a = b
  | a, seg :: segs, b =>
      seg.header.seqno = wrap a isn ∧ Tiles isn (a + seg.lengthInSequenceSpace) segs b

namespace Tiles

variable {isn : WrappingInt32}

theorem append {a b c : Nat} {segs segs' : List TCPSegment} (h : Tiles isn a segs b)
    (h' : Tiles isn b segs' c) : Tiles isn a (segs ++ segs') c := by
  induction segs generalizing a with
  | nil =>
      obtain rfl : a = b := h
      exact h'
  | cons seg segs ih => exact ⟨h.1, ih h.2⟩

theorem of_append {a c : Nat} {segs segs' : List TCPSegment} (h : Tiles isn a (segs ++ segs') c) :
    ∃ b, Tiles isn a segs b ∧ Tiles isn b segs' c := by
  induction segs generalizing a with
  | nil => exact ⟨a, rfl, h⟩
  | cons seg segs ih =>
      obtain ⟨b, hb, hb'⟩ := ih h.2
      exact ⟨b, ⟨h.1, hb⟩, hb'⟩

theorem wire_length {a b : Nat} {segs : List TCPSegment} (h : Tiles isn a segs b) :
    a + (wire segs).length = b := by
  induction segs generalizing a with
  | nil => exact h
  | cons seg segs ih =>
      have := ih h.2
      simp only [wire, List.flatMap_cons, List.length_append, TCPSegment.cells_length] at this ⊢
      omega

theorem singleton {seg : TCPSegment} {a : Nat} (h : seg.header.seqno = wrap a isn) :
    Tiles isn a [seg] (a + seg.lengthInSequenceSpace) := ⟨h, rfl⟩

/-- Every position in between belongs to one of the segments. -/
theorem exists_cover {a b : Nat} {segs : List TCPSegment} (h : Tiles isn a segs b) {p : Nat}
    (hap : a ≤ p) (hpb : p < b) :
    ∃ seg ∈ segs, ∃ x, seg.header.seqno = wrap x isn ∧ x ≤ p ∧
      p < x + seg.lengthInSequenceSpace := by
  induction segs generalizing a with
  | nil =>
      obtain rfl : a = b := h
      omega
  | cons seg segs ih =>
      by_cases hp : p < a + seg.lengthInSequenceSpace
      · exact ⟨seg, List.mem_cons_self .., a, h.1, hap, hp⟩
      · obtain ⟨seg', hmem, hseg'⟩ := ih h.2 (by omega)
        exact ⟨seg', List.mem_cons_of_mem _ hmem, hseg'⟩

/-- Each of the segments has a place in the sequence space they occupy together. -/
theorem of_mem {a b : Nat} {segs : List TCPSegment} (h : Tiles isn a segs b) {seg : TCPSegment}
    (hseg : seg ∈ segs) :
    ∃ x, a ≤ x ∧ x + seg.lengthInSequenceSpace ≤ b ∧ seg.header.seqno = wrap x isn ∧
      seg.cells = ((wire segs).drop (x - a)).take seg.lengthInSequenceSpace := by
  obtain ⟨before, behind, rfl⟩ := List.append_of_mem hseg
  obtain ⟨x, hx, hseqno, hrest⟩ := h.of_append
  have hlen := hx.wire_length
  have hlen' := hrest.wire_length
  refine ⟨x, by omega, by omega, hseqno, ?_⟩
  have hdrop : x - a = (wire before).length := by omega
  rw [wire_append, hdrop, List.drop_left]
  show seg.cells = (seg.cells ++ wire behind).take _
  rw [← seg.cells_length, List.take_left]

end Tiles

end Sponge
