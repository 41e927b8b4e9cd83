/-
  Sponge.StreamReassembler.Basic

  The stream reassembler (`stream_reassembler.hh`, `stream_reassembler.cc`) as
  functions on its state.

  Stream indices are naturals.  Two `size_t` expressions leave the range of
  `size_t` on inputs a caller can give, and are taken modulo `2^64`: the sum
  `last_index` of `push_substring`, whose index is the caller's (`lastIndex`), and
  the difference `right_bound` (`sizeSub`).  The other sums are of what the object
  holds: the output reserves its capacity, which fails above `2^63 - 1`, so a window
  ends below `2^64` for the first `2^63` bytes of a stream.

  `set_eof` prunes the pending list through reverse iterators that start at
  `rend()`.  Reading `iter->index` there dereferences the list's end node, whose
  contents C++ does not specify; the field `endNode` stands for whatever word is
  found (the size of the list in libstdc++), so results below hold for all of
  them.  `erase(++iter.base())` removes the element after the first one; when
  there is none it erases `end()`, and the model gives up with `none`.
-/

import Mathlib.Algebra.Ring.Nat
import Sponge.ByteStream
import Sponge.Lib.Run

namespace Sponge

/-- Subtraction of `size_t` values. -/
def sizeSub (a b : Nat) : Nat := (a + (2 ^ 64 - b % 2 ^ 64)) % 2 ^ 64

/-- `StreamReassembler::ByteString` -/
structure ByteString where
  index : Nat
  str : List UInt8
deriving DecidableEq, Repr

/-- `StreamReassembler` -/
structure StreamReassembler where
  /-- `_output`, read through `stream_out()` -/
  output : ByteStream
  capacity : UInt64
  index : Nat
  eof : Nat
  eofSet : Bool
  /-- `_unassembled_bytes` -/
  unassembled : List ByteString
  /-- the `index` word that the list's end node seems to hold -/
  endNode : List ByteString → Nat
  sized : output.capacity = capacity.toNat

namespace StreamReassembler

/-- `StreamReassembler(capacity)`; `_eof` starts at `MAX_EOF`. -/
def new (endNode : List ByteString → Nat) (capacity : UInt64) : StreamReassembler where
  output := .new capacity.toNat
  capacity := capacity
  index := 0
  eof := 2 ^ 64 - 1
  eofSet := false
  unassembled := []
  endNode := endNode
  sized := rfl

/-- `coalesce(a, b, res)`: the value left in `res`, when it returns true. -/
def coalesce (a b : ByteString) : Option ByteString :=
  let aIndexRight := a.index + a.str.length
  let bIndexRight := b.index + b.str.length
  -- a is superset of b
  if a.index ≤ b.index ∧ aIndexRight ≥ bIndexRight then some a
  -- b is superset of a
  else if b.index ≤ a.index ∧ bIndexRight ≥ aIndexRight then some b
  -- a is left of b
  else if a.index < b.index ∧ aIndexRight ≥ b.index then
    some ⟨a.index, a.str ++ b.str.drop (aIndexRight - b.index)⟩
  -- b is left of a
  else if b.index < a.index ∧ bIndexRight ≥ a.index then
    some ⟨b.index, b.str ++ a.str.drop (bIndexRight - a.index)⟩
  else none

/-- The pruning loop of `set_eof` on the list `b :: bs`: `iter` stays at
    `rend()`, so each round reads the end node and erases the second element. -/
def pruneLoop (endNode : List ByteString → Nat) (eof : Nat) (b : ByteString) :
    List ByteString → Option (List ByteString)
  | [] => if endNode [b] ≥ eof then none else some [b]
  | c :: bs =>
      if endNode (b :: c :: bs) ≥ eof then pruneLoop endNode eof b bs else some (b :: c :: bs)

/-- The list left by the pruning loop; on an empty list it does not run. -/
def prune (endNode : List ByteString → Nat) (eof : Nat) :
    List ByteString → Option (List ByteString)
  | [] => some []
  | b :: bs => pruneLoop endNode eof b bs

/-- `set_eof(eof)` -/
def setEof (r : StreamReassembler) (eof : Nat) : Option StreamReassembler :=
  let output := if eof ≤ r.index + 1 then r.output.endInput else r.output
  (prune r.endNode eof r.unassembled).map fun l =>
    { r with
      eof := eof
      eofSet := true
      output := output
      unassembled := l
      sized := by
        rw [← r.sized]
        show (if eof ≤ r.index + 1 then r.output.endInput else r.output).capacity = _
        split <;> rfl }

/-- `write_to_output(b)` -/
def writeToOutput (r : StreamReassembler) (b : ByteString) : StreamReassembler :=
  let written := r.output.write b.str
  let index := r.index + written.1
  { r with
    index := index
    output := if index = r.eof ∧ r.eofSet then written.2.endInput else written.2
    sized := by
      rw [← r.sized]
      split <;> rfl }

/-- `flush_to_output()` -/
def flushToOutput (r : StreamReassembler) : StreamReassembler :=
  match r.unassembled with
  | [] => r
  | b :: rest =>
      if b.index = r.index then { r.writeToOutput b with unassembled := rest } else r

/-- The inner loop of `push_unassembled_bytes`: `res` swallows its successors
    for as long as they coalesce, and takes their place. -/
def mergeNext (res : ByteString) : List ByteString → List ByteString
  | [] => [res]
  | next :: rest =>
      match coalesce res next with
      | some res' => mergeNext res' rest
      | none => res :: next :: rest

/-- The outer loop of `push_unassembled_bytes`. -/
def insertSorted (b : ByteString) : List ByteString → List ByteString
  | [] => [b]
  | iter :: rest =>
      if b.index + b.str.length < iter.index then b :: iter :: rest
      else
        match coalesce b iter with
        | some res => mergeNext res rest
        | none => iter :: insertSorted b rest

/-- `right_bound` of `push_unassembled_bytes`. -/
def rightBound (r : StreamReassembler) (bIndex : Nat) : Nat :=
  sizeSub (r.index + r.capacity.toNat - r.output.bufferSize) bIndex

/-- `b` as it is inserted: cut on the left at `_index`, on the right at the
    bound; `none` when there are no new indices. -/
def trim (r : StreamReassembler) (data : List UInt8) (index : Nat) : Option ByteString :=
  if index < r.index then
    let beginIndex := r.index - index
    if beginIndex < data.length then
      some ⟨index + beginIndex, (data.drop beginIndex).take (r.rightBound (index + beginIndex))⟩
    else none
  else some ⟨index, data.take (r.rightBound index)⟩

/-- `push_unassembled_bytes(data, index)` -/
def pushUnassembledBytes (r : StreamReassembler) (data : List UInt8) (index : Nat) :
    StreamReassembler :=
  match r.trim data index with
  | none => r
  | some b => { r with unassembled := insertSorted b r.unassembled }

/-- `last_index` of `push_substring`, a sum of `size_t` values. -/
def lastIndex (data : List UInt8) (index : Nat) : Nat := (index + data.length) % 2 ^ 64

/-- `push_substring(data, index, eof)` after the `eof` flag was dealt with. -/
def pushData (r : StreamReassembler) (data : List UInt8) (index : Nat) : StreamReassembler :=
  -- entirely outside of the window, or empty
  if lastIndex data index ≤ r.index ∨ index > r.index + r.capacity.toNat ∨ data.length = 0 then r
  else (r.pushUnassembledBytes data index).flushToOutput

/-- `push_substring(data, index, eof)` -/
def pushSubstring (r : StreamReassembler) (data : List UInt8) (index : Nat) (eof : Bool) :
    Option StreamReassembler :=
  if eof then (r.setEof (lastIndex data index)).map (·.pushData data index)
  else some (r.pushData data index)

/-- `unassembled_bytes()` -/
def unassembledBytes (r : StreamReassembler) : Nat := (r.unassembled.map (·.str.length)).sum

/-- `empty()` -/
def empty (r : StreamReassembler) : Bool := r.unassembled.isEmpty

/-- `stream_out().read(len)` -/
def read (r : StreamReassembler) (len : Nat) : StreamReassembler :=
  { r with output := (r.output.read len).2, sized := r.sized }

/-- `stream_out().pop_output(len)` -/
def popOutput (r : StreamReassembler) (len : Nat) : StreamReassembler :=
  { r with output := r.output.popOutput len, sized := r.sized }

/-- `stream_out().set_error()` -/
def setError (r : StreamReassembler) : StreamReassembler :=
  { r with output := r.output.setError, sized := r.sized }

/-- What can be done to a reassembler: push a substring, read its output. -/
inductive Op
  | push (data : List UInt8) (index : Nat) (eof : Bool)
  | read (len : Nat)

/-- One operation. -/
def step (r : StreamReassembler) : Op → Option StreamReassembler
  | .push data index eof => r.pushSubstring data index eof
  | .read len => some (r.read len)

end StreamReassembler

end Sponge
