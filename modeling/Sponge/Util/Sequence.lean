/-
  Sponge.Util.Sequence

  Sequences of packet fields, read from a buffer as it is stored.

  A `SharedBuffer` is a string that other buffers may share, and the offset from which on
  this one exposes it; the string is let go once nothing of it is left.  The parser over
  it reads numbers in the width of their type, byte by byte through `at()`, and both
  `at()` and `remove_prefix()` can throw.  They never do: every read comes to what the
  reader of `Sponge.Util.Parser` does with the bytes that are exposed
  (`Request.perform_refines`), so what is proved of that reader anywhere else holds of the
  stored buffer too.

  What was written field by field is read back field by field, and the first request that
  asks for more than is left ends all reading (`fieldCodec`).
-/

import Sponge.Util.Parser

namespace Sponge

open Lib.BigEndian

/-- `Buffer`, with the string it shares (`_storage`) and `_starting_offset`. -/
structure SharedBuffer where
  storage : Option (List UInt8)
  startingOffset : Nat
  /-- The difference in `str()` is an exact subtraction. -/
  offset_le : ∀ s ∈ storage, startingOffset ≤ s.length

namespace SharedBuffer

/-- `Buffer(str)` -/
def ofString (str : List UInt8) : SharedBuffer where
  storage := some str
  startingOffset := 0
  offset_le := fun _ _ => Nat.zero_le _

/-- `str()` -/
def str (b : SharedBuffer) : Buffer :=
  match b.storage with
  | none => []
  | some s => s.drop b.startingOffset

/-- `at(n)` -/
def charAt (b : SharedBuffer) (n : Nat) : Except Exn UInt8 :=
  match b.str[n]? with
  | some byte => .ok byte
  | none => .error (.outOfRange "basic_string_view::at")

theorem str_of_none {b : SharedBuffer} (h : b.storage = none) : b.str = [] := by
  rw [str, h]

theorem str_of_some {b : SharedBuffer} {s : List UInt8} (h : b.storage = some s) :
    b.str = s.drop b.startingOffset := by
  rw [str, h]

theorem length_str {b : SharedBuffer} {s : List UInt8} (h : b.storage = some s) :
    b.startingOffset + b.str.length = s.length := by
  have hle := b.offset_le s h
  rw [str_of_some h, List.length_drop]
  omega

/-- `remove_prefix(n)` -/
def removePrefix (b : SharedBuffer) (n : Nat) : Except Exn SharedBuffer :=
  if h : n > b.str.length then .error (.outOfRange "Buffer::remove_prefix")
  else .ok
    { -- the string is let go when it is exhausted
      storage := b.storage.filter fun s => b.startingOffset + n ≠ s.length
      startingOffset := b.startingOffset + n
      offset_le := by
        intro s hs
        have hlen := length_str (Option.filter_eq_some_iff.mp hs).1
        omega }

/-- Removing a prefix that is there does not throw, and the rest is exposed. -/
theorem removePrefix_ok {b : SharedBuffer} {n : Nat} (h : n ≤ b.str.length) :
    ∃ b', b.removePrefix n = .ok b' ∧ b'.str = b.str.drop n := by
  refine ⟨_, dif_neg (Nat.not_lt.mpr h), ?_⟩
  generalize hb : SharedBuffer.mk (b.storage.filter fun s => b.startingOffset + n ≠ s.length)
    (b.startingOffset + n) _ = b'
  have hstorage : b'.storage = b.storage.filter fun s => b.startingOffset + n ≠ s.length := by
    rw [← hb]
  have hoffset : b'.startingOffset = b.startingOffset + n := by rw [← hb]
  cases hs : b.storage with
  | none =>
      rw [hs, Option.filter_none] at hstorage
      rw [str_of_none hstorage, str_of_none hs, List.drop_nil]
  | some s =>
      have hlen := length_str hs
      by_cases hall : b.startingOffset + n = s.length
      · -- nothing is left, and nothing is exposed
        have hgone : b'.storage = none := by simp [hstorage, hs, hall]
        rw [str_of_none hgone, List.drop_of_length_le (by omega)]
      · have hkept : b'.storage = some s := by simp [hstorage, hs, hall]
        rw [str_of_some hkept, str_of_some hs, List.drop_drop, hoffset]

end SharedBuffer

/-- `NetParser` over a stored buffer. -/
structure SharedParser where
  buffer : SharedBuffer
  error : ParseResult := .noError

namespace SharedParser

/-- What the parser sees of its buffer. -/
def view (p : SharedParser) : NetParser := ⟨p.buffer.str, p.error⟩

/-- `_check_size(size)` -/
def checkSize (p : SharedParser) (size : Nat) : SharedParser :=
  if size > p.buffer.str.length then { p with error := .packetTooShort } else p

/-- The loop of `_parse_int<T>()`, where `T` has `len` bytes: shift and sum are cut to the
    width of `T`. -/
def parseLoop (buffer : SharedBuffer) (len n : Nat) : Except Exn Nat :=
  (List.range n).foldlM (fun ret i => do
    let byte ← buffer.charAt i
    return (ret * 256 % 256 ^ len + byte.toNat) % 256 ^ len) 0

/-- `_parse_int<T>()` -/
def parseInt (p : SharedParser) (len : Nat) : Except Exn (Nat × SharedParser) :=
  let p := p.checkSize len
  if p.error ≠ .noError then .ok (0, p)
  else do
    let ret ← parseLoop p.buffer len len
    let buffer ← p.buffer.removePrefix len
    return (ret, { p with buffer })

/-- `u8()` -/
def u8 (p : SharedParser) : Except Exn (UInt8 × SharedParser) := do
  let (ret, p) ← p.parseInt 1
  return (ret.toUInt8, p)

/-- `u16()` -/
def u16 (p : SharedParser) : Except Exn (UInt16 × SharedParser) := do
  let (ret, p) ← p.parseInt 2
  return (ret.toUInt16, p)

/-- `u32()` -/
def u32 (p : SharedParser) : Except Exn (UInt32 × SharedParser) := do
  let (ret, p) ← p.parseInt 4
  return (ret.toUInt32, p)

/-- `remove_prefix(n)` -/
def removePrefix (p : SharedParser) (n : Nat) : Except Exn SharedParser :=
  let p := p.checkSize n
  if p.error ≠ .noError then .ok p
  else do
    let buffer ← p.buffer.removePrefix n
    return { p with buffer }

-- ============================================================================
-- The stored buffer and the bytes it exposes
-- ============================================================================

theorem view_checkSize (p : SharedParser) (size : Nat) :
    (p.checkSize size).view = p.view.checkSize size := by
  by_cases hshort : size > p.buffer.str.length
  · rw [checkSize, if_pos hshort]
    exact (if_pos hshort).symm
  · rw [checkSize, if_neg hshort]
    exact (if_neg hshort).symm

/-- Without an error the bytes that were asked for are there. -/
theorem le_of_checkSize {p : SharedParser} {size : Nat} (h : (p.checkSize size).error = .noError) :
    size ≤ (p.checkSize size).buffer.str.length := by
  unfold checkSize at h ⊢
  split at h
  · cases h
  · rename_i hle
    rw [if_neg hle]
    exact Nat.not_lt.mp hle

/-- In its own width the loop computes the number that the bytes spell. -/
theorem parseLoop_eq (buffer : SharedBuffer) {len n : Nat} (hn : n ≤ len)
    (hlen : len ≤ buffer.str.length) :
    parseLoop buffer len n = .ok (ofBytes (buffer.str.take n)) := by
  induction n with
  | zero => rfl
  | succ n ih =>
      have hlt : n < buffer.str.length := by omega
      have hchar : buffer.charAt n = .ok buffer.str[n] := by
        simp only [SharedBuffer.charAt, List.getElem?_eq_getElem hlt]
      -- what was read so far has a byte less than the type
      have hsmall : ofBytes (buffer.str.take (n + 1)) < 256 ^ len := by
        refine Nat.lt_of_lt_of_le (ofBytes_lt _) (Nat.pow_le_pow_right (by decide) ?_)
        rw [List.length_take]
        omega
      have ih := ih (by omega)
      unfold parseLoop at ih ⊢
      rw [List.take_succ_eq_append_getElem hlt, ofBytes_snoc] at hsmall ⊢
      have hshift : ofBytes (buffer.str.take n) * 256 % 256 ^ len =
          ofBytes (buffer.str.take n) * 256 :=
        Nat.mod_eq_of_lt (Nat.lt_of_le_of_lt (Nat.le_add_right ..) hsmall)
      rw [List.range_succ, List.foldlM_append, ih]
      simp only [List.foldlM_cons, List.foldlM_nil, hchar]
      show Except.ok ((ofBytes (buffer.str.take n) * 256 % 256 ^ len + _) % 256 ^ len) = _
      rw [hshift, Nat.mod_eq_of_lt hsmall]

/-- Reading a number does not throw, and is the read of what is exposed. -/
theorem parseInt_refines (p : SharedParser) (len : Nat) :
    ∃ p', p.parseInt len = .ok ((p.view.parseInt len).1, p') ∧
      p'.view = (p.view.parseInt len).2 := by
  have hle : (p.checkSize len).error = .noError → _ := le_of_checkSize
  unfold parseInt NetParser.parseInt
  rw [← view_checkSize]
  generalize p.checkSize len = q at hle
  by_cases herror : q.error = .noError
  · obtain ⟨buffer, hremove, hstr⟩ := SharedBuffer.removePrefix_ok (hle herror)
    simp only [view, herror, ne_eq, not_true_eq_false, if_false,
      parseLoop_eq q.buffer (Nat.le_refl _) (hle herror), hremove]
    exact ⟨_, rfl, by rw [hstr]⟩
  · simp only [view, ne_eq, herror, not_false_eq_true, if_true]
    exact ⟨q, rfl, rfl⟩

/-- The same for the removal of a prefix. -/
theorem removePrefix_refines (p : SharedParser) (n : Nat) :
    ∃ p', p.removePrefix n = .ok p' ∧ p'.view = p.view.removePrefix n := by
  have hle : (p.checkSize n).error = .noError → _ := le_of_checkSize
  unfold removePrefix NetParser.removePrefix
  rw [← view_checkSize]
  generalize p.checkSize n = q at hle
  by_cases herror : q.error = .noError
  · obtain ⟨buffer, hremove, hstr⟩ := SharedBuffer.removePrefix_ok (hle herror)
    simp only [view, herror, ne_eq, not_true_eq_false, if_false, hremove]
    exact ⟨_, rfl, by rw [hstr]⟩
  · simp only [view, ne_eq, herror, not_false_eq_true, if_true]
    exact ⟨q, rfl, rfl⟩

end SharedParser

-- ============================================================================
-- Requests
-- ============================================================================

/-- A call of a parser. -/
inductive Request
  | u8
  | u16
  | u32
  | removePrefix (n : Nat)
deriving DecidableEq, Repr

namespace Request

/-- Number of bytes the call asks for. -/
def width : Request → Nat
  | u8 => 1
  | u16 => 2
  | u32 => 4
  | removePrefix n => n

/-- What a call returns when it fails; `remove_prefix` returns nothing. -/
def zero : Request → Option Nat
  | u8 | u16 | u32 => some 0
  | removePrefix _ => none

/-- The number that the first bytes of a string answer the call with. -/
def answer (bytes : Buffer) : Request → Option Nat
  | u8 => some (ofBytes (bytes.take 1))
  | u16 => some (ofBytes (bytes.take 2))
  | u32 => some (ofBytes (bytes.take 4))
  | removePrefix _ => none

/-- The call on a stored buffer. -/
def perform (p : SharedParser) : Request → Except Exn (Option Nat × SharedParser)
  | u8 => p.u8.map fun (v, p) => (some v.toNat, p)
  | u16 => p.u16.map fun (v, p) => (some v.toNat, p)
  | u32 => p.u32.map fun (v, p) => (some v.toNat, p)
  | removePrefix n => (p.removePrefix n).map fun p => (none, p)

/-- The call on the bytes that are exposed. -/
def run (p : NetParser) : Request → Option Nat × NetParser
  | u8 => (some (NetParser.u8 p).1.toNat, (NetParser.u8 p).2)
  | u16 => (some (NetParser.u16 p).1.toNat, (NetParser.u16 p).2)
  | u32 => (some (NetParser.u32 p).1.toNat, (NetParser.u32 p).2)
  | removePrefix n => (none, p.removePrefix n)

/-- A call on a stored buffer does not throw, and is the call on what it exposes. -/
theorem perform_refines (p : SharedParser) (r : Request) :
    ∃ p', r.perform p = .ok ((r.run p.view).1, p') ∧ p'.view = (r.run p.view).2 := by
  cases r with
  | removePrefix n =>
      obtain ⟨p', hremove, hview⟩ := p.removePrefix_refines n
      exact ⟨p', by rw [perform, hremove]; rfl, hview⟩
  | u8 =>
      obtain ⟨p', hparse, hview⟩ := p.parseInt_refines 1
      exact ⟨p', by rw [perform, SharedParser.u8, hparse]; rfl, hview⟩
  | u16 =>
      obtain ⟨p', hparse, hview⟩ := p.parseInt_refines 2
      exact ⟨p', by rw [perform, SharedParser.u16, hparse]; rfl, hview⟩
  | u32 =>
      obtain ⟨p', hparse, hview⟩ := p.parseInt_refines 4
      exact ⟨p', by rw [perform, SharedParser.u32, hparse]; rfl, hview⟩

/-- A call that is not short of bytes takes its width. -/
theorem run_fits {bytes : Buffer} {r : Request} (h : r.width ≤ bytes.length) :
    r.run ⟨bytes, .noError⟩ = (r.answer bytes, ⟨bytes.drop r.width, .noError⟩) := by
  have hparse : ∀ n, n ≤ bytes.length → NetParser.parseInt ⟨bytes, .noError⟩ n =
      (ofBytes (bytes.take n), ⟨bytes.drop n, .noError⟩) := by
    intro n hn
    have hat := NetParser.parseInt_at (show 0 + n ≤ bytes.length by omega)
    rwa [List.drop_zero, Nat.zero_add] at hat
  cases r with
  | removePrefix n =>
      rw [run, ← NetParser.parseInt_snd, hparse n h]
      rfl
  | u8 =>
      simp only [run, NetParser.u8, hparse 1 h]
      have hlt : ofBytes (bytes.take 1) < 2 ^ 8 := field_lt bytes 0 1
      rw [Nat.toUInt8_eq, UInt8.toNat_ofNat', Nat.mod_eq_of_lt hlt]
      rfl
  | u16 =>
      simp only [run, NetParser.u16, hparse 2 h]
      have hlt : ofBytes (bytes.take 2) < 2 ^ 16 := field_lt bytes 0 2
      rw [Nat.toUInt16_eq, UInt16.toNat_ofNat', Nat.mod_eq_of_lt hlt]
      rfl
  | u32 =>
      simp only [run, NetParser.u32, hparse 4 h]
      have hlt : ofBytes (bytes.take 4) < 2 ^ 32 := field_lt bytes 0 4
      rw [Nat.toUInt32_eq, UInt32.toNat_ofNat', Nat.mod_eq_of_lt hlt]
      rfl

/-- A call that is, or that comes after one that was, leaves the bytes alone. -/
theorem run_stuck {p : NetParser} {r : Request}
    (h : p.error = .packetTooShort ∨ p.buffer.length < r.width) :
    r.run p = (r.zero, ⟨p.buffer, .packetTooShort⟩) := by
  obtain ⟨buffer, error⟩ := p
  have hparse : ∀ n, error = .packetTooShort ∨ buffer.length < n →
      NetParser.parseInt ⟨buffer, error⟩ n = (0, ⟨buffer, .packetTooShort⟩) := by
    intro n hn
    have hcheck : NetParser.checkSize ⟨buffer, error⟩ n = ⟨buffer, .packetTooShort⟩ := by
      unfold NetParser.checkSize
      split
      · rfl
      · rename_i hle
        rw [hn.resolve_right hle]
    rw [NetParser.parseInt, hcheck]
    rfl
  cases r with
  | removePrefix n =>
      rw [run, ← NetParser.parseInt_snd, hparse n h]
      rfl
  | u8 =>
      simp only [run, NetParser.u8, hparse 1 h]
      rfl
  | u16 =>
      simp only [run, NetParser.u16, hparse 2 h]
      rfl
  | u32 =>
      simp only [run, NetParser.u32, hparse 4 h]
      rfl

-- ============================================================================
-- Sequences of requests
-- ============================================================================

/-- One call after the other. -/
def performAll : List Request → SharedParser → Except Exn (List (Option Nat) × SharedParser)
  | [], p => .ok ([], p)
  | r :: rs, p => do
      let (answer, p) ← r.perform p
      let (answers, p) ← performAll rs p
      return (answer :: answers, p)

/-- The same on the bytes that are exposed. -/
def runAll : List Request → NetParser → List (Option Nat) × NetParser
  | [], p => ([], p)
  | r :: rs, p => ((r.run p).1 :: (runAll rs (r.run p).2).1, (runAll rs (r.run p).2).2)

/-- Number of bytes the calls ask for together. -/
def totalWidth (rs : List Request) : Nat := (rs.map width).sum

theorem performAll_refines (rs : List Request) (p : SharedParser) :
    ∃ p', performAll rs p = .ok ((runAll rs p.view).1, p') ∧ p'.view = (runAll rs p.view).2 := by
  induction rs generalizing p with
  | nil => exact ⟨p, rfl, rfl⟩
  | cons r rs ih =>
      obtain ⟨p', hperform, hview⟩ := r.perform_refines p
      obtain ⟨p'', hall, hview'⟩ := ih p'
      rw [hview] at hall hview'
      refine ⟨p'', ?_, hview'⟩
      rw [performAll, hperform]
      show (do
        let (answers, q) ← performAll rs p'
        return ((r.run p.view).1 :: answers, q)) = _
      rw [hall]
      rfl

/-- As long as nothing is short, the calls take their widths. -/
theorem runAll_fits {rs : List Request} {bytes : Buffer} (h : totalWidth rs ≤ bytes.length) :
    (runAll rs ⟨bytes, .noError⟩).2 = ⟨bytes.drop (totalWidth rs), .noError⟩ := by
  induction rs generalizing bytes with
  | nil => rfl
  | cons r rs ih =>
      have hsum : totalWidth (r :: rs) = r.width + totalWidth rs := rfl
      rw [hsum] at h ⊢
      rw [runAll, run_fits (by omega), ih (by rw [List.length_drop]; omega), List.drop_drop]

/-- Once something is, the error stays. -/
theorem runAll_stuck {rs : List Request} {p : NetParser}
    (h : p.error = .packetTooShort ∨ p.error = .noError ∧ p.buffer.length < totalWidth rs) :
    (runAll rs p).2.error = .packetTooShort := by
  induction rs generalizing p with
  | nil =>
      rcases h with h | ⟨-, h⟩
      · exact h
      · exact absurd h (Nat.not_lt_zero _)
  | cons r rs ih =>
      have hsum : totalWidth (r :: rs) = r.width + totalWidth rs := rfl
      obtain ⟨buffer, error⟩ := p
      rw [runAll]
      apply ih
      by_cases hstuck : error = .packetTooShort ∨ buffer.length < r.width
      · rw [run_stuck hstuck]
        exact Or.inl rfl
      · rw [not_or] at hstuck
        obtain ⟨rfl, hshort⟩ := h.resolve_left hstuck.1
        simp only at hshort
        rw [run_fits (by omega), List.length_drop]
        exact Or.inr ⟨rfl, by omega⟩

end Request

-- ============================================================================
-- Fields
-- ============================================================================

/-- A value that a packet field holds. -/
inductive FieldValue
  | u8 (val : UInt8)
  | u16 (val : UInt16)
  | u32 (val : UInt32)
deriving DecidableEq

namespace FieldValue

/-- The value written behind `s`. -/
def write (s : Buffer) : FieldValue → Buffer
  | u8 val => NetUnparser.u8 s val
  | u16 val => NetUnparser.u16 s val
  | u32 val => NetUnparser.u32 s val

/-- The values written one after the other. -/
def writeAll (fields : List FieldValue) : Buffer := fields.foldl write []

/-- The call that reads a field of the same width. -/
def request : FieldValue → Request
  | u8 _ => .u8
  | u16 _ => .u16
  | u32 _ => .u32

/-- The value as the answer of the call. -/
def answer : FieldValue → Option Nat
  | u8 val => some val.toNat
  | u16 val => some val.toNat
  | u32 val => some val.toNat

/-- The bytes of a field. -/
def bytes : FieldValue → Buffer
  | u8 val => toBytes 1 val.toNat
  | u16 val => toBytes 2 val.toNat
  | u32 val => toBytes 4 val.toNat

theorem write_eq (s : Buffer) (f : FieldValue) : f.write s = s ++ f.bytes := by
  cases f <;> exact NetUnparser.unparseInt_eq ..

theorem writeAll_eq (fields : List FieldValue) : writeAll fields = fields.flatMap bytes := by
  have hfold : ∀ (fields : List FieldValue) (s : Buffer),
      fields.foldl write s = s ++ fields.flatMap bytes := by
    intro fields
    induction fields with
    | nil => simp
    | cons f fields ih =>
        intro s
        rw [List.foldl_cons, ih, write_eq, List.flatMap_cons, List.append_assoc]
  exact hfold fields []

theorem run_request (f : FieldValue) (rest : Buffer) :
    f.request.run ⟨f.bytes ++ rest, .noError⟩ = (f.answer, ⟨rest, .noError⟩) := by
  cases f with
  | u8 val =>
      simp only [request, bytes, Request.run, NetParser.u8_toBytes]
      rfl
  | u16 val =>
      simp only [request, bytes, Request.run, NetParser.u16_toBytes]
      rfl
  | u32 val =>
      simp only [request, bytes, Request.run, NetParser.u32_toBytes]
      rfl

theorem runAll_requests (fields : List FieldValue) (rest : Buffer) :
    Request.runAll (fields.map request) ⟨fields.flatMap bytes ++ rest, .noError⟩ =
      (fields.map answer, ⟨rest, .noError⟩) := by
  induction fields with
  | nil => rfl
  | cons f fields ih =>
      rw [List.map_cons, List.map_cons, List.flatMap_cons, List.append_assoc, Request.runAll,
        run_request, ih]

/-- What was written is read back from any buffer that exposes it, and what comes behind
    it is left. -/
def ReadsBack (fields : List FieldValue) : Prop :=
  ∀ (buffer : SharedBuffer) (rest : Buffer), buffer.str = writeAll fields ++ rest →
    ∃ p, Request.performAll (fields.map request) { buffer } = .ok (fields.map answer, p) ∧
      p.error = .noError ∧ p.buffer.str = rest

theorem readsBack (fields : List FieldValue) : ReadsBack fields := by
  intro buffer rest hstr
  obtain ⟨p, hall, hview⟩ := Request.performAll_refines (fields.map request) { buffer }
  have hstart : SharedParser.view { buffer } = ⟨fields.flatMap bytes ++ rest, .noError⟩ := by
    rw [← writeAll_eq, ← hstr]
    rfl
  rw [hstart, runAll_requests] at hall hview
  exact ⟨p, hall, congrArg NetParser.error hview, congrArg NetParser.buffer hview⟩

end FieldValue

namespace Request

/-- The calls that precede the first one that asks for more than is left, those whose
    widths add up to no more than the buffer had, take their widths; that call and every
    later one return 0 and leave the buffer as it is, with the error set. -/
def StopsAtFirstShort (buffer : SharedBuffer) (rs : List Request) : Prop :=
  ∀ before r, before ++ [r] <+: rs → ∃ answers p answer p',
    performAll before { buffer } = .ok (answers, p) ∧ r.perform p = .ok (answer, p') ∧
    (totalWidth (before ++ [r]) ≤ buffer.str.length →
      answer = r.answer p.buffer.str ∧ r.width ≤ p.buffer.str.length ∧
      p'.buffer.str = p.buffer.str.drop r.width ∧ p'.error = .noError) ∧
    (buffer.str.length < totalWidth (before ++ [r]) →
      answer = r.zero ∧ p'.buffer.str = p.buffer.str ∧ p'.error = .packetTooShort)

theorem stopsAtFirstShort (buffer : SharedBuffer) (rs : List Request) :
    StopsAtFirstShort buffer rs := by
  intro before r _
  obtain ⟨p, hall, hview⟩ := performAll_refines before { buffer }
  obtain ⟨p', hperform, hview'⟩ := r.perform_refines p
  have hstart : SharedParser.view { buffer } = ⟨buffer.str, .noError⟩ := rfl
  have hsum : totalWidth (before ++ [r]) = totalWidth before + r.width := by
    simp [totalWidth]
  rw [hstart] at hall hview
  refine ⟨_, p, _, p', hall, hperform, fun hfits => ?_, fun hshort => ?_⟩
  · rw [runAll_fits (by omega)] at hview
    have hbuffer : p.buffer.str = buffer.str.drop (totalWidth before) :=
      congrArg NetParser.buffer hview
    have hwidth : r.width ≤ p.buffer.str.length := by
      rw [hbuffer, List.length_drop]
      omega
    rw [hview, ← hbuffer, run_fits hwidth] at hview' ⊢
    exact ⟨rfl, hwidth, congrArg NetParser.buffer hview', congrArg NetParser.error hview'⟩
  · have hstuck : p.view.error = .packetTooShort ∨ p.view.buffer.length < r.width := by
      rw [hview]
      by_cases hbefore : totalWidth before ≤ buffer.str.length
      · rw [runAll_fits hbefore, List.length_drop]
        exact Or.inr (by omega)
      · exact Or.inl (runAll_stuck (Or.inr ⟨rfl, Nat.not_le.mp hbefore⟩))
    rw [run_stuck hstuck] at hview' ⊢
    exact ⟨rfl, congrArg NetParser.buffer hview', congrArg NetParser.error hview'⟩

end Request

/-- **FieldValue sequences.**  Fields that were written in order are read back in order, and
    the first call that is short of bytes is the last to have had any effect. -/
theorem fieldCodec (fields : List FieldValue) (buffer : SharedBuffer) (rs : List Request) :
    FieldValue.ReadsBack fields ∧ Request.StopsAtFirstShort buffer rs :=
  ⟨FieldValue.readsBack fields, Request.stopsAtFirstShort buffer rs⟩

/-- The last byte would be there, but the call before was short. -/
example : (Request.performAll [.u16, .u32, .u8] { buffer := .ofString [1, 2, 3] }).toOption.map
    Prod.fst = some [some 258, some 0, some 0] := by decide

end Sponge
