/-
  Sponge.Util.Parser

  Byte buffers and the readers and writers of packet fields (`buffer.hh`,
  `buffer.cc`, `parser.hh`, `parser.cc`).

  A `Buffer` is the bytes it exposes and a `BufferList` the list of its buffers: the
  conversion back to one `Buffer` throws unless there is at most one.  A `NetParser`
  keeps the first error it runs into and reads zeros from then on, so a header's fields
  are read one after the other without a check in between.  Such a chain is a `Reader`:
  `Takes` is how many bytes it takes (with one rule for a sequence of two reads), and the
  `_at` lemmas give the values it reads.
-/

import Sponge.Lib.BigEndian

namespace Sponge

open Lib.BigEndian

/-- The exceptions of the standard library that the modelled code raises. -/
inductive Exn
  | runtimeError (what : String)
  | outOfRange (what : String)
deriving DecidableEq, Repr

/-- `Buffer` -/
abbrev Buffer := List UInt8

/-- `BufferList` -/
abbrev BufferList := List Buffer

namespace BufferList

/-- `size()` -/
def size (buffers : BufferList) : Nat := (buffers.map List.length).sum

/-- `operator Buffer()` -/
def toBuffer : BufferList → Except Exn Buffer
  | [] => .ok []
  | [buffer] => .ok buffer
  | _ => .error (.runtimeError
      "BufferList: please use concatenate() to combine a multi-Buffer BufferList into one Buffer")

@[simp] theorem size_singleton (buffer : Buffer) : size [buffer] = buffer.length := by
  simp [size]

end BufferList

/-- `ParseResult` -/
inductive ParseResult
  | noError
  | badChecksum
  | packetTooShort
  | wrongIPVersion
  | headerTooShort
  | truncatedPacket
  | unsupported
deriving DecidableEq, Repr

/-- `NetParser` -/
structure NetParser where
  buffer : Buffer
  error : ParseResult := .noError
deriving DecidableEq, Repr

namespace NetParser

/-- `_check_size(size)` -/
def checkSize (p : NetParser) (size : Nat) : NetParser :=
  if size > p.buffer.length then { p with error := .packetTooShort } else p

/-- `_parse_int<T>()`, where `T` has `len` bytes. -/
def parseInt (p : NetParser) (len : Nat) : Nat × NetParser :=
  let p := p.checkSize len
  if p.error ≠ .noError then (0, p)
  else (ofBytes (p.buffer.take len), { p with buffer := p.buffer.drop len })

/-- `remove_prefix(n)` -/
def removePrefix (p : NetParser) (n : Nat) : NetParser :=
  let p := p.checkSize n
  if p.error ≠ .noError then p else { p with buffer := p.buffer.drop n }

end NetParser

/-- A member function of the parser that returns a value. -/
def Reader (α : Type) : Type := NetParser → α × NetParser

instance : Monad Reader where
  pure a := fun p => (a, p)
  bind m f := fun p => f (m p).1 (m p).2

namespace NetParser

/-- `u8()` -/
def u8 : Reader UInt8 := fun p => ((p.parseInt 1).1.toUInt8, (p.parseInt 1).2)

/-- `u16()` -/
def u16 : Reader UInt16 := fun p => ((p.parseInt 2).1.toUInt16, (p.parseInt 2).2)

/-- `u32()` -/
def u32 : Reader UInt32 := fun p => ((p.parseInt 4).1.toUInt32, (p.parseInt 4).2)

-- ============================================================================
-- What a read consumes
-- ============================================================================

/-- If there is no error after the step from `p` to `p'`, there was none before, and it
    took the first `n` bytes. -/
def Consumes (p : NetParser) (n : Nat) (p' : NetParser) : Prop :=
  p'.error = .noError →
    p.error = .noError ∧ n ≤ p.buffer.length ∧ p'.buffer = p.buffer.drop n

theorem Consumes.trans {p p' p'' : NetParser} {m n : Nat} (h : p.Consumes m p')
    (h' : p'.Consumes n p'') : p.Consumes (m + n) p'' := by
  intro hok
  obtain ⟨hok', hn, hbuffer'⟩ := h' hok
  obtain ⟨hok, hm, hbuffer⟩ := h hok'
  rw [hbuffer, List.length_drop] at hn
  refine ⟨hok, by omega, ?_⟩
  rw [hbuffer', hbuffer, List.drop_drop]

theorem checkSize_ok {p : NetParser} {n : Nat} (h : (p.checkSize n).error = .noError) :
    n ≤ p.buffer.length ∧ p.checkSize n = p := by
  unfold checkSize at h ⊢
  split at h
  · cases h
  · rename_i hle
    rw [if_neg hle]
    exact ⟨by omega, rfl⟩

theorem removePrefix_consumes (p : NetParser) (n : Nat) : p.Consumes n (p.removePrefix n) := by
  intro hok
  simp only [removePrefix] at hok ⊢
  split at hok
  · rename_i hne
    exact absurd hok hne
  · rename_i heq
    have heq := not_not.mp heq
    obtain ⟨hle, hp⟩ := checkSize_ok heq
    rw [if_neg (not_not.mpr heq), hp]
    rw [hp] at heq
    exact ⟨heq, hle, rfl⟩

/-- Reading a number moves on as removing a prefix does. -/
theorem parseInt_snd (p : NetParser) (len : Nat) : (p.parseInt len).2 = p.removePrefix len := by
  simp only [parseInt, removePrefix]
  split <;> rfl

end NetParser

namespace Reader

variable {α β : Type}

/-- The reader takes `n` bytes, or leaves an error. -/
def Takes (m : Reader α) (n : Nat) : Prop := ∀ p : NetParser, p.Consumes n (m p).2

theorem Takes.bind {m : Reader α} {f : α → Reader β} {k n : Nat} (hm : m.Takes k)
    (hf : ∀ a, (f a).Takes n) : Takes (m >>= f) (k + n) :=
  fun p => (hm p).trans (hf _ _)

theorem takes_pure (a : α) : Takes (pure a) 0 := fun _ hok => ⟨hok, Nat.zero_le _, rfl⟩

theorem takes_u8 : Takes NetParser.u8 1 := by
  intro p
  rw [NetParser.u8, NetParser.parseInt_snd]
  exact p.removePrefix_consumes 1

theorem takes_u16 : Takes NetParser.u16 2 := by
  intro p
  rw [NetParser.u16, NetParser.parseInt_snd]
  exact p.removePrefix_consumes 2

theorem takes_u32 : Takes NetParser.u32 4 := by
  intro p
  rw [NetParser.u32, NetParser.parseInt_snd]
  exact p.removePrefix_consumes 4

/-- Running one reader after another. -/
theorem bind_apply (m : Reader α) (f : α → Reader β) (p : NetParser) :
    (m >>= f) p = f (m p).1 (m p).2 := rfl

theorem pure_apply (a : α) (p : NetParser) : (pure a : Reader α) p = (a, p) := rfl

end Reader

namespace NetParser

-- ============================================================================
-- What a read returns
-- ============================================================================

section At

variable {bytes : Buffer} {k n : Nat}

theorem checkSize_at (h : k + n ≤ bytes.length) :
    checkSize ⟨bytes.drop k, .noError⟩ n = ⟨bytes.drop k, .noError⟩ := by
  apply if_neg
  rw [List.length_drop]
  omega

theorem parseInt_at (h : k + n ≤ bytes.length) :
    parseInt ⟨bytes.drop k, .noError⟩ n =
      (field bytes k n, ⟨bytes.drop (k + n), .noError⟩) := by
  rw [parseInt, checkSize_at h]
  simp [field, List.drop_drop]

theorem removePrefix_at (h : k + n ≤ bytes.length) :
    removePrefix ⟨bytes.drop k, .noError⟩ n = ⟨bytes.drop (k + n), .noError⟩ := by
  rw [← parseInt_snd, parseInt_at h]

theorem u8_at (h : k + 1 ≤ bytes.length) :
    u8 ⟨bytes.drop k, .noError⟩ =
      ((field bytes k 1).toUInt8, ⟨bytes.drop (k + 1), .noError⟩) := by
  rw [u8, parseInt_at h]

theorem u16_at (h : k + 2 ≤ bytes.length) :
    u16 ⟨bytes.drop k, .noError⟩ =
      ((field bytes k 2).toUInt16, ⟨bytes.drop (k + 2), .noError⟩) := by
  rw [u16, parseInt_at h]

theorem u32_at (h : k + 4 ≤ bytes.length) :
    u32 ⟨bytes.drop k, .noError⟩ =
      ((field bytes k 4).toUInt32, ⟨bytes.drop (k + 4), .noError⟩) := by
  rw [u32, parseInt_at h]

end At

/-- The upper half of a byte that was read. -/
theorem toNat_upperHalf (bytes : Buffer) (k : Nat) :
    ((field bytes k 1).toUInt8 >>> 4).toNat = field bytes k 1 / 16 := by
  have hlt : field bytes k 1 < 256 := field_lt bytes k 1
  rw [UInt8.toNat_shiftRight]
  simp only [Nat.toUInt8_eq, UInt8.toNat_ofNat', UInt8.reduceToNat, Nat.reduceMod, Nat.reducePow]
  rw [Nat.mod_eq_of_lt hlt, Nat.shiftRight_eq_div_pow]

/-- The lower half of a byte that was read. -/
theorem toNat_lowerHalf (bytes : Buffer) (k : Nat) :
    ((field bytes k 1).toUInt8 &&& 0x0f).toNat = field bytes k 1 % 16 := by
  have hlt : field bytes k 1 < 256 := field_lt bytes k 1
  rw [UInt8.toNat_and]
  simp only [Nat.toUInt8_eq, UInt8.toNat_ofNat', UInt8.reduceToNat, Nat.reducePow]
  rw [Nat.mod_eq_of_lt hlt]
  exact Nat.and_two_pow_sub_one_eq_mod _ 4

end NetParser

namespace NetUnparser

/-- `_unparse_int<T>(s, val)`, where `T` has `len` bytes. -/
def unparseInt (s : Buffer) (len val : Nat) : Buffer :=
  s ++ (List.range len).map fun i => ((val >>> ((len - i - 1) * 8)) &&& 0xff).toUInt8

/-- `u8(s, val)` -/
def u8 (s : Buffer) (val : UInt8) : Buffer := unparseInt s 1 val.toNat

/-- `u16(s, val)` -/
def u16 (s : Buffer) (val : UInt16) : Buffer := unparseInt s 2 val.toNat

/-- `u32(s, val)` -/
def u32 (s : Buffer) (val : UInt32) : Buffer := unparseInt s 4 val.toNat

/-- A number is appended in network byte order. -/
theorem unparseInt_eq (s : Buffer) (len val : Nat) :
    unparseInt s len val = s ++ toBytes len val := by
  unfold unparseInt
  congr 1
  induction len generalizing val with
  | zero => rfl
  | succ len ih =>
      rw [List.range_succ, List.map_append, toBytes, ← ih]
      congr 1
      · -- all but the last byte are those of the number without its last byte
        refine List.map_congr_left fun i hi => ?_
        have hi := List.mem_range.mp hi
        rw [show (len + 1 - i - 1) * 8 = 8 + (len - i - 1) * 8 by omega, Nat.shiftRight_add,
          Nat.shiftRight_eq_div_pow val 8]
      · simp only [List.map_cons, List.map_nil, List.cons.injEq, and_true]
        rw [show (len + 1 - len - 1) * 8 = 0 by omega, Nat.shiftRight_zero]
        apply UInt8.toNat_inj.mp
        rw [show (0xff : Nat) = 2 ^ 8 - 1 from rfl, Nat.and_two_pow_sub_one_eq_mod]
        simp

end NetUnparser

namespace NetParser

-- ============================================================================
-- Reading back what was written
-- ============================================================================

theorem parseInt_toBytes {n v : Nat} (hv : v < 256 ^ n) (rest : Buffer) :
    parseInt ⟨toBytes n v ++ rest, .noError⟩ n = (v, ⟨rest, .noError⟩) := by
  have hat : parseInt ⟨(toBytes n v ++ rest).drop 0, .noError⟩ n = _ := parseInt_at (by simp)
  have hfield := field_append [] (toBytes n v) rest
  rw [List.length_nil, toBytes_length, ofBytes_toBytes hv, List.nil_append] at hfield
  rw [List.drop_zero, hfield] at hat
  rw [hat, Nat.zero_add]
  simp

theorem u8_toBytes (v : UInt8) (rest : Buffer) :
    u8 ⟨toBytes 1 v.toNat ++ rest, .noError⟩ = (v, ⟨rest, .noError⟩) := by
  rw [u8, parseInt_toBytes v.toNat_lt, Nat.toUInt8_eq, UInt8.ofNat_toNat]

theorem u16_toBytes (v : UInt16) (rest : Buffer) :
    u16 ⟨toBytes 2 v.toNat ++ rest, .noError⟩ = (v, ⟨rest, .noError⟩) := by
  rw [u16, parseInt_toBytes v.toNat_lt, Nat.toUInt16_eq, UInt16.ofNat_toNat]

theorem u32_toBytes (v : UInt32) (rest : Buffer) :
    u32 ⟨toBytes 4 v.toNat ++ rest, .noError⟩ = (v, ⟨rest, .noError⟩) := by
  rw [u32, parseInt_toBytes v.toNat_lt, Nat.toUInt32_eq, UInt32.ofNat_toNat]

end NetParser

end Sponge
