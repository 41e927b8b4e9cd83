/-
  Sponge.Lib.BigEndian

  Numbers in network byte order.

  `ofBytes` is the number a byte string spells, most significant byte first, and
  `field bytes k n` the number in the `n` bytes from place `k` on.  In the other
  direction `toBytes n v` spells `v` in `n` bytes, and a `Layout` is a record of
  fields of given widths: reading the place of a field gives its value back
  (`Layout.field_bytes`).
-/

import Mathlib.Data.List.Induction
import Mathlib.Algebra.Ring.Nat

namespace Sponge.Lib.BigEndian

/-- The number a byte string spells. -/
def ofBytes (bytes : List UInt8) : Nat := bytes.foldl (fun ret b => ret * 256 + b.toNat) 0

theorem ofBytes_snoc (bytes : List UInt8) (b : UInt8) :
    ofBytes (bytes ++ [b]) = ofBytes bytes * 256 + b.toNat := by
  simp [ofBytes]

theorem ofBytes_lt (bytes : List UInt8) : ofBytes bytes < 256 ^ bytes.length := by
  induction bytes using List.reverseRecOn with
  | nil => decide
  | append_singleton bytes b ih =>
      have hb := b.toNat_lt
      rw [ofBytes_snoc, List.length_append, List.length_singleton, Nat.pow_succ]
      omega

/-- The number in the `n` bytes from place `k` on. -/
def field (bytes : List UInt8) (k n : Nat) : Nat := ofBytes ((bytes.drop k).take n)

theorem field_lt (bytes : List UInt8) (k n : Nat) : field bytes k n < 256 ^ n := by
  refine Nat.lt_of_lt_of_le (ofBytes_lt _) (Nat.pow_le_pow_right (by decide) ?_)
  rw [List.length_take]
  exact Nat.min_le_left ..

/-- The field of a string that is put together around it. -/
theorem field_append (before bytes rest : List UInt8) :
    field (before ++ (bytes ++ rest)) before.length bytes.length = ofBytes bytes := by
  rw [field, List.drop_left, List.take_left]

-- ============================================================================
-- Encoding
-- ============================================================================

/-- The last `n` bytes of `v`. -/
def toBytes : Nat → Nat → List UInt8
  | 0, _ => []
  | n + 1, v => toBytes n (v / 256) ++ [v.toUInt8]

@[simp] theorem toBytes_length (n v : Nat) : (toBytes n v).length = n := by
  induction n generalizing v with
  | zero => rfl
  | succ n ih => simp [toBytes, ih]

theorem ofBytes_toBytes {n v : Nat} (h : v < 256 ^ n) : ofBytes (toBytes n v) = v := by
  induction n generalizing v with
  | zero =>
      obtain rfl : v = 0 := by simpa using h
      rfl
  | succ n ih =>
      rw [Nat.pow_succ] at h
      rw [toBytes, ofBytes_snoc, ih (by omega), Nat.toUInt8_eq, UInt8.toNat_ofNat']
      omega

/-- A number of known width at the front of a string is determined by it, and so is the
    rest. -/
theorem toBytes_append_inj {n v w : Nat} {s t : List UInt8} (hv : v < 256 ^ n)
    (hw : w < 256 ^ n) : toBytes n v ++ s = toBytes n w ++ t ↔ v = w ∧ s = t := by
  constructor
  · intro h
    obtain ⟨hvw, hst⟩ := List.append_inj h (by rw [toBytes_length, toBytes_length])
    refine ⟨?_, hst⟩
    rw [← ofBytes_toBytes hv, hvw, ofBytes_toBytes hw]
  · rintro ⟨rfl, rfl⟩
    rfl

/-- A byte string is spelled by its own number. -/
theorem toBytes_ofBytes (bytes : List UInt8) : toBytes bytes.length (ofBytes bytes) = bytes := by
  induction bytes using List.reverseRecOn with
  | nil => rfl
  | append_singleton bytes b ih =>
      have hb := b.toNat_lt
      have hhigh : (ofBytes bytes * 256 + b.toNat) / 256 = ofBytes bytes := by omega
      have hlow : (ofBytes bytes * 256 + b.toNat).toUInt8 = b := by
        apply UInt8.toNat_inj.mp
        rw [Nat.toUInt8_eq, UInt8.toNat_ofNat']
        omega
      rw [List.length_append, List.length_singleton, ofBytes_snoc, toBytes, hhigh, hlow, ih]

/-- A field and what comes behind it. -/
theorem toBytes_field_append {bytes : List UInt8} {k n : Nat} (h : k + n ≤ bytes.length) :
    toBytes n (field bytes k n) ++ bytes.drop (k + n) = bytes.drop k := by
  have hlen : ((bytes.drop k).take n).length = n := by
    rw [List.length_take, List.length_drop]
    omega
  have hfield := toBytes_ofBytes ((bytes.drop k).take n)
  rw [hlen] at hfield
  rw [field, hfield, ← List.drop_drop, List.take_append_drop]

/-- A record of fields, each with its width in bytes and its value. -/
abbrev Layout := List (Nat × Nat)

namespace Layout

/-- The fields one after the other. -/
def bytes (l : Layout) : List UInt8 := l.flatMap fun f => toBytes f.1 f.2

/-- The number of bytes of the record. -/
def width (l : Layout) : Nat := (l.map Prod.fst).sum

@[simp] theorem bytes_nil : bytes [] = [] := rfl

@[simp] theorem bytes_cons (n v : Nat) (l : Layout) :
    bytes ((n, v) :: l) = toBytes n v ++ bytes l := rfl

@[simp] theorem bytes_append (l m : Layout) : bytes (l ++ m) = bytes l ++ bytes m :=
  List.flatMap_append

@[simp] theorem bytes_length (l : Layout) : (bytes l).length = l.width := by
  simp [bytes, width, List.length_flatMap]

/-- A field is read back at the place where the fields before it end. -/
theorem field_bytes {l : Layout} {i n v : Nat} (h : l[i]? = some (n, v)) (hv : v < 256 ^ n)
    (rest : List UInt8) : field (bytes l ++ rest) (width (l.take i)) n = v := by
  obtain ⟨hi, hget⟩ := List.getElem?_eq_some_iff.mp h
  have hsplit : bytes l = bytes (l.take i) ++ (toBytes n v ++ bytes (l.drop (i + 1))) := by
    rw [← bytes_cons, ← bytes_append, ← hget, ← List.drop_eq_getElem_cons hi,
      List.take_append_drop]
  have hfield := field_append (bytes (l.take i)) (toBytes n v)
    (bytes (l.drop (i + 1)) ++ rest)
  rw [bytes_length, toBytes_length, ofBytes_toBytes hv] at hfield
  rw [hsplit, List.append_assoc, List.append_assoc]
  exact hfield

end Layout

end Sponge.Lib.BigEndian
