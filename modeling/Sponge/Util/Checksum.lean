/-
  Sponge.Util.Checksum

  The Internet checksum (`InternetChecksum` in `util.hh`, `util.cc`).

  The running sum is a 32-bit word; the carries are folded back only when the value is
  taken.  `value_add` says that this is the complement of the one's-complement sum
  as long as the 32-bit sum does not overflow.
-/

import Sponge.Lib.OnesComplement

namespace Sponge

open Lib.OnesComplement

/-- `InternetChecksum` -/
structure InternetChecksum where
  sum : UInt32
  parity : Bool := false

namespace InternetChecksum

/-- `InternetChecksum(initial_sum)` -/
def new (initialSum : UInt32 := 0) : InternetChecksum := { sum := initialSum }

/-- One pass of the loop of `add`. -/
def addByte (c : InternetChecksum) (b : UInt8) : InternetChecksum :=
  let val : UInt16 := if c.parity then b.toUInt16 else b.toUInt16 <<< 8
  { sum := c.sum + val.toUInt32, parity := !c.parity }

/-- `add(data)` -/
def add (c : InternetChecksum) (data : List UInt8) : InternetChecksum := data.foldl addByte c

/-- The loop of `value`. -/
def foldCarries : Nat → UInt32 → UInt32
  | 0, ret => ret
  | fuel + 1, ret =>
      if ret > 0xffff then foldCarries fuel ((ret >>> 16) + (ret &&& 0xffff)) else ret

/-- `value()`; two passes are enough (`foldCarries_done`). -/
def value (c : InternetChecksum) : UInt16 := (~~~ foldCarries 2 c.sum).toUInt16

-- ============================================================================
-- The sum
-- ============================================================================

theorem addByte_sum (c : InternetChecksum) (b : UInt8) :
    (c.addByte b).sum.toNat =
      (c.sum.toNat + if c.parity then b.toNat else b.toNat * 256) % 2 ^ 32 := by
  have hb := b.toNat_lt
  unfold addByte
  cases c.parity with
  | true => simp [UInt32.toNat_add]
  | false =>
      have hshift : b.toNat <<< 8 % 65536 = b.toNat * 256 := by
        rw [Nat.shiftLeft_eq]
        omega
      simp [UInt32.toNat_add, hshift]

/-- The running sum, modulo 2^32. -/
theorem add_sum (c : InternetChecksum) (data : List UInt8) :
    (c.add data).sum.toNat = (c.sum.toNat + sumFrom c.parity data) % 2 ^ 32 := by
  induction data generalizing c with
  | nil => simp [add, sumFrom, Nat.mod_eq_of_lt c.sum.toNat_lt]
  | cons b rest ih =>
      have hstep := ih (c.addByte b)
      rw [addByte_sum] at hstep
      show ((c.addByte b).add rest).sum.toNat = _
      rw [hstep]
      show _ = (c.sum.toNat + (_ + sumFrom (!c.parity) rest)) % 2 ^ 32
      show (_ + sumFrom (!c.parity) rest) % 2 ^ 32 = _
      omega

theorem add_parity (c : InternetChecksum) (data : List UInt8) :
    (c.add data).parity = (c.parity ^^ decide (data.length % 2 = 1)) := by
  induction data generalizing c with
  | nil => simp [add]
  | cons b rest ih =>
      show ((c.addByte b).add rest).parity = _
      rw [ih]
      show ((!c.parity) ^^ _) = _
      rw [List.length_cons]
      cases c.parity <;> by_cases h : rest.length % 2 = 1
      all_goals
        simp [h]
        omega

/-- It does not matter how the data is cut. -/
theorem add_flatten (chunks : List (List UInt8)) (c : InternetChecksum) :
    chunks.foldl add c = c.add chunks.flatten := by
  induction chunks generalizing c with
  | nil => rfl
  | cons data chunks ih =>
      rw [List.foldl_cons, ih, List.flatten_cons]
      exact List.foldl_append.symm

-- ============================================================================
-- The value
-- ============================================================================

theorem toNat_carry (ret : UInt32) :
    ((ret >>> 16) + (ret &&& 0xffff)).toNat = carry ret.toNat := by
  have hlt := ret.toNat_lt
  have hand : ret.toNat &&& 65535 = ret.toNat % 2 ^ 16 := Nat.and_two_pow_sub_one_eq_mod _ 16
  have hshift : ret.toNat >>> 16 = ret.toNat / 2 ^ 16 := Nat.shiftRight_eq_div_pow ..
  simp only [UInt32.toNat_add, UInt32.toNat_shiftRight, UInt32.toNat_and, UInt32.reduceToNat,
    Nat.reduceMod, hand, hshift]
  unfold carry
  omega

/-- With two passes the loop ends as in the source, with a 16-bit number, which is the
    normal form of what it was given. -/
theorem foldCarries_done (ret : UInt32) : (foldCarries 2 ret).toNat = norm ret.toNat := by
  have hlt := ret.toNat_lt
  have hle : ∀ x : UInt32, x > 0xffff ↔ 65535 < x.toNat := fun x => UInt32.lt_iff_toNat_lt
  unfold foldCarries
  split
  · have hcarry := toNat_carry ret
    generalize (ret >>> 16) + (ret &&& 0xffff) = ret' at hcarry ⊢
    unfold foldCarries
    split
    · -- a second carry leaves 16 bits
      have hcarry' := toNat_carry ret'
      rw [hcarry] at hcarry'
      show ((ret' >>> 16) + (ret' &&& 0xffff)).toNat = _
      rw [hcarry', ← norm_of_le (carry_carry_le hlt),
        norm_carry, norm_carry]
    · rename_i hsmall
      rw [hle] at hsmall
      rw [← norm_carry, ← hcarry,
        norm_of_le (by omega)]
  · rename_i hsmall
    rw [hle] at hsmall
    rw [norm_of_le (by omega)]

theorem foldCarries_add (m n : Nat) (ret : UInt32) :
    foldCarries (m + n) ret = foldCarries n (foldCarries m ret) := by
  induction m generalizing ret with
  | zero => rw [Nat.zero_add, foldCarries]
  | succ m ih =>
      rw [Nat.succ_add_eq_add_succ, Nat.add_succ, foldCarries, foldCarries]
      split
      · exact ih _
      · rename_i hsmall
        cases n with
        | zero => rfl
        | succ n => rw [foldCarries, if_neg hsmall]

/-- The loop has ended after two passes: its test fails, and more passes change nothing. -/
theorem foldCarries_ends (ret : UInt32) {fuel : Nat} (h : 2 ≤ fuel) :
    foldCarries fuel ret = foldCarries 2 ret ∧ ¬ foldCarries fuel ret > 0xffff := by
  have hsmall : ¬ foldCarries 2 ret > 0xffff := by
    have hle := norm_le ret.toNat
    rw [← foldCarries_done] at hle
    exact Nat.not_lt.mpr hle
  have heq : foldCarries fuel ret = foldCarries 2 ret := by
    obtain ⟨n, rfl⟩ := Nat.exists_eq_add_of_le h
    rw [foldCarries_add]
    cases n with
    | zero => rfl
    | succ n => rw [foldCarries, if_neg hsmall]
  rw [heq]
  exact ⟨rfl, hsmall⟩

/-- The value is the complement of the normal form of the sum. -/
theorem value_toNat (c : InternetChecksum) : c.value.toNat = 65535 - norm c.sum.toNat := by
  have hdone := foldCarries_done c.sum
  have hle := norm_le c.sum.toNat
  have hret := (foldCarries 2 c.sum).toNat_lt
  unfold value
  rw [UInt32.toNat_toUInt16, UInt32.toNat_not]
  rw [hdone]
  have hsize : UInt32.size = 4294967296 := rfl
  omega

/-- Where nothing overflows, `add` and `value` compute the Internet checksum. -/
theorem value_add (seed : UInt32) {data : List UInt8}
    (h : seed.toNat + 65280 * data.length < 2 ^ 32) :
    ((new seed).add data).value.toNat = checksum seed.toNat data := by
  have hle := sumFrom_le false data
  rw [value_toNat, add_sum, Nat.mod_eq_of_lt]
  · show 65535 - norm (seed.toNat + sumFrom false data) = _
    rw [sumFrom_false]
    rfl
  · show seed.toNat + sumFrom false data < 2 ^ 32
    omega

end InternetChecksum

end Sponge
