/-
  Sponge.Lib.OnesComplement

  16-bit one's-complement sums of byte strings.

  `norm n` is the 16-bit number that `n` stands for in one's-complement arithmetic:
  0 for 0, and otherwise the representative of `n` modulo 65535 between 1 and 65535.
  An end-around carry does not change it (`norm_carry`), and a number that needs no
  carry is its own (`norm_of_le`), so any way of folding the carries back computes it.
  The sum of a byte string is that of its big-endian words, the last one padded with
  a zero byte; `sumFrom` takes it byte by byte, from an even or an odd place on.
  A checksum put into a word of zeros completes the sum (`checksum_completed`), no other
  value does, up to the two zeros (`eq_of_completes`), and a sum that was complete is not
  after one word was changed (`checksum_set_ne_zero`).
-/

import Mathlib.Algebra.BigOperators.Group.List.Basic
import Mathlib.Algebra.Ring.Nat
import Sponge.Lib.BigEndian

namespace Sponge.Lib.OnesComplement

open BigEndian (toBytes toBytes_length)

-- ============================================================================
-- Numbers
-- ============================================================================

/-- One end-around carry. -/
def carry (n : Nat) : Nat := n / 2 ^ 16 + n % 2 ^ 16

/-- The 16-bit number that `n` stands for. -/
def norm (n : Nat) : Nat := if n = 0 then 0 else (n - 1) % 65535 + 1

theorem norm_carry (n : Nat) : norm (carry n) = norm n := by
  unfold norm carry
  split <;> split <;> omega

theorem norm_of_le {n : Nat} (h : n ≤ 65535) : norm n = n := by
  unfold norm
  split <;> omega

theorem carry_le {n : Nat} (h : n < 2 ^ 32) : carry n ≤ 2 * 65535 := by
  unfold carry
  omega

theorem norm_le (n : Nat) : norm n ≤ 65535 := by
  unfold norm
  split <;> omega

/-- Two carries bring a 32-bit number down to 16 bits. -/
theorem carry_carry_le {n : Nat} (h : n < 2 ^ 32) : carry (carry n) ≤ 65535 := by
  unfold carry
  omega

/-- Bringing the carry of a summand round does not change the sum. -/
theorem norm_carry_add (n m : Nat) : norm (carry n + m) = norm (n + m) := by
  unfold norm carry
  split <;> split <;> omega

/-- The numbers that stand for the other zero. -/
theorem norm_eq_top_iff {n : Nat} : norm n = 65535 ↔ 0 < n ∧ n % 65535 = 0 := by
  unfold norm
  split <;> omega

/-- Addition of 16-bit words with an end-around carry. -/
def addCarry (a b : Nat) : Nat := carry (a + b)

/-- The one's-complement sum of a list of words. -/
def onesSum (ws : List Nat) : Nat := ws.foldl addCarry 0

theorem foldl_addCarry {ws : List Nat} (hws : ∀ w ∈ ws, w ≤ 65535) {a : Nat} (ha : a ≤ 65535) :
    ws.foldl addCarry a = norm (a + ws.sum) := by
  induction ws generalizing a with
  | nil => exact (norm_of_le ha).symm
  | cons w ws ih =>
      have hw := hws w (List.mem_cons_self ..)
      have hle : addCarry a w ≤ 65535 := by
        unfold addCarry carry
        omega
      rw [List.foldl_cons, ih (fun x hx => hws x (List.mem_cons_of_mem _ hx)) hle, addCarry,
        norm_carry_add, List.sum_cons, Nat.add_assoc]

/-- Adding word by word gives the normal form of the sum. -/
theorem onesSum_eq_norm {ws : List Nat} (hws : ∀ w ∈ ws, w ≤ 65535) :
    onesSum ws = norm ws.sum := by
  rw [onesSum, foldl_addCarry hws (Nat.zero_le _), Nat.zero_add]

-- ============================================================================
-- Byte strings
-- ============================================================================

/-- The big-endian words of a byte string, padded with a zero byte. -/
def words : List UInt8 → List Nat
  | [] => []
  | [hi] => [hi.toNat * 256]
  | hi :: lo :: rest => (hi.toNat * 256 + lo.toNat) :: words rest

/-- The complement of the one's-complement sum of a seed and the words of a string. -/
def checksum (seed : Nat) (bytes : List UInt8) : Nat := 65535 - norm (seed + (words bytes).sum)

theorem words_le (bytes : List UInt8) : ∀ w ∈ words bytes, w ≤ 65535 := by
  induction bytes using words.induct with
  | case1 => simp [words]
  | case2 hi =>
      have hhi := hi.toNat_lt
      intro w hw
      rw [List.mem_singleton.mp hw]
      omega
  | case3 hi lo rest ih =>
      have hhi := hi.toNat_lt
      have hlo := lo.toNat_lt
      intro w hw
      rcases List.mem_cons.mp hw with rfl | hw
      · omega
      · exact ih w hw

/-- The checksum by words: the two halves of the seed, and those of the string. -/
theorem checksum_eq_onesSum {seed : Nat} (h : seed < 2 ^ 32) (bytes : List UInt8) :
    checksum seed bytes =
      65535 - onesSum (seed / 2 ^ 16 :: seed % 2 ^ 16 :: words bytes) := by
  have hws : ∀ w ∈ seed / 2 ^ 16 :: seed % 2 ^ 16 :: words bytes, w ≤ 65535 := by
    intro w hw
    rcases List.mem_cons.mp hw with rfl | hw
    · omega
    rcases List.mem_cons.mp hw with rfl | hw
    · omega
    · exact words_le bytes w hw
  rw [onesSum_eq_norm hws, List.sum_cons, List.sum_cons, ← Nat.add_assoc]
  exact congrArg (65535 - ·) (norm_carry_add seed (words bytes).sum).symm

/-- The sum of the words byte by byte; `odd` says that the first byte is a low one. -/
def sumFrom : Bool → List UInt8 → Nat
  | _, [] => 0
  | odd, b :: rest => (if odd then b.toNat else b.toNat * 256) + sumFrom (!odd) rest

theorem sumFrom_false (bytes : List UInt8) : sumFrom false bytes = (words bytes).sum := by
  induction bytes using words.induct with
  | case1 => rfl
  | case2 hi => simp [sumFrom, words]
  | case3 hi lo rest ih =>
      simp only [sumFrom, words, List.sum_cons, Bool.not_false, Bool.not_true, ih]
      simp only [Bool.false_eq_true, if_false, if_true]
      omega

theorem sumFrom_le (odd : Bool) (bytes : List UInt8) :
    sumFrom odd bytes ≤ 65280 * bytes.length := by
  induction bytes generalizing odd with
  | nil => simp [sumFrom]
  | cons b rest ih =>
      have hb := b.toNat_lt
      have hrest := ih (!odd)
      simp only [sumFrom, List.length_cons]
      split <;> omega

theorem sumFrom_append (odd : Bool) (a b : List UInt8) :
    sumFrom odd (a ++ b) = sumFrom odd a + sumFrom (odd ^^ decide (a.length % 2 = 1)) b := by
  induction a generalizing odd with
  | nil => simp [sumFrom]
  | cons x a ih =>
      have hparity : ((!odd) ^^ decide (a.length % 2 = 1)) =
          (odd ^^ decide ((x :: a).length % 2 = 1)) := by
        rw [List.length_cons]
        cases odd <;> by_cases h : a.length % 2 = 1
        all_goals
          simp [h]
          omega
      simp only [List.cons_append, sumFrom, ih, hparity]
      omega

/-- After an even number of bytes the sum starts over. -/
theorem sumFrom_append_even {a : List UInt8} (h : a.length % 2 = 0) (b : List UInt8) :
    sumFrom false (a ++ b) = sumFrom false a + sumFrom false b := by
  rw [sumFrom_append]
  simp [h]

/-- A number of 16 bits adds itself. -/
theorem sumFrom_toBytes {v : Nat} (h : v < 2 ^ 16) : sumFrom false (toBytes 2 v) = v := by
  have hhi : (v / 256).toUInt8.toNat = v / 256 := by
    rw [Nat.toUInt8_eq, UInt8.toNat_ofNat']
    omega
  have hlo : v.toUInt8.toNat = v % 256 := by
    rw [Nat.toUInt8_eq, UInt8.toNat_ofNat']
  simp only [toBytes, List.nil_append, List.singleton_append, sumFrom, Bool.not_false,
    Bool.false_eq_true, if_false, if_true, hhi, hlo]
  omega

/-- A number of 32 bits adds its two halves. -/
theorem sumFrom_toBytes_four {v : Nat} (h : v < 2 ^ 32) : sumFrom false (toBytes 4 v) = carry v := by
  have hsplit : toBytes 4 v = toBytes 2 (v / 2 ^ 16) ++ toBytes 2 (v % 2 ^ 16) := by
    have hlow : (v % 2 ^ 16 / 256).toUInt8 = (v / 256).toUInt8 ∧
        (v % 2 ^ 16).toUInt8 = v.toUInt8 := by
      simp only [← UInt8.toNat_inj, Nat.toUInt8_eq, UInt8.toNat_ofNat']
      omega
    simp only [toBytes, hlow, List.nil_append, List.append_assoc, List.singleton_append,
      Nat.div_div_eq_div_mul]
    rfl
  rw [hsplit, sumFrom_append_even (by rw [toBytes_length]), sumFrom_toBytes (by omega),
    sumFrom_toBytes (by omega), carry]

-- ============================================================================
-- Completing a sum
-- ============================================================================

/-- Adding the complement of the normal form gives the other zero. -/
theorem norm_add_complement (n : Nat) : norm (n + (65535 - norm n)) = 65535 := by
  unfold norm
  split <;> split <;> omega

/-- The sum of a string around one of its words. -/
theorem sum_words_append {a : List UInt8} (ha : a.length % 2 = 0) {v : Nat} (hv : v < 2 ^ 16)
    (b : List UInt8) : (words (a ++ (toBytes 2 v ++ b))).sum =
      sumFrom false a + sumFrom false b + v := by
  rw [← sumFrom_false, sumFrom_append_even ha, sumFrom_append_even (by rw [toBytes_length]),
    sumFrom_toBytes hv]
  omega

/-- With its checksum in a word that was zero, a string verifies. -/
theorem checksum_completed {seed c : Nat} {a b : List UInt8} (ha : a.length % 2 = 0)
    (hc : checksum seed (a ++ (toBytes 2 0 ++ b)) = c) :
    checksum seed (a ++ (toBytes 2 c ++ b)) = 0 := by
  have hlt : c < 2 ^ 16 := by
    rw [← hc, checksum]
    omega
  rw [checksum, sum_words_append ha (by omega), Nat.add_zero] at hc
  rw [checksum, sum_words_append ha hlt, ← Nat.add_assoc, ← hc, norm_add_complement]

/-- What completes a sum is its checksum, or the one zero in place of the other. -/
theorem eq_of_completes {seed c f : Nat} {a b : List UInt8} (ha : a.length % 2 = 0)
    (hf : f < 2 ^ 16) (hc : checksum seed (a ++ (toBytes 2 0 ++ b)) = c)
    (h : checksum seed (a ++ (toBytes 2 f ++ b)) = 0) : f = c ∨ f = 65535 ∧ c = 0 := by
  rw [checksum, sum_words_append ha (by omega), Nat.add_zero] at hc
  rw [checksum, sum_words_append ha hf, ← Nat.add_assoc] at h
  generalize seed + (sumFrom false a + sumFrom false b) = n at hc h
  have htop : norm (n + f) = 65535 := by
    have := norm_le (n + f)
    omega
  rw [norm_eq_top_iff] at htop
  unfold norm at hc
  split at hc <;> omega

-- ============================================================================
-- Changing a word
-- ============================================================================

theorem sum_set {ws : List Nat} {i w : Nat} (h : ws[i]? = some w) (w' : Nat) :
    (ws.set i w').sum + w = ws.sum + w' := by
  obtain ⟨hi, hget⟩ := List.getElem?_eq_some_iff.mp h
  have hself : ws.set i w = ws := by rw [← hget, List.set_getElem_self]
  have hold := List.sum_set ws i w
  have hnew := List.sum_set ws i w'
  rw [hself, if_pos hi] at hold
  rw [if_pos hi] at hnew
  omega

/-- A changed word is noticed, unless one zero takes the place of the other. -/
theorem checksum_set_ne_zero {seed i w w' : Nat} {bytes bytes' : List UInt8}
    (h : checksum seed bytes = 0) (hold : (words bytes)[i]? = some w)
    (hnew : words bytes' = (words bytes).set i w') (hne : w' ≠ w)
    (hup : ¬ (w = 0 ∧ w' = 65535)) (hdown : ¬ (w = 65535 ∧ w' = 0)) :
    checksum seed bytes' ≠ 0 := by
  intro h'
  have hsum := sum_set hold w'
  rw [← hnew] at hsum
  obtain ⟨hi, -⟩ := List.getElem?_eq_some_iff.mp hold
  have hw : w ≤ 65535 := words_le bytes w (List.mem_of_getElem? hold)
  have hw' : w' ≤ 65535 := by
    refine words_le bytes' w' ?_
    rw [hnew]
    exact List.mem_set hi w'
  have htop : ∀ b, checksum seed b = 0 → (seed + (words b).sum) % 65535 = 0 := by
    intro b hb
    have hle := norm_le (seed + (words b).sum)
    unfold checksum at hb
    exact (norm_eq_top_iff.mp (by omega)).2
  have hmod := htop bytes h
  have hmod' := htop bytes' h'
  omega

end Sponge.Lib.OnesComplement
