/-
  Sponge.WrappingIntegers

  32-bit sequence numbers relative to an initial sequence number, and their
  translation to and from absolute 64-bit numbers (`wrapping_integers.hh`,
  `wrapping_integers.cc`).

  `unwrap` is kept in the fixed-width types of the source.  Its three candidates
  never leave the 64-bit range under the guards that protect them, so the
  differences it compares are exact (`unwrap_toNat`); what callers use is that
  an absolute number less than half a period away from the checkpoint is
  recovered (`unwrap_wrap`).
-/

import Mathlib.Data.Int.Order.Basic
import Mathlib.Tactic.SplitIfs
import Mathlib.Data.UInt

namespace Sponge

/-- `WrappingInt32`: a 32-bit integer relative to an arbitrary start. -/
structure WrappingInt32 where
  rawValue : UInt32
deriving DecidableEq, Repr

namespace WrappingInt32

/-- `operator+(WrappingInt32 a, uint32_t b)` -/
instance : HAdd WrappingInt32 UInt32 WrappingInt32 where
  hAdd a b := ⟨a.rawValue + b⟩

/-- `operator-(WrappingInt32 a, uint32_t b)` -/
instance : HSub WrappingInt32 UInt32 WrappingInt32 where
  hSub a b := a + -b

end WrappingInt32

/-- `wrap(n, isn)`: the absolute number is truncated to 32 bits and added. -/
def wrap (n : Nat) (isn : WrappingInt32) : WrappingInt32 := isn + UInt32.ofNat n

/-- `abs(_i)`: absolute value of a 64-bit word read as a signed number. -/
def abs (i : UInt64) : Int64 :=
  let i := i.toInt64
  if i ≥ 0 then i else -i

/-- `unwrap(n, isn, checkpoint)` -/
def unwrap (n isn : WrappingInt32) (checkpoint : UInt64) : UInt64 :=
  let wrappingBoundary : UInt64 := 4294967296
  let seqno := n - isn.rawValue
  let offset := checkpoint - checkpoint % wrappingBoundary
  let centerSeqno := offset + seqno.rawValue.toUInt64
  let centerDiff := abs (checkpoint - centerSeqno)
  let leftSeqno := centerSeqno - wrappingBoundary
  let rightSeqno := centerSeqno + wrappingBoundary
  -- `checkpoint > UINT32_MAX`
  if checkpoint > 4294967295 ∧ abs (checkpoint - leftSeqno) < centerDiff then leftSeqno
  -- `checkpoint < UINT64_MAX - UINT32_MAX`
  else if checkpoint < 18446744069414584320 ∧ abs (checkpoint - rightSeqno) < centerDiff then
    rightSeqno
  else centerSeqno

-- ============================================================================
-- wrap
-- ============================================================================

/-- The raw value of a wrapped number, as a natural. -/
theorem wrap_toNat (n : Nat) (isn : WrappingInt32) :
    (wrap n isn).rawValue.toNat = (isn.rawValue.toNat + n) % 2 ^ 32 := by
  show (isn.rawValue + UInt32.ofNat n).toNat = _
  rw [UInt32.toNat_add, UInt32.toNat_ofNat', Nat.add_mod_mod]

/-- Below the end of the 32-bit range nothing wraps. -/
theorem wrap_toNat_of_lt {n : Nat} {isn : WrappingInt32} (h : isn.rawValue.toNat + n < 2 ^ 32) :
    (wrap n isn).rawValue.toNat = isn.rawValue.toNat + n := by
  rw [wrap_toNat, Nat.mod_eq_of_lt h]

theorem WrappingInt32.ext_toNat {a b : WrappingInt32} (h : a.rawValue.toNat = b.rawValue.toNat) :
    a = b := by
  cases a
  cases b
  exact congrArg _ (UInt32.toNat_inj.mp h)

@[simp] theorem wrap_zero (isn : WrappingInt32) : wrap 0 isn = isn := by
  apply WrappingInt32.ext_toNat
  rw [wrap_toNat, Nat.add_zero, Nat.mod_eq_of_lt isn.rawValue.toNat_lt]

/-- Wrapping from a start that is itself wrapped adds the two distances. -/
theorem wrap_wrap (m n : Nat) (isn : WrappingInt32) :
    wrap m (wrap n isn) = wrap (n + m) isn := by
  apply WrappingInt32.ext_toNat
  rw [wrap_toNat, wrap_toNat, wrap_toNat, Nat.mod_add_mod, Nat.add_assoc]

/-- The distance from the start to a wrapped number. -/
theorem wrap_sub_toNat (n : Nat) (isn : WrappingInt32) :
    (wrap n isn - isn.rawValue).rawValue.toNat = n % 2 ^ 32 := by
  show ((wrap n isn).rawValue + -isn.rawValue).toNat = _
  have hlt := isn.rawValue.toNat_lt
  rw [UInt32.toNat_add, UInt32.toNat_neg, wrap_toNat, UInt32.size]
  omega

/-- The absolute numbers behind a sequence number: those at its distance from the
    start, up to whole periods. -/
theorem wrap_eq_iff {x : Nat} {n isn : WrappingInt32} :
    wrap x isn = n ↔ x % 2 ^ 32 = (n - isn.rawValue).rawValue.toNat := by
  constructor
  · rintro rfl
    exact (wrap_sub_toNat x isn).symm
  · intro h
    have hn := n.rawValue.toNat_lt
    have hisn := isn.rawValue.toNat_lt
    have hsub : (n - isn.rawValue).rawValue.toNat =
        (n.rawValue + -isn.rawValue).toNat := rfl
    rw [UInt32.toNat_add, UInt32.toNat_neg, UInt32.size] at hsub
    apply WrappingInt32.ext_toNat
    rw [wrap_toNat]
    omega

/-- Numbers less than a period apart from the start wrap injectively. -/
theorem wrap_inj {m n : Nat} {isn : WrappingInt32} (hm : m < 2 ^ 32) (hn : n < 2 ^ 32)
    (h : wrap m isn = wrap n isn) : m = n := by
  have hm' := wrap_sub_toNat m isn
  rw [h, wrap_sub_toNat] at hm'
  omega

-- ============================================================================
-- unwrap
-- ============================================================================

theorem toInt_toInt64 (i : UInt64) :
    i.toInt64.toInt = if i.toNat < 2 ^ 63 then (i.toNat : Int) else i.toNat - 2 ^ 64 := by
  show i.toBitVec.toInt = _
  rw [BitVec.toInt_eq_toNat_cond]
  simp only [UInt64.toNat_toBitVec]
  split_ifs <;> omega

/-- `abs` of a difference is the distance, as long as that is below `2^63`. -/
theorem abs_sub_toInt {a b : UInt64} (h : a.toNat < b.toNat + 2 ^ 63)
    (h' : b.toNat < a.toNat + 2 ^ 63) :
    (abs (a - b)).toInt = ((a.toNat : Int) - b.toNat).natAbs := by
  have ha := a.toNat_lt
  have hb := b.toNat_lt
  have hsub := UInt64.toNat_sub a b
  have hi := toInt_toInt64 (a - b)
  simp only [abs, ge_iff_le, Int64.le_iff_toInt_le]
  rw [Int64.toInt_zero]
  by_cases hle : b.toNat ≤ a.toNat
  · have hs : (a - b).toNat = a.toNat - b.toNat := by omega
    rw [hs, if_pos (by omega)] at hi
    rw [if_pos (by omega), hi]
    omega
  · have hs : (a - b).toNat = 2 ^ 64 - (b.toNat - a.toNat) := by omega
    rw [hs, if_neg (by omega)] at hi
    rw [if_neg (by omega), Int64.toInt_neg, hi, Int.bmod_eq_of_le (by omega) (by omega)]
    omega

/-- Comparing two `abs` differences compares the distances. -/
theorem abs_sub_lt_iff {a b c : UInt64} {p q r : Nat}
    (ha : a.toNat = p) (hb : b.toNat = q) (hc : c.toNat = r)
    (hq : p < q + 2 ^ 63 ∧ q < p + 2 ^ 63) (hr : p < r + 2 ^ 63 ∧ r < p + 2 ^ 63) :
    abs (a - b) < abs (a - c) ↔ ((p : Int) - q).natAbs < ((p : Int) - r).natAbs := by
  subst ha hb hc
  rw [Int64.lt_iff_toInt_lt, abs_sub_toInt hq.1 hq.2, abs_sub_toInt hr.1 hr.2]
  omega

/-- The candidate in the checkpoint's own block of `2^32` numbers. -/
def centerCandidate (n isn : WrappingInt32) (checkpoint : Nat) : Nat :=
  checkpoint - checkpoint % 2 ^ 32 + (n - isn.rawValue).rawValue.toNat

theorem centerCandidate_block (n isn : WrappingInt32) (p : Nat) :
    centerCandidate n isn p / 2 ^ 32 = p / 2 ^ 32 := by
  have hseq := (n - isn.rawValue).rawValue.toNat_lt
  unfold centerCandidate
  omega

theorem center_toNat (n isn : WrappingInt32) {checkpoint : UInt64} {p : Nat}
    (hp : checkpoint.toNat = p) :
    (checkpoint - checkpoint % 4294967296 + (n - isn.rawValue).rawValue.toUInt64).toNat =
      centerCandidate n isn p := by
  have hlt : p < 2 ^ 64 := hp ▸ checkpoint.toNat_lt
  have hseq := (n - isn.rawValue).rawValue.toNat_lt
  have hmod : (checkpoint % 4294967296).toNat = p % 2 ^ 32 := by
    rw [UInt64.toNat_mod, hp]
    rfl
  have hoff : (checkpoint - checkpoint % 4294967296).toNat = p - p % 2 ^ 32 := by
    rw [UInt64.toNat_sub, hmod, hp]
    omega
  rw [UInt64.toNat_add, hoff, UInt32.toNat_toUInt64, centerCandidate]
  omega

/-- The guard of the left candidate: the checkpoint has a block before it. -/
theorem left_guard_iff {checkpoint : UInt64} :
    checkpoint > 4294967295 ↔ 2 ^ 32 ≤ checkpoint.toNat :=
  UInt64.lt_iff_toNat_lt.trans Iff.rfl

/-- The guard of the right candidate: the checkpoint has a block after it. -/
theorem right_guard_iff {checkpoint : UInt64} :
    checkpoint < 18446744069414584320 ↔ checkpoint.toNat + 2 ^ 32 < 2 ^ 64 := by
  rw [UInt64.lt_iff_toNat_lt,
    show (18446744069414584320 : UInt64).toNat = 18446744069414584320 from rfl]
  omega

section Neighbours

variable {checkpoint center : UInt64} {p c : Nat}

-- Under its guard neither neighbour of the centre leaves the 64-bit range.

theorem left_toNat (hc : center.toNat = c) (hblock : c / 2 ^ 32 = p / 2 ^ 32) (hle : 2 ^ 32 ≤ p) :
    (center - 4294967296).toNat = c - 2 ^ 32 := by
  have hlt : c < 2 ^ 64 := hc ▸ center.toNat_lt
  rw [UInt64.toNat_sub, hc, show (4294967296 : UInt64).toNat = 2 ^ 32 from rfl]
  omega

theorem right_toNat (hc : center.toNat = c) (hblock : c / 2 ^ 32 = p / 2 ^ 32)
    (hlt : p + 2 ^ 32 < 2 ^ 64) : (center + 4294967296).toNat = c + 2 ^ 32 := by
  rw [UInt64.toNat_add, hc, show (4294967296 : UInt64).toNat = 2 ^ 32 from rfl]
  omega

theorem left_closer_iff (hp : checkpoint.toNat = p) (hc : center.toNat = c)
    (hblock : c / 2 ^ 32 = p / 2 ^ 32) :
    (checkpoint > 4294967295 ∧
        abs (checkpoint - (center - 4294967296)) < abs (checkpoint - center)) ↔
      2 ^ 32 ≤ p ∧ ((p : Int) - (c - 2 ^ 32 : Nat)).natAbs < ((p : Int) - c).natAbs := by
  rw [left_guard_iff, hp]
  refine and_congr_right fun hle => ?_
  exact abs_sub_lt_iff hp (left_toNat hc hblock hle) hc (by omega) (by omega)

theorem right_closer_iff (hp : checkpoint.toNat = p) (hc : center.toNat = c)
    (hblock : c / 2 ^ 32 = p / 2 ^ 32) :
    (checkpoint < 18446744069414584320 ∧
        abs (checkpoint - (center + 4294967296)) < abs (checkpoint - center)) ↔
      p + 2 ^ 32 < 2 ^ 64 ∧
        ((p : Int) - (c + 2 ^ 32 : Nat)).natAbs < ((p : Int) - c).natAbs := by
  rw [right_guard_iff, hp]
  refine and_congr_right fun hlt => ?_
  exact abs_sub_lt_iff hp (right_toNat hc hblock hlt) hc (by omega) (by omega)

end Neighbours

/-- `unwrap` in exact arithmetic: one of the candidates in the checkpoint's own
    block and its two neighbours, the centre one preferred on ties. -/
theorem unwrap_toNat (n isn : WrappingInt32) {checkpoint : UInt64} {p c : Nat}
    (hp : checkpoint.toNat = p) (hcc : centerCandidate n isn p = c) :
    (unwrap n isn checkpoint).toNat =
      if 2 ^ 32 ≤ p ∧ ((p : Int) - (c - 2 ^ 32 : Nat)).natAbs < ((p : Int) - c).natAbs then
        c - 2 ^ 32
      else if p + 2 ^ 32 < 2 ^ 64 ∧
          ((p : Int) - (c + 2 ^ 32 : Nat)).natAbs < ((p : Int) - c).natAbs then
        c + 2 ^ 32
      else c := by
  have hblock : c / 2 ^ 32 = p / 2 ^ 32 := hcc ▸ centerCandidate_block n isn p
  have hc := (center_toNat n isn hp).trans hcc
  simp only [unwrap]
  generalize checkpoint - checkpoint % 4294967296
      + (n - isn.rawValue).rawValue.toUInt64 = center at hc ⊢
  simp only [left_closer_iff hp hc hblock, right_closer_iff hp hc hblock]
  split_ifs with hleft hright
  · exact left_toNat hc hblock hleft.1
  · exact right_toNat hc hblock hright.1
  · exact hc

/-- An absolute number less than half a period away from the checkpoint is
    recovered from its wrapped form. -/
theorem unwrap_wrap {x : Nat} {isn : WrappingInt32} {checkpoint : UInt64} (hx : x < 2 ^ 64)
    (h1 : x < checkpoint.toNat + 2 ^ 31) (h2 : checkpoint.toNat < x + 2 ^ 31) :
    (unwrap (wrap x isn) isn checkpoint).toNat = x := by
  have hp := checkpoint.toNat_lt
  rw [unwrap_toNat _ _ rfl rfl]
  simp only [centerCandidate, wrap_sub_toNat]
  generalize checkpoint.toNat = p at *
  split_ifs <;> omega

-- ============================================================================
-- The nearest preimage
-- ============================================================================

/-- The distance between two 64-bit numbers, with nothing wrapped. -/
def distance (a b : UInt64) : Nat := ((a.toNat : Int) - b.toNat).natAbs

theorem distance_comm (a b : UInt64) : distance a b = distance b a := by
  simp only [distance]
  omega

/-- A 64-bit number that wraps to `n`, and none that does is closer to `checkpoint`. -/
structure NearestPreimage (n isn : WrappingInt32) (checkpoint r : UInt64) : Prop where
  wrap_eq : wrap r.toNat isn = n
  nearest : ∀ x : UInt64, wrap x.toNat isn = n → distance r checkpoint ≤ distance x checkpoint

/-- Where the guards of `unwrap` let it look at a neighbour of the centre candidate,
    the neighbour is the number one period away, and the comparison of the two `abs`
    values is the comparison of the two distances. -/
structure ExactChoice (checkpoint center : UInt64) : Prop where
  left : checkpoint > 4294967295 →
    (center - 4294967296).toNat + 2 ^ 32 = center.toNat ∧
    (abs (checkpoint - (center - 4294967296)) < abs (checkpoint - center) ↔
      distance (center - 4294967296) checkpoint < distance center checkpoint)
  right : checkpoint < 18446744069414584320 →
    (center + 4294967296).toNat = center.toNat + 2 ^ 32 ∧
    (abs (checkpoint - (center + 4294967296)) < abs (checkpoint - center) ↔
      distance (center + 4294967296) checkpoint < distance center checkpoint)

theorem exactChoice_of_block {checkpoint center : UInt64}
    (hblock : center.toNat / 2 ^ 32 = checkpoint.toNat / 2 ^ 32) :
    ExactChoice checkpoint center where
  left hguard := by
    have hle := left_guard_iff.mp hguard
    have hleft := left_toNat rfl hblock hle
    have hadd : (center - 4294967296).toNat + 2 ^ 32 = center.toNat := by
      rw [hleft]
      omega
    have hiff := left_closer_iff rfl rfl hblock
    rw [and_iff_right hguard, and_iff_right hle, ← hleft] at hiff
    refine ⟨hadd, ?_⟩
    rw [distance_comm _ checkpoint, distance_comm center]
    exact hiff
  right hguard := by
    have hlt := right_guard_iff.mp hguard
    have hright := right_toNat rfl hblock hlt
    have hiff := right_closer_iff rfl rfl hblock
    rw [and_iff_right hguard, and_iff_right hlt, ← hright] at hiff
    refine ⟨hright, ?_⟩
    rw [distance_comm _ checkpoint, distance_comm center]
    exact hiff

/-- The numbers that wrap to `n` are whole periods away from the centre candidate. -/
theorem centerCandidate_spacing {n isn : WrappingInt32} {x : Nat} (p : Nat)
    (hx : wrap x isn = n) :
    x = centerCandidate n isn p ∨ x + 2 ^ 32 ≤ centerCandidate n isn p ∨
      centerCandidate n isn p + 2 ^ 32 ≤ x := by
  have hmod := wrap_eq_iff.mp hx
  unfold centerCandidate
  omega

theorem wrap_unwrap (n isn : WrappingInt32) (checkpoint : UInt64) :
    wrap (unwrap n isn checkpoint).toNat isn = n := by
  have hseq := (n - isn.rawValue).rawValue.toNat_lt
  rw [wrap_eq_iff, unwrap_toNat n isn rfl rfl, centerCandidate]
  split_ifs <;> omega

theorem nearestPreimage_unwrap (n isn : WrappingInt32) (checkpoint : UInt64) :
    NearestPreimage n isn checkpoint (unwrap n isn checkpoint) where
  wrap_eq := wrap_unwrap n isn checkpoint
  nearest x hx := by
    have hlt := x.toNat_lt
    have hblock := centerCandidate_block n isn checkpoint.toNat
    have hspacing := centerCandidate_spacing checkpoint.toNat hx
    rw [distance, distance, unwrap_toNat n isn rfl rfl]
    generalize centerCandidate n isn checkpoint.toNat = c at *
    generalize checkpoint.toNat = p at *
    generalize x.toNat = y at *
    -- a whole period away from the centre `x` is at least as far as the neighbour there
    obtain rfl | hle | hle := hspacing
    · split_ifs <;> omega
    · split_ifs <;> omega
    · split_ifs <;> omega

/-- `unwrap` finds the nearest of the numbers that wrap to `n`: it recovers every number
    less than half a period away from the checkpoint, and it never misorders the
    candidates it compares. -/
theorem unwrap_nearest (n isn : WrappingInt32) (checkpoint : UInt64) :
    NearestPreimage n isn checkpoint (unwrap n isn checkpoint) ∧
    (∀ x : UInt64, distance x checkpoint < 2 ^ 31 →
      unwrap (wrap x.toNat isn) isn checkpoint = x) ∧
    ExactChoice checkpoint
      (checkpoint - checkpoint % 4294967296 + (n - isn.rawValue).rawValue.toUInt64) := by
  refine ⟨nearestPreimage_unwrap n isn checkpoint, ?_, ?_⟩
  · intro x hx
    simp only [distance] at hx
    apply UInt64.toNat_inj.mp
    exact unwrap_wrap x.toNat_lt (by omega) (by omega)
  · apply exactChoice_of_block
    rw [center_toNat n isn rfl]
    exact centerCandidate_block n isn checkpoint.toNat

end Sponge
