/-
  Sponge.Lib.Span

  Lists of separated half-open spans of positions, and the insertion that keeps
  them separated by merging what touches.

  `Separated lo ss` says that the spans of `ss` stand in increasing order, none
  before `lo`, with at least one position missing between neighbours.
  `insert s ss` walks the list once: it skips what lies strictly left of `s`,
  merges what touches it, and stops at the first span strictly right of it.

  The facts a user needs are that insertion keeps separation
  (`separated_insert`), that it loses and invents no position
  (`covers_insert`), and that the lengths of separated spans count their
  positions (`card_positions`) and fit below any common right bound
  (`total_le`).  Spans may be empty; an empty span covers nothing but takes
  part in merging like any other.
-/

import Mathlib.Algebra.Ring.Nat
import Mathlib.Data.Finset.Card
import Mathlib.Order.Interval.Finset.Nat

namespace Sponge.Lib

/-- The positions `lo, …, hi - 1`; empty when `lo = hi`. -/
@[ext] structure Span where
  lo : Nat
  hi : Nat
  le : lo ≤ hi

namespace Span

/-- The number of positions in the span. -/
def len (s : Span) : Nat := s.hi - s.lo

instance : Membership Nat Span where
  mem s k := s.lo ≤ k ∧ k < s.hi

theorem mem_iff {s : Span} {k : Nat} : k ∈ s ↔ s.lo ≤ k ∧ k < s.hi := Iff.rfl

/-- The spans overlap or are adjacent, so that together they have no gap. -/
def Touches (a b : Span) : Prop := a.lo ≤ b.hi ∧ b.lo ≤ a.hi

instance (a b : Span) : Decidable (Touches a b) :=
  inferInstanceAs (Decidable (_ ∧ _))

/-- The smallest span that contains both. -/
def hull (a b : Span) : Span where
  lo := min a.lo b.lo
  hi := max a.hi b.hi
  le := Nat.le_trans (Nat.min_le_left ..) (Nat.le_trans a.le (Nat.le_max_left ..))

@[simp] theorem hull_lo (a b : Span) : (hull a b).lo = min a.lo b.lo := rfl

@[simp] theorem hull_hi (a b : Span) : (hull a b).hi = max a.hi b.hi := rfl

/-- The hull of touching spans is their union. -/
theorem mem_hull {a b : Span} (h : Touches a b) {k : Nat} :
    k ∈ hull a b ↔ k ∈ a ∨ k ∈ b := by
  have ha := a.le
  have hb := b.le
  obtain ⟨h1, h2⟩ := h
  simp only [mem_iff, hull_lo, hull_hi]
  omega

-- ============================================================================
-- Separated lists
-- ============================================================================

/-- Increasing spans, none before `lo`, with a position missing between
    neighbours. -/
def Separated : Nat → List Span → Prop
  | _, [] => True
  | lo, s :: ss => lo ≤ s.lo ∧ Separated (s.hi + 1) ss

/-- Position `k` lies in one of the spans. -/
def Covers (ss : List Span) (k : Nat) : Prop := ∃ s ∈ ss, k ∈ s

@[simp] theorem covers_nil (k : Nat) : ¬ Covers [] k := by
  simp [Covers]

@[simp] theorem covers_cons (s : Span) (ss : List Span) (k : Nat) :
    Covers (s :: ss) k ↔ k ∈ s ∨ Covers ss k := by
  simp [Covers]

/-- Separation only needs a lower bound. -/
theorem Separated.mono {lo lo' : Nat} (hle : lo' ≤ lo) :
    ∀ {ss : List Span}, Separated lo ss → Separated lo' ss
  | [], _ => trivial
  | _ :: _, ⟨h1, h2⟩ => ⟨Nat.le_trans hle h1, h2⟩

/-- Every span of a separated list starts at or after its lower bound. -/
theorem Separated.lo_le {lo : Nat} {ss : List Span} (h : Separated lo ss) {s : Span}
    (hs : s ∈ ss) : lo ≤ s.lo := by
  induction ss generalizing lo with
  | nil => simp at hs
  | cons t ts ih =>
      obtain ⟨h1, h2⟩ := h
      rcases List.mem_cons.mp hs with rfl | hs'
      · exact h1
      · have := ih h2 hs'
        have := t.le
        omega

/-- Nothing before the lower bound is covered. -/
theorem Separated.not_covers {lo k : Nat} {ss : List Span} (h : Separated lo ss)
    (hk : k < lo) : ¬ Covers ss k := by
  rintro ⟨s, hs, hmem⟩
  have := h.lo_le hs
  have := hmem.1
  omega

/-- Leaving spans out keeps the rest separated. -/
theorem Separated.sublist {lo : Nat} {ss ts : List Span} (hsub : ts.Sublist ss)
    (h : Separated lo ss) : Separated lo ts := by
  induction hsub generalizing lo with
  | slnil => trivial
  | cons a _ ih =>
      have := a.le
      exact (ih h.2).mono (by have := h.1; omega)
  | cons_cons a _ ih => exact ⟨h.1, ih h.2⟩

/-- Every span ends before the next ones start. -/
theorem Separated.pairwise {lo : Nat} {ss : List Span} (h : Separated lo ss) :
    ss.Pairwise fun a b => a.hi < b.lo := by
  induction ss generalizing lo with
  | nil => exact List.Pairwise.nil
  | cons s ss ih => exact List.Pairwise.cons (fun _ ht => h.2.lo_le ht) (ih h.2)

/-- Separated spans that start below `n` are few. -/
theorem Separated.add_length_le {lo n : Nat} {ss : List Span} (h : Separated lo ss)
    (hlt : ∀ s ∈ ss, s.lo < n) (hne : ss ≠ []) : lo + ss.length ≤ n := by
  induction ss generalizing lo with
  | nil => exact absurd rfl hne
  | cons s ss ih =>
      obtain ⟨hs, hss⟩ := List.forall_mem_cons.mp hlt
      have hlo := h.1
      have hle := s.le
      rw [List.length_cons]
      by_cases hnil : ss = []
      · rw [hnil, List.length_nil]
        omega
      · have hlen := ih h.2 hss hnil
        omega

-- ============================================================================
-- Insertion
-- ============================================================================

/-- Merge `s` with the front of the list for as long as the front touches it. -/
def absorb (s : Span) : List Span → List Span
  | [] => [s]
  | t :: ts => if Touches s t then absorb (hull s t) ts else s :: t :: ts

/-- Insert `s` into a separated list, merging whatever it touches. -/
def insert (s : Span) : List Span → List Span
  | [] => [s]
  | t :: ts =>
      if s.hi < t.lo then s :: t :: ts
      else if Touches s t then absorb (hull s t) ts
      else t :: insert s ts

/-- Absorbing keeps separation when `s` starts no later than the list. -/
theorem separated_absorb {lo m : Nat} {s : Span} {ts : List Span} (hlo : lo ≤ s.lo)
    (hm : s.lo ≤ m) (h : Separated m ts) : Separated lo (absorb s ts) := by
  induction ts generalizing s m with
  | nil => exact ⟨hlo, trivial⟩
  | cons t ts ih =>
      obtain ⟨h1, h2⟩ := h
      have ht := t.le
      have hs := s.le
      simp only [absorb]
      split
      · refine ih ?_ ?_ h2
        · simp only [hull_lo]
          omega
        · simp only [hull_lo]
          omega
      · next hnt =>
          -- `s` starts first and does not reach `t`
          have hgap : s.hi < t.lo := by
            simp only [Touches, not_and] at hnt
            omega
          exact ⟨hlo, hgap, h2⟩

/-- Insertion keeps separation. -/
theorem separated_insert {lo : Nat} {s : Span} {ts : List Span} (hlo : lo ≤ s.lo)
    (h : Separated lo ts) : Separated lo (insert s ts) := by
  induction ts generalizing lo with
  | nil => exact ⟨hlo, trivial⟩
  | cons t ts ih =>
      obtain ⟨h1, h2⟩ := h
      have ht := t.le
      have hs := s.le
      simp only [insert]
      split
      · next hlt => exact ⟨hlo, hlt, h2⟩
      · next hge =>
          split
          · refine separated_absorb (m := t.hi + 1) ?_ ?_ h2
            · simp only [hull_lo]
              omega
            · simp only [hull_lo]
              omega
          · next hnt =>
              -- not left of `t` and not touching it: strictly right of it
              have hgap : t.hi < s.lo := by
                simp only [Touches, not_and] at hnt
                omega
              exact ⟨h1, ih hgap h2⟩

/-- Absorbing loses and invents no position. -/
theorem covers_absorb {s : Span} {ts : List Span} {k : Nat} :
    Covers (absorb s ts) k ↔ k ∈ s ∨ Covers ts k := by
  induction ts generalizing s with
  | nil => simp [absorb]
  | cons t ts ih =>
      simp only [absorb]
      split
      · next ht => rw [ih, mem_hull ht, covers_cons, or_assoc]
      · rw [covers_cons]

/-- Insertion loses and invents no position. -/
theorem covers_insert {s : Span} {ts : List Span} {k : Nat} :
    Covers (insert s ts) k ↔ k ∈ s ∨ Covers ts k := by
  induction ts with
  | nil => simp [insert]
  | cons t ts ih =>
      simp only [insert]
      split
      · rw [covers_cons]
      · split
        · next ht => rw [covers_absorb, mem_hull ht, covers_cons, or_assoc]
        · rw [covers_cons, covers_cons, ih]
          tauto

/-- Absorbing starts no later than what absorbs. -/
theorem absorb_lo_le {s t : Span} {ts us : List Span} (h : absorb s ts = t :: us) :
    t.lo ≤ s.lo := by
  induction ts generalizing s with
  | nil => exact Nat.le_of_eq (congrArg lo (List.cons_eq_cons.mp h).1.symm)
  | cons u ts ih =>
      rw [absorb] at h
      split at h
      · exact Nat.le_trans (ih h) (Nat.min_le_left ..)
      · exact Nat.le_of_eq (congrArg lo (List.cons_eq_cons.mp h).1.symm)

/-- After an insertion the list starts no later than what was inserted. -/
theorem insert_lo_le {s t : Span} {ts us : List Span} (h : insert s ts = t :: us) :
    t.lo ≤ s.lo := by
  cases ts with
  | nil => exact Nat.le_of_eq (congrArg lo (List.cons_eq_cons.mp h).1.symm)
  | cons u ts =>
      rw [insert] at h
      split at h
      · exact Nat.le_of_eq (congrArg lo (List.cons_eq_cons.mp h).1.symm)
      · next hge =>
          split at h
          · exact Nat.le_trans (absorb_lo_le h) (Nat.min_le_left ..)
          · next hnt =>
              obtain ⟨rfl, -⟩ := List.cons_eq_cons.mp h
              have hu := u.le
              simp only [Touches, not_and] at hnt
              omega

/-- How far the positions are covered without a gap from where the first span starts,
    and not beyond `bound`. -/
theorem Separated.front_iff {lo bound e : Nat} {s : Span} {ss : List Span}
    (h : Separated lo (s :: ss)) (hbound : s.lo ≤ bound) :
    e = min s.hi bound ↔ s.lo ≤ e ∧ e ≤ bound ∧
      (∀ k < e, s.lo ≤ k → Covers (s :: ss) k) ∧ (e = bound ∨ ¬ Covers (s :: ss) e) := by
  have hle := s.le
  have hin : ∀ k, s.lo ≤ k → k < s.hi → Covers (s :: ss) k := fun k hlo hhi =>
    (covers_cons ..).mpr (Or.inl ⟨hlo, hhi⟩)
  have hgap : ¬ Covers (s :: ss) s.hi := by
    rw [covers_cons, not_or]
    exact ⟨fun hmem => Nat.lt_irrefl _ hmem.2, h.2.not_covers (Nat.lt_succ_self _)⟩
  constructor
  · intro he
    refine ⟨by omega, by omega, fun k hk hlo => hin k hlo (by omega), ?_⟩
    by_cases hfar : s.hi ≤ bound
    · have heq : e = s.hi := by omega
      exact Or.inr (heq ▸ hgap)
    · exact Or.inl (by omega)
  · rintro ⟨hlo, hle', hall, hend⟩
    have hreach : e ≤ s.hi := by
      by_contra hnot
      exact hgap (hall s.hi (by omega) hle)
    rcases hend with hend | hend
    · omega
    · have hhi : s.hi ≤ e := by
        by_contra hnot
        exact hend (hin e hlo (by omega))
      omega

/-- A span that ends before all others is put in front of them. -/
theorem insert_of_lt {s : Span} {ts : List Span} (h : ∀ t ∈ ts, s.hi < t.lo) :
    insert s ts = s :: ts := by
  cases ts with
  | nil => rfl
  | cons t ts => exact if_pos (h t (List.mem_cons_self ..))

/-- A span that touches no other is put among them as it is. -/
theorem mem_insert_of_not_touches {s : Span} {ts : List Span} (h : ∀ t ∈ ts, ¬ Touches s t) :
    s ∈ insert s ts := by
  induction ts with
  | nil => exact List.mem_singleton_self s
  | cons t ts ih =>
      obtain ⟨ht, hts⟩ := List.forall_mem_cons.mp h
      simp only [insert, if_neg ht]
      split
      · exact List.mem_cons_self ..
      · exact List.mem_cons_of_mem _ (ih hts)

section Forall

variable {P : Span → Prop} (hhull : ∀ a b, P a → P b → P (hull a b))
include hhull

/-- Absorbing keeps what holds of all spans and of hulls. -/
theorem forall_mem_absorb {s : Span} {ts : List Span} (hs : P s) (hts : ∀ t ∈ ts, P t) :
    ∀ t ∈ absorb s ts, P t := by
  induction ts generalizing s with
  | nil => simpa [absorb] using hs
  | cons t ts ih =>
      obtain ⟨ht, hts'⟩ := List.forall_mem_cons.mp hts
      simp only [absorb]
      split
      · exact ih (hhull s t hs ht) hts'
      · exact List.forall_mem_cons.mpr ⟨hs, hts⟩

/-- Insertion keeps what holds of all spans and of hulls. -/
theorem forall_mem_insert {s : Span} {ts : List Span} (hs : P s) (hts : ∀ t ∈ ts, P t) :
    ∀ t ∈ insert s ts, P t := by
  induction ts with
  | nil => simpa [insert] using hs
  | cons t ts ih =>
      obtain ⟨ht, hts'⟩ := List.forall_mem_cons.mp hts
      simp only [insert]
      split
      · exact List.forall_mem_cons.mpr ⟨hs, hts⟩
      · split
        · exact forall_mem_absorb hhull (hhull s t hs ht) hts'
        · exact List.forall_mem_cons.mpr ⟨ht, ih hts'⟩

/-- A span that touches one of the others need not have the property itself, if the hull
    has it. -/
theorem forall_mem_insert_of_touches {lo : Nat} {s : Span} {ts : List Span}
    (hs : ∀ t, P t → P (hull s t)) (hts : ∀ t ∈ ts, P t) (hsep : Separated lo ts)
    (htouch : ∃ t ∈ ts, Touches s t) : ∀ t ∈ insert s ts, P t := by
  induction ts generalizing lo with
  | nil =>
      obtain ⟨t, ht, -⟩ := htouch
      exact absurd ht List.not_mem_nil
  | cons t ts ih =>
      obtain ⟨ht, hts'⟩ := List.forall_mem_cons.mp hts
      obtain ⟨u, hu, htu⟩ := htouch
      simp only [insert]
      split
      · next hlt =>
          -- the spans from `t` on start after the end of `s`
          have hfrom : Separated t.lo (t :: ts) := ⟨Nat.le_refl _, hsep.2⟩
          have hle := hfrom.lo_le hu
          have hreach := htu.2
          omega
      · split
        · exact forall_mem_absorb hhull (hs t ht) hts'
        · next hnt =>
            rcases List.mem_cons.mp hu with rfl | hu'
            · exact absurd htu hnt
            · exact List.forall_mem_cons.mpr ⟨ht, ih hts' hsep.2 ⟨u, hu', htu⟩⟩

end Forall

theorem hull_lt {a b : Span} (h : b.lo < b.hi) : (hull a b).lo < (hull a b).hi := by
  simp only [hull_lo, hull_hi]
  omega

/-- Inserting an empty span leaves none that is empty exactly if it touches another one. -/
theorem forall_lt_insert_iff {lo : Nat} {s : Span} {ts : List Span} (hempty : s.hi = s.lo)
    (hts : ∀ t ∈ ts, t.lo < t.hi) (hsep : Separated lo ts) :
    (∀ t ∈ insert s ts, t.lo < t.hi) ↔ ∃ t ∈ ts, Touches s t := by
  constructor
  · intro hall
    by_contra hno
    have hmem : s ∈ insert s ts :=
      mem_insert_of_not_touches fun t ht htouch => hno ⟨t, ht, htouch⟩
    have hlt := hall s hmem
    omega
  · exact forall_mem_insert_of_touches (fun _ _ _ hb => hull_lt hb) (fun _ ht => hull_lt ht)
      hts hsep

-- ============================================================================
-- Counting
-- ============================================================================

/-- The summed length of the spans. -/
def total (ss : List Span) : Nat := (ss.map len).sum

@[simp] theorem total_nil : total [] = 0 := rfl

@[simp] theorem total_cons (s : Span) (ss : List Span) : total (s :: ss) = s.len + total ss := by
  simp [total]

/-- Separated spans between `lo` and `e` have at most `e - lo` positions. -/
theorem total_le {lo e : Nat} {ss : List Span} (h : Separated lo ss)
    (he : ∀ s ∈ ss, s.hi ≤ e) : total ss ≤ e - lo := by
  induction ss generalizing lo with
  | nil => simp
  | cons s ss ih =>
      obtain ⟨h1, h2⟩ := h
      have hs := s.le
      have hse := he s (List.mem_cons_self ..)
      have := ih h2 (fun t ht => he t (List.mem_cons_of_mem _ ht))
      simp only [total_cons, len]
      omega

/-- The covered positions as a finite set. -/
def positions : List Span → Finset Nat
  | [] => ∅
  | s :: ss => Finset.Ico s.lo s.hi ∪ positions ss

theorem mem_positions {ss : List Span} {k : Nat} : k ∈ positions ss ↔ Covers ss k := by
  induction ss with
  | nil => simp [positions]
  | cons s ss ih => simp [positions, ih, mem_iff]

/-- The lengths of separated spans count the covered positions once each. -/
theorem card_positions {lo : Nat} {ss : List Span} (h : Separated lo ss) :
    (positions ss).card = total ss := by
  induction ss generalizing lo with
  | nil => rfl
  | cons s ss ih =>
      obtain ⟨-, h2⟩ := h
      have hdisj : Disjoint (Finset.Ico s.lo s.hi) (positions ss) := by
        rw [Finset.disjoint_left]
        intro k hk hk'
        have hlt := (Finset.mem_Ico.mp hk).2
        exact h2.not_covers (by omega) (mem_positions.mp hk')
      rw [positions, Finset.card_union_of_disjoint hdisj, ih h2, Nat.card_Ico, total_cons, len]

end Span

end Sponge.Lib
