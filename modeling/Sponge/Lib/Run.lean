/-
  Sponge.Lib.Run

  Finite runs of a labelled step relation, recorded with their labels.

  `Run R s es t` says that the labels `es`, oldest first, lead from `s` to `t`
  through steps of `R`.  A guard on the steps (what a caller promises, or the
  condition a theorem is stated under) is part of `R`, so "in every run whose
  steps all meet the condition" is a statement about `Run` of the guarded
  relation.  Every prefix of a run is a run, so a fact about the end of every
  run is a fact about every state that is reached.
-/

import Mathlib.Data.List.Induction

namespace Sponge.Lib

variable {σ ε : Type*}

/-- The labels `es` lead from `s` to the indexed state through steps of `R`. -/
inductive Run (R : σ → ε → σ → Prop) (s : σ) : List ε → σ → Prop
  | nil : Run R s [] s
  | snoc {es : List ε} {t : σ} (e : ε) {u : σ} :
      Run R s es t → R t e u → Run R s (es ++ [e]) u

/-- The steps a partial step function takes where the guard `ok` holds. -/
def Guarded (ok : σ → ε → Prop) (step : σ → ε → Option σ) (s : σ) (e : ε) (t : σ) : Prop :=
  ok s e ∧ step s e = some t

/-- Execute a list of labels with a partial step function, as long as the guard
    holds. -/
def exec (ok : σ → ε → Prop) [∀ s e, Decidable (ok s e)] (step : σ → ε → Option σ) :
    σ → List ε → Option σ
  | s, [] => some s
  | s, e :: es => if ok s e then (step s e).bind fun t => exec ok step t es else none

namespace Run

variable {R Q : σ → ε → σ → Prop} {s t u : σ} {es fs : List ε}

-- ============================================================================
-- Invariant rules
-- ============================================================================

/-- The invariant rule with history: what holds at the start with no labels, and
    is kept by every step that extends the history, holds of every run. -/
theorem invariant_hist {I : List ε → σ → Prop} (hinit : I [] s)
    (hstep : ∀ es t e u, I es t → R t e u → I (es ++ [e]) u)
    (h : Run R s es t) : I es t := by
  induction h with
  | nil => exact hinit
  | snoc e _ hs ih => exact hstep _ _ e _ ih hs

/-- The invariant rule. -/
theorem invariant {I : σ → Prop} (hinit : I s)
    (hstep : ∀ t e u, I t → R t e u → I u) (h : Run R s es t) : I t :=
  invariant_hist (I := fun _ => I) hinit (fun _ t e u ht hs => hstep t e u ht hs) h

/-- A measure no step decreases is not decreased by a run. -/
theorem measure_le {m : σ → Nat} (hstep : ∀ t e u, R t e u → m t ≤ m u)
    (h : Run R s es t) : m s ≤ m t := by
  induction h with
  | nil => exact Nat.le_refl _
  | snoc e _ hs ih => exact Nat.le_trans ih (hstep _ _ _ hs)

-- ============================================================================
-- Building runs
-- ============================================================================

/-- A single step is a run. -/
theorem single {e : ε} (h : R s e t) : Run R s [e] t := by
  simpa using snoc e (nil : Run R s [] s) h

/-- Runs compose. -/
theorem append (h1 : Run R s es t) (h2 : Run R t fs u) : Run R s (es ++ fs) u := by
  induction h2 with
  | nil => simpa using h1
  | snoc e _ hs ih =>
      rw [← List.append_assoc]
      exact snoc e ih hs

/-- A run without labels stays where it is. -/
theorem eq_of_nil (h : Run R s [] t) : t = s := by
  generalize hl : ([] : List ε) = l at h
  cases h with
  | nil => rfl
  | snoc e _ _ => simp at hl

/-- The last step of a run. -/
theorem snoc_inv {e : ε} (h : Run R s (es ++ [e]) u) : ∃ t, Run R s es t ∧ R t e u := by
  generalize hl : es ++ [e] = l at h
  cases h with
  | nil => simp at hl
  | snoc e' hr hs =>
      obtain ⟨rfl, he⟩ := List.append_inj' hl rfl
      obtain rfl : e = e' := by simpa using he
      exact ⟨_, hr, hs⟩

/-- The labels of a run of a step function determine its end. -/
theorem det {ok : σ → ε → Prop} {step : σ → ε → Option σ}
    (h1 : Run (Guarded ok step) s es t) (h2 : Run (Guarded ok step) s es u) : t = u := by
  induction h1 generalizing u with
  | nil => exact (eq_of_nil h2).symm
  | snoc e _ hs ih =>
      obtain ⟨t', ht', hs'⟩ := snoc_inv h2
      obtain rfl := ih ht'
      exact Option.some.inj (hs.2.symm.trans hs'.2)

/-- What the states are mapped to makes the same run. -/
theorem map {τ : Type*} {Q : τ → ε → τ → Prop} {f : σ → τ}
    (hRQ : ∀ t e u, R t e u → Q (f t) e (f u)) (h : Run R s es t) : Run Q (f s) es (f t) := by
  induction h with
  | nil => exact nil
  | snoc e _ hs ih => exact snoc e ih (hRQ _ _ _ hs)

/-- A weaker relation has all the runs of a stronger one. -/
theorem mono (hRQ : ∀ t e u, R t e u → Q t e u) (h : Run R s es t) : Run Q s es t :=
  h.map (f := id) hRQ

/-- What `exec` computes is a run. -/
theorem of_exec_eq {ok : σ → ε → Prop} [∀ s e, Decidable (ok s e)] {step : σ → ε → Option σ} :
    ∀ {es : List ε} {s : σ}, exec ok step s es = some t → Run (Guarded ok step) s es t
  | [], s, h => by
      obtain rfl : s = t := Option.some.inj h
      exact nil
  | e :: es, s, h => by
      rw [exec] at h
      split at h
      · rename_i hok
        obtain ⟨s', hs', h'⟩ := Option.bind_eq_some_iff.mp h
        exact append (single ⟨hok, hs'⟩) (of_exec_eq h')
      · exact absurd h (by simp)

/-- The run that executing a list of labels computes. -/
theorem of_exec (ok : σ → ε → Prop) [∀ s e, Decidable (ok s e)] (step : σ → ε → Option σ)
    (s : σ) (es : List ε) (hsome : (exec ok step s es).isSome) :
    Run (Guarded ok step) s es ((exec ok step s es).get hsome) :=
  of_exec_eq (Option.some_get hsome).symm

-- ============================================================================
-- Exact conditions
-- ============================================================================

/-- If `P` holds along every run whose steps meet the condition `ok`, and the
    first step that does not meet it breaks `P`, then along any run `P` holds in
    every state reached exactly when all steps meet the condition. -/
theorem always_iff {adm ok : σ → ε → Prop} {step : σ → ε → Option σ} {P : List ε → σ → Prop}
    (hgood : ∀ es t, Run (Guarded (fun s e => adm s e ∧ ok s e) step) s es t → P es t)
    (hbad : ∀ es t e u, Run (Guarded (fun s e => adm s e ∧ ok s e) step) s es t →
      adm t e → ¬ ok t e → step t e = some u → ¬ P (es ++ [e]) u)
    (h : Run (Guarded adm step) s es t) :
    (∀ fs u, fs <+: es → Run (Guarded adm step) s fs u → P fs u) ↔
      Run (Guarded (fun s e => adm s e ∧ ok s e) step) s es t := by
  constructor
  · intro hP
    induction h with
    | nil => exact nil
    | @snoc es t e u hrun hs ih =>
        have hrun' := ih fun fs v hfs hv => hP fs v (hfs.trans (List.prefix_append ..)) hv
        refine snoc e hrun' ⟨⟨hs.1, ?_⟩, hs.2⟩
        by_contra hok
        exact hbad es t e u hrun' hs.1 hok hs.2 (hP _ u (List.prefix_refl _) (snoc e hrun hs))
  · intro hrun fs u hfs hu
    obtain ⟨gs, rfl⟩ := hfs
    -- the state after `fs` is determined, so the good run passes through `u`
    refine hgood fs u ?_
    induction gs using List.reverseRecOn generalizing t with
    | nil =>
        rw [List.append_nil] at hrun
        rw [det hu (hrun.mono fun _ _ _ hs => ⟨hs.1.1, hs.2⟩)]
        exact hrun
    | append_singleton gs e ih =>
        rw [← List.append_assoc] at hrun h
        obtain ⟨v, hv, -⟩ := snoc_inv hrun
        exact ih (hv.mono fun _ _ _ hs => ⟨hs.1.1, hs.2⟩) hv

/-- The same where nothing is promised of the steps. -/
theorem always_iff_of_true {ok : σ → ε → Prop} {step : σ → ε → Option σ} {P : List ε → σ → Prop}
    (hgood : ∀ es t, Run (Guarded ok step) s es t → P es t)
    (hbad : ∀ es t e u, Run (Guarded ok step) s es t → ¬ ok t e → step t e = some u →
      ¬ P (es ++ [e]) u)
    (h : Run (Guarded (fun _ _ => True) step) s es t) :
    (∀ fs u, fs <+: es → Run (Guarded (fun _ _ => True) step) s fs u → P fs u) ↔
      Run (Guarded ok step) s es t := by
  have htrue : (fun s e => True ∧ ok s e) = ok := by
    funext s e
    exact true_and _
  have hgood' : ∀ es t, Run (Guarded (fun s e => True ∧ ok s e) step) s es t → P es t := by
    rwa [htrue]
  have hbad' : ∀ es t e u, Run (Guarded (fun s e => True ∧ ok s e) step) s es t →
      True → ¬ ok t e → step t e = some u → ¬ P (es ++ [e]) u := by
    rw [htrue]
    exact fun es t e u ht _ => hbad es t e u ht
  have hiff := always_iff hgood' hbad' h
  rwa [htrue] at hiff

end Run

end Sponge.Lib
