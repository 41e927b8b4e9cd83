/-
  Sponge.Lib.Purge

  Runs of a machine that differ in labels it does not react to.

  A machine takes a step and gives an output for every label.  `Unwinding R` says that
  states related by `R` cannot be told apart by any further labels.  If along a run the
  labels that are not visible leave the state where it is up to `R`, then the run gives
  the outputs, and ends in the state up to `R`, of the run in which they are left out
  (`outputs_purge`).  So do any two runs with the same visible labels
  (`outputs_eq_of_filter_eq`).
-/

import Mathlib.Data.List.Induction

namespace Sponge.Lib.Purge

variable {σ ε ω : Type*} (step : σ → ε → σ) (out : σ → ε → ω) (visible : ε → Bool)

/-- The outputs that a run gives for its visible labels. -/
def outputs : σ → List ε → List ω
  | _, [] => []
  | s, e :: es =>
      if visible e then out s e :: outputs (step s e) es else outputs (step s e) es

/-- What holds of every label of a run, in the state in which it comes. -/
def Along (P : σ → ε → Prop) : σ → List ε → Prop
  | _, [] => True
  | s, e :: es => P s e ∧ Along P (step s e) es

instance Along.decidable (P : σ → ε → Prop) [∀ s e, Decidable (P s e)] :
    ∀ (s : σ) (es : List ε), Decidable (Along step P s es)
  | _, [] => isTrue trivial
  | s, e :: es => @instDecidableAnd _ _ _ (Along.decidable P (step s e) es)

/-- Related states stay related and give the same outputs. -/
structure Unwinding (R : σ → σ → Prop) : Prop where
  equivalence : Equivalence R
  step : ∀ {s t : σ} (e : ε), R s t → R (step s e) (step t e)
  out : ∀ {s t : σ} (e : ε), R s t → out s e = out t e

/-- A label that is not visible leaves the state where it is. -/
def Quiet (R : σ → σ → Prop) (s : σ) (e : ε) : Prop := visible e = false → R s (step s e)

variable {step out visible} {R : σ → σ → Prop} {s t : σ} {es fs : List ε}

/-- The rule of an invariant: what it implies of each label holds along the run. -/
theorem Along.imp {I : σ → Prop} {P Q : σ → ε → Prop} (hs : I s)
    (hstep : ∀ s e, I s → I (step s e)) (hPQ : ∀ s e, I s → P s e → Q s e)
    (h : Along step P s es) : Along step Q s es := by
  induction es generalizing s with
  | nil => trivial
  | cons e es ih => exact ⟨hPQ s e hs h.1, ih (hstep s e hs) h.2⟩

theorem outputs_purge (hR : Unwinding step out R) (hquiet : Along step (Quiet step visible R) s es)
    (hst : R s t) :
    outputs step out visible s es = outputs step out visible t (es.filter visible) ∧
      R (es.foldl step s) ((es.filter visible).foldl step t) := by
  induction es generalizing s t with
  | nil => exact ⟨rfl, hst⟩
  | cons e es ih =>
      by_cases he : visible e = true
      · obtain ⟨hout, hend⟩ := ih hquiet.2 (hR.step e hst)
        rw [List.filter_cons_of_pos he, outputs, outputs, if_pos he, if_pos he, hR.out e hst, hout]
        exact ⟨rfl, hend⟩
      · -- the label is left out of the other run
        have hstay := hquiet.1 (Bool.eq_false_iff.mpr he)
        obtain ⟨hout, hend⟩ :=
          ih hquiet.2 (hR.equivalence.trans (hR.equivalence.symm hstay) hst)
        rw [List.filter_cons_of_neg he, outputs, if_neg he]
        exact ⟨hout, hend⟩

/-- Two runs with the same visible labels cannot be told apart. -/
theorem outputs_eq_of_filter_eq (hR : Unwinding step out R)
    (hes : Along step (Quiet step visible R) s es) (hfs : Along step (Quiet step visible R) s fs)
    (hsame : es.filter visible = fs.filter visible) :
    outputs step out visible s es = outputs step out visible s fs ∧
      R (es.foldl step s) (fs.foldl step s) := by
  obtain ⟨hout, hend⟩ := outputs_purge hR hes (hR.equivalence.refl s)
  obtain ⟨hout', hend'⟩ := outputs_purge hR hfs (hR.equivalence.refl s)
  rw [hsame] at hout hend
  exact ⟨hout.trans hout'.symm, hR.equivalence.trans hend (hR.equivalence.symm hend')⟩

end Sponge.Lib.Purge
