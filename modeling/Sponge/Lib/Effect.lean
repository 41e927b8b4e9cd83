/-
  Sponge.Lib.Effect

  Computations on a state that return or throw (`EStateM`), and what holds where they
  end.

  `Ends p s Q E` says where `p` ends when it is started in `s`: with a value and a state
  that satisfy `Q`, or with an exception and a state that satisfy `E`.  There is one
  rewrite rule for each way to build a computation, so the claim about a whole
  computation comes down to claims about its parts; `mono` weakens what is claimed, and
  `and` puts two claims about the same computation together.  `onPart` runs a
  computation on a part of the state.
-/

import Mathlib.Logic.Basic

namespace Sponge.Lib

variable {ε σ τ α β : Type}

/-- Started in `s`, the computation returns with `Q` or throws with `E`. -/
def Ends (p : EStateM ε σ α) (s : σ) (Q : α → σ → Prop) (E : ε → σ → Prop) : Prop :=
  match p s with
  | .ok a s' => Q a s'
  | .error e s' => E e s'

/-- Run a computation on the part of the state that `view` shows. -/
def onPart (view : σ → τ) (put : σ → τ → σ) (p : EStateM ε τ α) : EStateM ε σ α := fun s =>
  match p (view s) with
  | .ok a t => .ok a (put s t)
  | .error e t => .error e (put s t)

/-- Where a computation ends can be found out by running it. -/
instance (p : EStateM ε σ α) (s : σ) (Q : α → σ → Prop) (E : ε → σ → Prop)
    [∀ a s', Decidable (Q a s')] [∀ e s', Decidable (E e s')] : Decidable (Ends p s Q E) :=
  match hp : p s with
  | .ok a s' => decidable_of_iff (Q a s') (by rw [Ends, hp])
  | .error e s' => decidable_of_iff (E e s') (by rw [Ends, hp])

namespace Ends

variable {p : EStateM ε σ α} {s : σ} {Q Q' : α → σ → Prop} {E E' : ε → σ → Prop}

theorem mono (h : Ends p s Q E) (hQ : ∀ a s', Q a s' → Q' a s') (hE : ∀ e s', E e s' → E' e s') :
    Ends p s Q' E' := by
  unfold Ends at h ⊢
  split
  · rename_i hp
    rw [hp] at h
    exact hQ _ _ h
  · rename_i hp
    rw [hp] at h
    exact hE _ _ h

theorem and (h : Ends p s Q E) (h' : Ends p s Q' E') :
    Ends p s (fun a s' => Q a s' ∧ Q' a s') (fun e s' => E e s' ∧ E' e s') := by
  unfold Ends at h h' ⊢
  split
  · rename_i hp
    rw [hp] at h h'
    exact ⟨h, h'⟩
  · rename_i hp
    rw [hp] at h h'
    exact ⟨h, h'⟩

/-- What is claimed of a computation that returned. -/
theorem of_ok (h : Ends p s Q E) {a : α} {s' : σ} (hp : p s = .ok a s') : Q a s' := by
  unfold Ends at h
  rwa [hp] at h

/-- A computation that does not throw returns. -/
theorem exists_ok (h : Ends p s Q fun _ _ => False) : ∃ a s', p s = .ok a s' ∧ Q a s' := by
  unfold Ends at h
  split at h
  · rename_i a s' hp
    exact ⟨a, s', hp, h⟩
  · exact h.elim

/-- A computation that is known to return. -/
theorem of_eq_ok {a : α} {s' : σ} (hp : p s = .ok a s') (h : Q a s') : Ends p s Q E := by
  unfold Ends
  rwa [hp]

/-- A computation that is known to throw. -/
theorem of_eq_error {e : ε} {s' : σ} (hp : p s = .error e s') (h : E e s') : Ends p s Q E := by
  unfold Ends
  rwa [hp]

/-- What is claimed of a computation that threw. -/
theorem of_error (h : Ends p s Q E) {e : ε} {s' : σ} (hp : p s = .error e s') : E e s' := by
  unfold Ends at h
  rwa [hp] at h

end Ends

section Rules

variable {s : σ} {Q : α → σ → Prop} {E : ε → σ → Prop}

@[simp] theorem ends_pure {a : α} : Ends (pure a : EStateM ε σ α) s Q E ↔ Q a s := Iff.rfl

@[simp] theorem ends_throw {e : ε} : Ends (throw e : EStateM ε σ α) s Q E ↔ E e s := Iff.rfl

@[simp] theorem ends_get {Q : σ → σ → Prop} : Ends (get : EStateM ε σ σ) s Q E ↔ Q s s := Iff.rfl

@[simp] theorem ends_modify {f : σ → σ} {Q : PUnit → σ → Prop} :
    Ends (modify f : EStateM ε σ PUnit) s Q E ↔ Q ⟨⟩ (f s) := Iff.rfl

@[simp] theorem ends_bind {p : EStateM ε σ β} {f : β → EStateM ε σ α} :
    Ends (p >>= f) s Q E ↔ Ends p s (fun b s' => Ends (f b) s' Q E) E := by
  show (match EStateM.bind p f s with | .ok a s' => Q a s' | .error e s' => E e s') ↔
    (match p s with | .ok b s' => Ends (f b) s' Q E | .error e s' => E e s')
  unfold EStateM.bind
  cases p s <;> rfl

@[simp] theorem ends_ite {c : Prop} [Decidable c] {p q : EStateM ε σ α} :
    Ends (if c then p else q) s Q E ↔ (c → Ends p s Q E) ∧ (¬ c → Ends q s Q E) := by
  by_cases hc : c <;> simp [hc]

@[simp] theorem ends_onPart {view : σ → τ} {put : σ → τ → σ} {p : EStateM ε τ α} :
    Ends (onPart view put p) s Q E ↔
      Ends p (view s) (fun a t => Q a (put s t)) (fun e t => E e (put s t)) := by
  unfold Ends onPart
  cases p (view s) <;> rfl

end Rules

-- ============================================================================
-- Simulation
-- ============================================================================

/-- Seen through `f`, the computation `p` does what `q` does; the values they return are
    related by `R`. -/
def Simulates (f : σ → τ) (R : α → β → Prop) (p : EStateM ε σ α) (q : EStateM ε τ β) : Prop :=
  ∀ s, Ends p s (fun a s' => ∃ b, q (f s) = .ok b (f s') ∧ R a b)
    (fun e s' => q (f s) = .error e (f s'))

namespace Simulates

variable {f : σ → τ} {α' β' : Type} {R : α → β → Prop} {S : α' → β' → Prop}

theorem pure {a : α} {b : β} (h : R a b) :
    Simulates f R (pure a : EStateM ε σ α) (Pure.pure b : EStateM ε τ β) :=
  fun _ => ends_pure.mpr ⟨b, rfl, h⟩

theorem throw (e : ε) :
    Simulates f R (MonadExcept.throw e : EStateM ε σ α) (MonadExcept.throw e : EStateM ε τ β) :=
  fun _ => ends_throw.mpr rfl

theorem get : Simulates f (fun s t => t = f s) (get : EStateM ε σ σ) (MonadState.get : EStateM ε τ τ) :=
  fun s => ends_get.mpr ⟨f s, rfl, rfl⟩

theorem bind {p : EStateM ε σ α} {q : EStateM ε τ β} {k : α → EStateM ε σ α'}
    {l : β → EStateM ε τ β'} (hp : Simulates f R p q)
    (hk : ∀ a b, R a b → Simulates f S (k a) (l b)) : Simulates f S (p >>= k) (q >>= l) := by
  intro s
  rw [ends_bind]
  refine (hp s).mono ?_ ?_
  · rintro a s' ⟨b, hq, hR⟩
    have hbind : (q >>= l) (f s) = l b (f s') := by
      show EStateM.bind q l (f s) = _
      rw [EStateM.bind, hq]
    rw [hbind]
    exact hk a b hR s'
  · intro e s' hq
    show EStateM.bind q l (f s) = _
    rw [EStateM.bind, hq]

theorem ite {c : Prop} [Decidable c] {p p' : EStateM ε σ α} {q q' : EStateM ε τ β}
    (hp : Simulates f R p q) (hp' : Simulates f R p' q') :
    Simulates f R (if c then p else p') (if c then q else q') := by
  split
  · exact hp
  · exact hp'

/-- If what is simulated returns, so does what simulates it. -/
theorem of_ok {p : EStateM ε σ α} {q : EStateM ε τ β} (h : Simulates f R p q) {s : σ} {b : β}
    {t : τ} (hq : q (f s) = .ok b t) : ∃ a s', p s = .ok a s' ∧ f s' = t ∧ R a b := by
  have hs := h s
  cases hp : p s with
  | ok a s' =>
      obtain ⟨b', hq', hR⟩ := hs.of_ok hp
      rw [hq] at hq'
      injection hq' with hb ht
      exact ⟨a, s', rfl, ht.symm, hb ▸ hR⟩
  | error e s' =>
      have hq' := hs.of_error hp
      rw [hq] at hq'
      cases hq'

end Simulates

-- Unfolding it would run the computation; the rules above are enough.
attribute [irreducible] Ends

end Sponge.Lib
