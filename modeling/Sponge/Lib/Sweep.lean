/-
  Sponge.Lib.Sweep

  One pass over a finite map that updates every entry in place or erases it.

  `sweep f m` gives the entry at `k` the value that `f` makes of it, or drops it.  What
  the pass does is best seen from the outside, one key at a time (`lookup_sweep`); two
  passes come to the same as one if they do on each entry (`sweep_sweep_eq_iff`).
  `forall_lookup_insert` and `forall_lookup_sweep` carry what holds of every entry over
  an insertion and over a pass.
-/

import Mathlib.Data.List.AList

namespace Sponge.Lib

/-- A finite map. -/
abbrev Map (α : Type) (β : Type) := AList fun _ : α => β

namespace Map

variable {α β : Type} {f g h : β → Option β}

/-- What the pass leaves of a list of entries. -/
def sweepEntries (f : β → Option β) (entries : List (Sigma fun _ : α => β)) :
    List (Sigma fun _ : α => β) :=
  entries.filterMap fun e => (f e.2).map (Sigma.mk e.1)

theorem keys_sweepEntries_sublist (f : β → Option β) (entries : List (Sigma fun _ : α => β)) :
    (sweepEntries f entries).keys.Sublist entries.keys := by
  induction entries with
  | nil => exact List.Sublist.refl _
  | cons e entries ih =>
      cases hv : f e.2 with
      | none =>
          rw [sweepEntries, List.filterMap_cons_none (by simp [hv])]
          exact ih.cons _
      | some v =>
          rw [sweepEntries, List.filterMap_cons_some (b := ⟨e.1, v⟩) (by simp [hv])]
          exact ih.cons_cons _

/-- The pass over a map. -/
def sweep (f : β → Option β) (m : Map α β) : Map α β :=
  ⟨sweepEntries f m.entries, (keys_sweepEntries_sublist f m.entries).nodup m.nodupKeys⟩

variable [DecidableEq α]

theorem dlookup_sweepEntries (k : α) {entries : List (Sigma fun _ : α => β)}
    (hnodup : entries.NodupKeys) :
    (sweepEntries f entries).dlookup k = (entries.dlookup k).bind f := by
  induction entries with
  | nil => rfl
  | cons e entries ih =>
      obtain ⟨k', v⟩ := e
      obtain ⟨hnot, hnodup⟩ := List.nodupKeys_cons.mp hnodup
      have ih := ih hnodup
      by_cases hk : k' = k
      · subst hk
        cases hv : f v with
        | none =>
            -- the entry is gone, and its key does not occur again
            rw [sweepEntries, List.filterMap_cons_none (by simp [hv]), List.dlookup_cons_eq]
            have hnone : entries.dlookup k' = none := List.dlookup_eq_none.mpr hnot
            rw [← sweepEntries, ih, hnone]
            exact hv.symm
        | some w =>
            rw [sweepEntries, List.filterMap_cons_some (b := ⟨k', w⟩) (by simp [hv]),
              List.dlookup_cons_eq, List.dlookup_cons_eq]
            exact hv.symm
      · have hskip : ∀ (w : β) (l : List (Sigma fun _ : α => β)),
            List.dlookup k (⟨k', w⟩ :: l) = l.dlookup k :=
          fun w l => List.dlookup_cons_ne l _ (Ne.symm hk)
        rw [hskip, ← ih]
        cases hv : f v with
        | none => rw [sweepEntries, List.filterMap_cons_none (by simp [hv]), sweepEntries]
        | some w =>
            rw [sweepEntries, List.filterMap_cons_some (b := ⟨k', w⟩) (by simp [hv]), hskip,
              sweepEntries]

variable {m : Map α β} {k : α} {v : β}

theorem mem_of_lookup (hv : m.lookup k = some v) : k ∈ m := by
  rw [← AList.lookup_isSome, hv]
  rfl

theorem lookup_insert_eq_ite (m : Map α β) (k k' : α) (v : β) :
    (m.insert k v).lookup k' = if k' = k then some v else m.lookup k' := by
  split
  · rename_i heq
    rw [heq, AList.lookup_insert]
  · rename_i hne
    rw [AList.lookup_insert_ne hne]

theorem lookup_erase_eq_ite (m : Map α β) (k k' : α) :
    (m.erase k).lookup k' = if k' = k then none else m.lookup k' := by
  split
  · rename_i heq
    rw [heq, AList.lookup_erase]
  · rename_i hne
    rw [AList.lookup_erase_ne hne]

/-- What holds of every entry and of a new one holds of every entry with the new one. -/
theorem forall_lookup_insert {P : β → Prop} (hm : ∀ k v, m.lookup k = some v → P v) (hv : P v) :
    ∀ k' v', (m.insert k v).lookup k' = some v' → P v' := by
  intro k' v' hv'
  rw [lookup_insert_eq_ite] at hv'
  split at hv'
  · rw [← Option.some.inj hv']
    exact hv
  · exact hm k' v' hv'

/-- Each entry is updated or dropped on its own. -/
theorem lookup_sweep (f : β → Option β) (m : Map α β) (k : α) :
    (sweep f m).lookup k = (m.lookup k).bind f :=
  dlookup_sweepEntries k m.nodupKeys

/-- Only keys of the map are left. -/
theorem mem_of_mem_sweep (hk : k ∈ sweep f m) : k ∈ m := by
  rw [← AList.lookup_isSome, lookup_sweep] at hk
  obtain ⟨w, hw⟩ := Option.isSome_iff_exists.mp hk
  obtain ⟨v, hv, -⟩ := Option.bind_eq_some_iff.mp hw
  exact mem_of_lookup hv

/-- Two passes and a third leave the same exactly if they do of every entry. -/
theorem sweep_sweep_eq_iff :
    (∀ k, (sweep g (sweep f m)).lookup k = (sweep h m).lookup k) ↔
      ∀ k v, m.lookup k = some v → (f v).bind g = h v := by
  constructor
  · intro hsame k v hv
    have hk := hsame k
    rw [lookup_sweep, lookup_sweep, lookup_sweep, hv] at hk
    exact hk
  · intro hsame k
    rw [lookup_sweep, lookup_sweep, lookup_sweep]
    cases hv : m.lookup k with
    | none => rfl
    | some v => exact hsame k v hv

/-- What `f` makes sure of holds of every entry after the pass. -/
theorem forall_lookup_sweep {P : β → Prop} (hf : ∀ v w, f v = some w → P w) :
    ∀ k v, (sweep f m).lookup k = some v → P v := by
  intro k w hw
  rw [lookup_sweep] at hw
  obtain ⟨v, -, hv⟩ := Option.bind_eq_some_iff.mp hw
  exact hf v w hv

end Map

end Sponge.Lib
