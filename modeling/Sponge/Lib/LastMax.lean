/-
  Sponge.Lib.LastMax

  The last of the greatest admissible elements of a list.

  `LastMax ok key l a` says that `a` stands in `l` at a place where no admissible
  element before it has a greater key and none after it as great a one.  A scan from
  the left that replaces its candidate whenever it meets a key at least as great keeps
  it (`snoc_new`, `snoc_old`).
-/

import Mathlib.Data.List.Basic

namespace Sponge.Lib

variable {α β : Type*}

/-- `a` is the last of the admissible elements with the greatest key. -/
def LastMax (ok : α → Prop) (key : α → Nat) (l : List α) (a : α) : Prop :=
  ∃ before behind, l = before ++ a :: behind ∧ ok a ∧
    (∀ b ∈ before, ok b → key b ≤ key a) ∧ ∀ b ∈ behind, ok b → key b < key a

namespace LastMax

variable {ok : α → Prop} {key : α → Nat} {l : List α} {a x : α}

theorem mem (h : LastMax ok key l a) : a ∈ l := by
  obtain ⟨before, behind, rfl, -⟩ := h
  simp

theorem key_le (h : LastMax ok key l a) : ∀ b ∈ l, ok b → key b ≤ key a := by
  obtain ⟨before, behind, rfl, -, hbefore, hbehind⟩ := h
  intro b hb hok
  rcases List.mem_append.mp hb with hb | hb
  · exact hbefore b hb hok
  · rcases List.mem_cons.mp hb with rfl | hb
    · exact Nat.le_refl _
    · exact Nat.le_of_lt (hbehind b hb hok)

/-- An element whose key no admissible one exceeds, at the end of the list. -/
theorem of_le (hx : ok x) (hle : ∀ b ∈ l, ok b → key b ≤ key x) : LastMax ok key (l ++ [x]) x :=
  ⟨l, [], rfl, hx, hle, by simp⟩

/-- The scan meets a key that is at least as great. -/
theorem snoc_new (h : LastMax ok key l a) (hx : ok x) (hle : key a ≤ key x) :
    LastMax ok key (l ++ [x]) x :=
  of_le hx fun b hb hok => Nat.le_trans (h.key_le b hb hok) hle

/-- The scan meets an element that is not admissible or has a smaller key. -/
theorem snoc_old (h : LastMax ok key l a) (hx : ok x → key x < key a) :
    LastMax ok key (l ++ [x]) a := by
  obtain ⟨before, behind, rfl, ha, hbefore, hbehind⟩ := h
  refine ⟨before, behind ++ [x], by simp, ha, hbefore, ?_⟩
  intro b hb hok
  rcases List.mem_append.mp hb with hb | hb
  · exact hbehind b hb hok
  · obtain rfl := List.mem_singleton.mp hb
    exact hx hok

/-- The last greatest element of an image is the image of one. -/
theorem of_map {f : β → α} {m : List β} (h : LastMax ok key (m.map f) a) :
    ∃ b, f b = a ∧ LastMax (fun b => ok (f b)) (fun b => key (f b)) m b := by
  obtain ⟨before, behind, heq, ha, hbefore, hbehind⟩ := h
  obtain ⟨before', rest, rfl, rfl, hrest⟩ := List.map_eq_append_iff.mp heq
  obtain ⟨b, behind', rfl, rfl, rfl⟩ := List.map_eq_cons_iff.mp hrest
  refine ⟨b, rfl, before', behind', rfl, ha, ?_, ?_⟩
  · intro c hc hok
    exact hbefore (f c) (List.mem_map_of_mem hc) hok
  · intro c hc hok
    exact hbehind (f c) (List.mem_map_of_mem hc) hok

theorem congr {ok' : α → Prop} (h : LastMax ok key l a) (hok : ∀ b ∈ l, ok b ↔ ok' b) :
    LastMax ok' key l a := by
  have hmem := h.mem
  obtain ⟨before, behind, rfl, ha, hbefore, hbehind⟩ := h
  refine ⟨before, behind, rfl, (hok a hmem).mp ha, ?_, ?_⟩
  · intro b hb hok'
    exact hbefore b hb ((hok b (by simp [hb])).mpr hok')
  · intro b hb hok'
    exact hbehind b hb ((hok b (by simp [hb])).mpr hok')

end LastMax

end Sponge.Lib
