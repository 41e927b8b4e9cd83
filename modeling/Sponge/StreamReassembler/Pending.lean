/-
  Sponge.StreamReassembler.Pending

  The pending list as a list of separated spans.

  Forgetting the bytes, `coalesce` is the hull of touching spans and the two
  nested loops of `push_unassembled_bytes` are `Span.insert`; the position facts
  about the pending list are then those of `Sponge.Lib.Span`.  Remembering the
  bytes, coalescing strings that agree with one underlying content gives a
  string that agrees with it.

  `Inv` is what every operation keeps, whatever is pushed: `_index` counts the
  bytes written, and the pending strings lie strictly after it with a missing
  index between neighbours.
-/

import Sponge.StreamReassembler.Basic
import Sponge.Lib.Span

namespace Sponge

open Lib (Span)
open Lib.Span (Touches hull Separated Covers)

namespace ByteString

/-- The stream indices the string covers. -/
def span (b : ByteString) : Span where
  lo := b.index
  hi := b.index + b.str.length
  le := Nat.le_add_right ..

@[simp] theorem span_lo (b : ByteString) : b.span.lo = b.index := rfl

@[simp] theorem span_hi (b : ByteString) : b.span.hi = b.index + b.str.length := rfl

/-- Each byte is the one the content `f` has at its index. -/
def Agrees (f : Nat → Option UInt8) (b : ByteString) : Prop :=
  ∀ j, j < b.str.length → f (b.index + j) = b.str[j]?

/-- Cutting a string on the left and on the right keeps agreement. -/
theorem Agrees.slice {f : Nat → Option UInt8} {b : ByteString} (h : b.Agrees f) (d n : Nat) :
    Agrees f ⟨b.index + d, (b.str.drop d).take n⟩ := by
  intro j hj
  simp only [List.length_take, List.length_drop] at hj
  have := h (d + j) (by omega)
  rw [List.getElem?_take_of_lt (by omega), List.getElem?_drop, ← this, Nat.add_assoc]

/-- Gluing the tail of `b` to `a`, where `a` ends inside or at the start of `b`. -/
theorem Agrees.glue {f : Nat → Option UInt8} {a b : ByteString} (ha : a.Agrees f)
    (hb : b.Agrees f) (h : b.index ≤ a.index + a.str.length) :
    Agrees f ⟨a.index, a.str ++ b.str.drop (a.index + a.str.length - b.index)⟩ := by
  intro j hj
  simp only [List.length_append, List.length_drop] at hj
  by_cases hja : j < a.str.length
  · rw [List.getElem?_append_left hja]
    exact ha j hja
  · rw [List.getElem?_append_right (by omega), List.getElem?_drop, ← hb _ (by omega)]
    show f (a.index + j) = _
    congr 1
    omega

end ByteString

namespace StreamReassembler

open ByteString (Agrees)

-- ============================================================================
-- Coalescing
-- ============================================================================

/-- A coalesced string covers the hull of the two, which touch. -/
theorem coalesce_some {a b c : ByteString} (h : coalesce a b = some c) :
    Touches a.span b.span ∧ c.span = hull a.span b.span := by
  simp only [coalesce] at h
  split_ifs at h with h1 h2 h3 h4
  all_goals
    obtain rfl := Option.some.inj h
    refine ⟨⟨?_, ?_⟩, Lib.Span.ext ?_ ?_⟩ <;>
      simp only [ByteString.span_lo, ByteString.span_hi, Lib.Span.hull_lo, Lib.Span.hull_hi,
        List.length_append, List.length_drop] <;> omega

/-- Strings that do not coalesce do not touch. -/
theorem coalesce_none {a b : ByteString} (h : coalesce a b = none) :
    ¬ Touches a.span b.span := by
  simp only [coalesce] at h
  split_ifs at h
  rintro ⟨t1, t2⟩
  simp only [ByteString.span_lo, ByteString.span_hi] at t1 t2
  omega

/-- Coalescing keeps agreement with a common content. -/
theorem coalesce_agrees {f : Nat → Option UInt8} {a b c : ByteString} (h : coalesce a b = some c)
    (ha : a.Agrees f) (hb : b.Agrees f) : c.Agrees f := by
  simp only [coalesce] at h
  split_ifs at h with h1 h2 h3 h4
  · exact Option.some.inj h ▸ ha
  · exact Option.some.inj h ▸ hb
  · exact Option.some.inj h ▸ ha.glue hb h3.2
  · exact Option.some.inj h ▸ hb.glue ha h4.2

-- ============================================================================
-- The insertion loops
-- ============================================================================

/-- The inner loop on spans. -/
theorem mergeNext_span (res : ByteString) (l : List ByteString) :
    (mergeNext res l).map (·.span) = Lib.Span.absorb res.span (l.map (·.span)) := by
  induction l generalizing res with
  | nil => rfl
  | cons next rest ih =>
      simp only [mergeNext, List.map_cons, Lib.Span.absorb]
      cases hc : coalesce res next with
      | none => rw [if_neg (coalesce_none hc)]; rfl
      | some res' =>
          obtain ⟨ht, hs⟩ := coalesce_some hc
          rw [if_pos ht, ← hs]
          exact ih res'

/-- The outer loop on spans. -/
theorem insertSorted_span (b : ByteString) (l : List ByteString) :
    (insertSorted b l).map (·.span) = Lib.Span.insert b.span (l.map (·.span)) := by
  induction l with
  | nil => rfl
  | cons iter rest ih =>
      simp only [insertSorted, List.map_cons, Lib.Span.insert]
      by_cases hlt : b.span.hi < iter.span.lo
      · rw [if_pos hlt, if_pos (by exact hlt)]
        rfl
      · rw [if_neg hlt, if_neg (by exact hlt)]
        cases hc : coalesce b iter with
        | none =>
            rw [if_neg (coalesce_none hc), ← ih]
            rfl
        | some res =>
            obtain ⟨ht, hs⟩ := coalesce_some hc
            rw [if_pos ht, ← hs]
            exact mergeNext_span res rest

/-- The inner loop keeps agreement. -/
theorem mergeNext_agrees {f : Nat → Option UInt8} {res : ByteString} {l : List ByteString}
    (hres : res.Agrees f) (hl : ∀ x ∈ l, Agrees f x) : ∀ x ∈ mergeNext res l, Agrees f x := by
  induction l generalizing res with
  | nil => simpa [mergeNext] using hres
  | cons next rest ih =>
      obtain ⟨hn, hrest⟩ := List.forall_mem_cons.mp hl
      simp only [mergeNext]
      cases hc : coalesce res next with
      | none => exact List.forall_mem_cons.mpr ⟨hres, hl⟩
      | some res' => exact ih (coalesce_agrees hc hres hn) hrest

/-- The outer loop keeps agreement. -/
theorem insertSorted_agrees {f : Nat → Option UInt8} {b : ByteString} {l : List ByteString}
    (hb : b.Agrees f) (hl : ∀ x ∈ l, Agrees f x) : ∀ x ∈ insertSorted b l, Agrees f x := by
  induction l with
  | nil => simpa [insertSorted] using hb
  | cons iter rest ih =>
      obtain ⟨hi, hrest⟩ := List.forall_mem_cons.mp hl
      simp only [insertSorted]
      split
      · exact List.forall_mem_cons.mpr ⟨hb, hl⟩
      · cases hc : coalesce b iter with
        | none => exact List.forall_mem_cons.mpr ⟨hi, ih hrest⟩
        | some res => exact mergeNext_agrees (coalesce_agrees hc hb hi) hrest

-- ============================================================================
-- Insertions that change nothing
-- ============================================================================

/-- A pending string has all of `new`: it is the same string, or covers it and more. -/
def Has (b new : ByteString) : Prop :=
  b = new ∨ b.index ≤ new.index ∧ new.index + new.str.length ≤ b.index + b.str.length ∧
    new.str.length < b.str.length

instance (b new : ByteString) : Decidable (Has b new) := inferInstanceAs (Decidable (_ ∨ _))

theorem Has.covers {b new : ByteString} (h : Has b new) :
    b.index ≤ new.index ∧ new.index + new.str.length ≤ b.index + b.str.length := by
  rcases h with rfl | h
  · exact ⟨Nat.le_refl _, Nat.le_refl _⟩
  · exact ⟨h.1, h.2.1⟩

/-- The inner loop swallows, so it leaves at most one string more than it is given. -/
theorem mergeNext_length_le (res : ByteString) (l : List ByteString) :
    (mergeNext res l).length ≤ l.length + 1 := by
  induction l generalizing res with
  | nil => exact Nat.le_refl _
  | cons next rest ih =>
      rw [mergeNext]
      split
      · exact Nat.le_trans (ih _) (Nat.le_succ _)
      · exact Nat.le_refl _

/-- If the list is left as it was behind it, the inner loop swallowed nothing. -/
theorem eq_of_mergeNext_eq {res b : ByteString} {l : List ByteString}
    (h : mergeNext res l = b :: l) : res = b := by
  cases l with
  | nil => exact (List.cons_eq_cons.mp h).1
  | cons next rest =>
      rw [mergeNext] at h
      split at h
      · next res' _ =>
          have hle := mergeNext_length_le res' rest
          rw [h] at hle
          simp only [List.length_cons] at hle
          omega
      · exact (List.cons_eq_cons.mp h).1

/-- The inner loop swallows nothing that the string does not touch. -/
theorem mergeNext_of_separated {b : ByteString} {l : List ByteString}
    (h : Separated (b.span.hi + 1) (l.map (·.span))) : mergeNext b l = b :: l := by
  cases l with
  | nil => rfl
  | cons next rest =>
      have hlo : b.index + b.str.length + 1 ≤ next.index := h.1
      rw [mergeNext]
      cases hc : coalesce b next with
      | none => rfl
      | some c =>
          obtain ⟨htouch, -⟩ := coalesce_some hc
          have hle : next.index ≤ b.index + b.str.length := htouch.2
          omega

/-- Coalescing with a string leaves that string as it was exactly if it has all of the
    new one. -/
theorem coalesce_eq_right_iff {new b : ByteString} : coalesce new b = some b ↔ Has b new := by
  simp only [coalesce]
  split_ifs with h1 h2 h3 h4
  · -- the new string covers the other, so the two would be the same
    rw [Option.some_inj, eq_comm]
    exact ⟨Or.inl, fun h => h.elim id fun h => by omega⟩
  · exact iff_of_true rfl (Or.inr (by omega))
  · refine iff_of_false (fun heq => ?_) fun h => absurd h.covers.1 (Nat.not_le_of_lt h3.1)
    have hidx := congrArg ByteString.index (Option.some.inj heq)
    exact absurd hidx (Nat.ne_of_lt h3.1)
  · refine iff_of_false (fun heq => ?_) fun h => h2 h.covers
    have hlen := congrArg (fun c => c.str.length) (Option.some.inj heq)
    simp only [List.length_append, List.length_drop] at hlen
    omega
  · exact iff_of_false nofun fun h => h2 h.covers

/-- A later string that has all of the new one lies behind a gap. -/
theorem Has.behind {new b iter : ByteString} {rest : List ByteString} {lo : Nat}
    (hsep : Separated lo ((iter :: rest).map (·.span))) (hb : b ∈ rest) (h : Has b new) :
    iter.index + iter.str.length < new.index := by
  have hlo : iter.index + iter.str.length + 1 ≤ b.index :=
    hsep.2.lo_le (List.mem_map_of_mem hb)
  have hcover := h.covers
  omega

/-- Storing a string changes nothing exactly if a pending string has all of it. -/
theorem insertSorted_eq_self_iff {new : ByteString} {l : List ByteString} {lo : Nat}
    (hsep : Separated lo (l.map (·.span))) :
    insertSorted new l = l ↔ ∃ b ∈ l, Has b new := by
  induction l generalizing lo with
  | nil => exact iff_of_false (List.cons_ne_nil _ _) (by simp)
  | cons iter rest ih =>
      simp only [insertSorted, List.mem_cons, exists_eq_or_imp]
      by_cases hbefore : new.index + new.str.length < iter.index
      · rw [if_pos hbefore]
        refine iff_of_false (fun heq => ?_) ?_
        · have hlen := congrArg List.length heq
          simp only [List.length_cons] at hlen
          omega
        · rintro (hhas | ⟨b, hb, hhas⟩)
          · have hcover := hhas.covers
            omega
          · have hgap := hhas.behind hsep hb
            omega
      · rw [if_neg hbefore]
        cases hc : coalesce new iter with
        | none =>
            have hnot : ¬ Has iter new := fun hhas => by
              rw [coalesce_eq_right_iff.mpr hhas] at hc
              cases hc
            rw [or_iff_right hnot, ← ih hsep.2]
            exact List.cons_inj_right iter
        | some res =>
            have htouch : new.index ≤ iter.index + iter.str.length := (coalesce_some hc).1.1
            have hnot : ¬ ∃ b ∈ rest, Has b new := by
              rintro ⟨b, hb, hhas⟩
              have hgap := hhas.behind hsep hb
              omega
            rw [or_iff_left hnot, ← coalesce_eq_right_iff, hc, Option.some_inj]
            refine ⟨eq_of_mergeNext_eq, ?_⟩
            rintro rfl
            exact mergeNext_of_separated hsep.2

-- ============================================================================
-- Pruning
-- ============================================================================

/-- Whatever the end node seems to hold, pruning only leaves strings out. -/
theorem pruneLoop_sublist {endNode : List ByteString → Nat} {eof : Nat} {b : ByteString}
    {bs l : List ByteString} (h : pruneLoop endNode eof b bs = some l) :
    l.Sublist (b :: bs) := by
  induction bs with
  | nil =>
      simp only [pruneLoop] at h
      split at h
      · cases h
      · exact Option.some.inj h ▸ List.Sublist.refl _
  | cons c bs ih =>
      simp only [pruneLoop] at h
      split at h
      · exact (ih h).trans ((List.Sublist.refl _).cons c |>.cons_cons b)
      · exact Option.some.inj h ▸ List.Sublist.refl _

theorem prune_sublist {endNode : List ByteString → Nat} {eof : Nat} {bs l : List ByteString}
    (h : prune endNode eof bs = some l) : l.Sublist bs := by
  cases bs with
  | nil => exact Option.some.inj h ▸ List.Sublist.refl _
  | cons b bs => exact pruneLoop_sublist h

-- ============================================================================
-- What a push can do
-- ============================================================================

/-- A push that ends within the range of `size_t` ends where it says. -/
theorem lastIndex_of_lt {data : List UInt8} {index : Nat} (h : index + data.length < 2 ^ 64) :
    lastIndex data index = index + data.length :=
  Nat.mod_eq_of_lt h

/-- Wrapping around moves the end to the left. -/
theorem lastIndex_le (data : List UInt8) (index : Nat) :
    lastIndex data index ≤ index + data.length :=
  Nat.mod_le ..

example : lastIndex [97, 98, 99] (2 ^ 64 - 1) = 2 := by decide

/-- The push is ignored: entirely outside of the window, or empty. -/
def Ignored (r : StreamReassembler) (data : List UInt8) (index : Nat) : Prop :=
  lastIndex data index ≤ r.index ∨ index > r.index + r.capacity.toNat ∨ data.length = 0

instance (r : StreamReassembler) (data : List UInt8) (index : Nat) :
    Decidable (r.Ignored data index) :=
  inferInstanceAs (Decidable (_ ∨ _ ∨ _))

/-- What a push brings that is not ignored. -/
theorem lt_of_not_ignored {r : StreamReassembler} {data : List UInt8} {index : Nat}
    (h : ¬ r.Ignored data index) :
    r.index < index + data.length ∧ index ≤ r.index + r.capacity.toNat ∧ 0 < data.length := by
  have hle := lastIndex_le data index
  simp only [Ignored] at h
  omega

/-- The bytes that the output has room for. -/
def room (r : StreamReassembler) : Nat := r.capacity.toNat - r.output.bufferSize

/-- The room left in the output bounds a push at or before `_index`. -/
theorem rightBound_index (r : StreamReassembler) : r.rightBound r.index = r.room := by
  have hcap := r.capacity.toNat_lt
  have hfits : r.output.bufferSize ≤ r.capacity.toNat := r.sized ▸ r.output.fits
  unfold rightBound room sizeSub
  omega

/-- The string that a push which is not ignored inserts. -/
def cut (r : StreamReassembler) (data : List UInt8) (index : Nat) : ByteString where
  index := max index r.index
  str := (data.drop (r.index - index)).take (r.rightBound (max index r.index))

theorem trim_eq_cut {r : StreamReassembler} {data : List UInt8} {index : Nat}
    (h : r.index < index + data.length) : r.trim data index = some (r.cut data index) := by
  unfold trim cut
  by_cases hlt : index < r.index
  · have hmax : max index r.index = index + (r.index - index) := by omega
    rw [if_pos hlt, if_pos (by omega), hmax]
  · have hmax : max index r.index = index := by omega
    have hsub : r.index - index = 0 := by omega
    rw [if_neg hlt, hmax, hsub, List.drop_zero]

/-- The first pending string, when it starts at `_index`, is written and popped. -/
def flushFront (r : StreamReassembler) (b : ByteString) (rest : List ByteString) :
    StreamReassembler :=
  { r.writeToOutput b with unassembled := rest }

/-- What a push does to the reassembler. -/
inductive PushCase (r : StreamReassembler) (data : List UInt8) (index : Nat) :
    StreamReassembler → Prop
  /-- nothing is taken from the push -/
  | ignored : r.Ignored data index → PushCase r data index r
  /-- the cut string is stored, and the front is not due -/
  | stored (h : ByteString) (rest : List ByteString) :
      ¬ r.Ignored data index →
      insertSorted (r.cut data index) r.unassembled = h :: rest → h.index ≠ r.index →
      PushCase r data index { r with unassembled := h :: rest }
  /-- the cut string is stored, and the front is written -/
  | flushed (h : ByteString) (rest : List ByteString) :
      ¬ r.Ignored data index →
      insertSorted (r.cut data index) r.unassembled = h :: rest → h.index = r.index →
      PushCase r data index (r.flushFront h rest)

theorem insertSorted_ne_nil (b : ByteString) (l : List ByteString) : insertSorted b l ≠ [] := by
  have hm : ∀ (l : List ByteString) (res : ByteString), mergeNext res l ≠ [] := by
    intro l
    induction l with
    | nil => simp [mergeNext]
    | cons next rest ih =>
        intro res
        simp only [mergeNext]
        split
        · exact ih _
        · simp
  cases l with
  | nil => simp [insertSorted]
  | cons iter rest =>
      simp only [insertSorted]
      split
      · simp
      · split
        · exact hm rest _
        · simp

theorem pushData_cases (r : StreamReassembler) (data : List UInt8) (index : Nat) :
    PushCase r data index (r.pushData data index) := by
  unfold pushData
  split
  · next hig => exact .ignored hig
  · next hig =>
      have hlt := (lt_of_not_ignored hig).1
      obtain ⟨h, rest, hl⟩ := List.exists_cons_of_ne_nil
        (insertSorted_ne_nil (r.cut data index) r.unassembled)
      simp only [pushUnassembledBytes, trim_eq_cut hlt, flushToOutput, hl]
      split
      · next heq => exact .flushed h rest hig hl heq
      · next hne => exact .stored h rest hig hl hne

/-- What an operation does to the reassembler: an end is announced before the data is
    dealt with. -/
inductive StepCase (r : StreamReassembler) : Op → StreamReassembler → Prop
  | read (len : Nat) : StepCase r (.read len) (r.read len)
  | pushed (data : List UInt8) (index : Nat) :
      StepCase r (.push data index false) (r.pushData data index)
  | announced (data : List UInt8) (index : Nat) (t : StreamReassembler) :
      r.setEof (lastIndex data index) = some t →
      StepCase r (.push data index true) (t.pushData data index)

theorem step_cases {r r' : StreamReassembler} {op : Op} (h : r.step op = some r') :
    StepCase r op r' := by
  cases op with
  | read len =>
      obtain rfl := Option.some.inj h
      exact .read len
  | push data index eof =>
      cases eof with
      | false =>
          obtain rfl := Option.some.inj h
          exact .pushed data index
      | true =>
          obtain ⟨t, ht, rfl⟩ := Option.map_eq_some_iff.mp h
          exact .announced data index t ht

/-- Nothing is taken from an empty push. -/
theorem pushData_nil (r : StreamReassembler) (index : Nat) : r.pushData [] index = r :=
  if_pos (Or.inr (Or.inr rfl))

-- ============================================================================
-- The representation invariant
-- ============================================================================

/-- The spans of the pending list. -/
def spans (r : StreamReassembler) : List Span := r.unassembled.map (·.span)

/-- What every operation keeps, whatever is pushed. -/
structure Inv (r : StreamReassembler) : Prop where
  /-- `_index` counts the bytes written to the output. -/
  written : r.output.bytesWritten = r.index
  /-- Pending strings lie strictly after `_index`, with a gap between neighbours. -/
  separated : Separated (r.index + 1) r.spans

theorem inv_new (endNode : List ByteString → Nat) (capacity : UInt64) :
    (new endNode capacity).Inv where
  written := rfl
  separated := trivial

section Flush

variable (r : StreamReassembler) (b : ByteString) (rest : List ByteString)

/-- Number of bytes of `b` that the output accepts. -/
def accepted : Nat := r.output.bytesToWrite b.str

theorem accepted_le : r.accepted b ≤ b.str.length := by
  rw [accepted, ByteStream.bytesToWrite_eq]
  exact Nat.min_le_left ..

@[simp] theorem flushFront_index : (r.flushFront b rest).index = r.index + r.accepted b := rfl

@[simp] theorem flushFront_unassembled : (r.flushFront b rest).unassembled = rest := rfl

@[simp] theorem flushFront_eofSet : (r.flushFront b rest).eofSet = r.eofSet := rfl

@[simp] theorem flushFront_eof : (r.flushFront b rest).eof = r.eof := rfl

@[simp] theorem flushFront_capacity : (r.flushFront b rest).capacity = r.capacity := rfl

theorem flushFront_output : (r.flushFront b rest).output =
    if r.index + r.accepted b = r.eof ∧ r.eofSet then (r.output.write b.str).2.endInput
    else (r.output.write b.str).2 := rfl

@[simp] theorem flushFront_bytesWritten :
    (r.flushFront b rest).output.bytesWritten = r.output.bytesWritten + r.accepted b := by
  rw [flushFront_output]
  split <;> rfl

@[simp] theorem flushFront_bytesRead :
    (r.flushFront b rest).output.bytesRead = r.output.bytesRead := by
  rw [flushFront_output]
  split <;> rfl

@[simp] theorem flushFront_buffer :
    (r.flushFront b rest).output.buffer = r.output.buffer ++ b.str.take (r.accepted b) := by
  rw [flushFront_output]
  split <;> rfl

end Flush

/-- The spans after the insertion start at or after `_index`. -/
theorem separated_insertSorted {r : StreamReassembler} (hinv : r.Inv) (data : List UInt8)
    (index : Nat) :
    Separated r.index ((insertSorted (r.cut data index) r.unassembled).map (·.span)) := by
  rw [insertSorted_span]
  exact Lib.Span.separated_insert (Nat.le_max_right ..) (hinv.separated.mono (Nat.le_succ _))

/-- The front is due after an insertion exactly if the push does not start behind
    `_index`. -/
theorem Inv.front_due_iff {r : StreamReassembler} (hinv : r.Inv) {data : List UInt8} {index : Nat}
    {h : ByteString} {rest : List ByteString}
    (hl : insertSorted (r.cut data index) r.unassembled = h :: rest) :
    h.index = r.index ↔ index ≤ r.index := by
  have hspans := insertSorted_span (r.cut data index) r.unassembled
  rw [hl, List.map_cons] at hspans
  have hcut : (r.cut data index).span.lo = max index r.index := rfl
  constructor
  · intro hdue
    by_contra hlt
    have hsep : Separated (r.index + 1) (h.span :: rest.map (·.span)) := by
      rw [hspans]
      exact Lib.Span.separated_insert (by omega) hinv.separated
    have hlo : r.index + 1 ≤ h.index := hsep.1
    omega
  · intro hle
    have hlo : h.index ≤ max index r.index := Lib.Span.insert_lo_le hspans.symm
    have hsep := separated_insertSorted hinv data index
    rw [hl] at hsep
    have hge : r.index ≤ h.index := hsep.1
    omega

/-- A push keeps the representation invariant. -/
theorem Inv.pushData {r : StreamReassembler} (hinv : r.Inv) (data : List UInt8) (index : Nat) :
    (r.pushData data index).Inv := by
  have hsep := separated_insertSorted hinv data index
  have hcase := pushData_cases r data index
  generalize r.pushData data index = r' at hcase ⊢
  cases hcase with
  | ignored _ => exact hinv
  | stored h rest _ hl hne =>
      rw [hl] at hsep
      have hlo : r.index ≤ h.index := hsep.1
      exact ⟨hinv.written, ⟨by simp only [ByteString.span_lo]; omega, hsep.2⟩⟩
  | flushed h rest _ hl heq =>
      rw [hl] at hsep
      refine ⟨?_, ?_⟩
      · rw [flushFront_bytesWritten, hinv.written, flushFront_index]
      · refine Lib.Span.Separated.mono ?_ hsep.2
        have := accepted_le r h
        simp only [flushFront_index, ByteString.span_hi]
        omega

/-- `set_eof` touches neither `_index` nor the bytes, and only leaves pending
    strings out. -/
theorem setEof_some {r r' : StreamReassembler} {eof : Nat} (h : r.setEof eof = some r') :
    r'.index = r.index ∧ r'.capacity = r.capacity ∧ r'.eof = eof ∧ r'.eofSet = true ∧
      r'.output = (if eof ≤ r.index + 1 then r.output.endInput else r.output) ∧
      r'.unassembled.Sublist r.unassembled := by
  simp only [setEof, Option.map_eq_some_iff] at h
  obtain ⟨l, hl, rfl⟩ := h
  exact ⟨rfl, rfl, rfl, rfl, rfl, prune_sublist hl⟩

theorem Inv.setEof {r r' : StreamReassembler} (hinv : r.Inv) {eof : Nat}
    (h : r.setEof eof = some r') : r'.Inv := by
  obtain ⟨hidx, -, -, -, hout, hsub⟩ := setEof_some h
  refine ⟨?_, ?_⟩
  · rw [hout, hidx, ← hinv.written]
    split <;> rfl
  · rw [hidx]
    exact hinv.separated.sublist (hsub.map _)

theorem Inv.read {r : StreamReassembler} (hinv : r.Inv) (len : Nat) : (r.read len).Inv :=
  ⟨hinv.written, hinv.separated⟩

theorem Inv.popOutput {r : StreamReassembler} (hinv : r.Inv) (len : Nat) :
    (r.popOutput len).Inv :=
  ⟨hinv.written, hinv.separated⟩

theorem Inv.setError {r : StreamReassembler} (hinv : r.Inv) : r.setError.Inv :=
  ⟨hinv.written, hinv.separated⟩

/-- Every step keeps the representation invariant. -/
theorem Inv.step {r r' : StreamReassembler} (hinv : r.Inv) {op : Op} (h : r.step op = some r') :
    r'.Inv := by
  cases step_cases h with
  | read len => exact hinv.read len
  | pushed data index => exact hinv.pushData data index
  | announced data index t ht => exact (hinv.setEof ht).pushData data index

theorem Inv.pushSubstring {r r' : StreamReassembler} (hinv : r.Inv) {data : List UInt8}
    {index : Nat} {eof : Bool} (h : r.pushSubstring data index eof = some r') : r'.Inv :=
  hinv.step (show r.step (.push data index eof) = some r' from h)

end StreamReassembler

end Sponge
