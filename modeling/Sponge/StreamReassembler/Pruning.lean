/-
  Sponge.StreamReassembler.Pruning

  What the pruning loop of `set_eof` touches.

  The loop is meant to walk the pending list from its end and to erase what starts at or
  after the announced end.  Its iterator starts at `rend()` and never moves: a round
  inspects the end node of the list, which is not a pending string, and erases the second
  string, or the end node if there is no second one.  So the loop is right only where it
  does not run at all (`prunesRight_iff`).

  What it does instead depends on the word in the end node.  `k` rounds erase the `k`
  strings after the first (`leftAfter`), and the loop returns if the word falls below the
  announced end at the latest when one string is left (`setEof_eq_none_iff`); which strings
  it leaves can be told from the list before it (`mem_setEof_iff`).  Where the word is the
  size of the list, as in libstdc++, strings are erased until fewer are left than the announced end
  (`pruneLoop_length`); pending strings that lie before a true end are always fewer, and
  stay (`Within.setEof_length`).

  With that, the state before a push tells whether it ends the output
  (`pushSubstring_inputEnded_iff`).
-/

import Sponge.StreamReassembler.Eof

namespace Sponge

open Lib (Span Run Guarded)
open Lib.Span (Separated)

namespace StreamReassembler

-- ============================================================================
-- Positions that are touched
-- ============================================================================

/-- An access of the pruning loop to a position of the list: a pending string, or `none`
    for the end node. -/
inductive Access
  | inspect (place : Option ByteString)
  | erase (place : Option ByteString)
deriving DecidableEq

/-- The position that is accessed. -/
def Access.place : Access → Option ByteString
  | .inspect place | .erase place => place

/-- `pruneLoop` with the accesses it makes, in order. -/
def pruneLoopTraced (endNode : List ByteString → Nat) (eof : Nat) (b : ByteString) :
    List ByteString → List Access × Option (List ByteString)
  | [] =>
      if endNode [b] ≥ eof then ([.inspect none, .erase none], none)
      else ([.inspect none], some [b])
  | c :: bs =>
      if endNode (b :: c :: bs) ≥ eof then
        let later := pruneLoopTraced endNode eof b bs
        (.inspect none :: .erase (some c) :: later.1, later.2)
      else ([.inspect none], some (b :: c :: bs))

/-- The accesses that `set_eof(eof)` makes to the pending list. -/
def pruneAccesses (r : StreamReassembler) (eof : Nat) : List Access :=
  match r.unassembled with
  | [] => []
  | b :: bs => (pruneLoopTraced r.endNode eof b bs).1

/-- Recording the accesses does not change what the loop does. -/
theorem pruneLoopTraced_snd (endNode : List ByteString → Nat) (eof : Nat) (b : ByteString)
    (bs : List ByteString) :
    (pruneLoopTraced endNode eof b bs).2 = pruneLoop endNode eof b bs := by
  induction bs with
  | nil =>
      rw [pruneLoopTraced, pruneLoop]
      split <;> rfl
  | cons c bs ih =>
      rw [pruneLoopTraced, pruneLoop]
      split
      · exact ih
      · rfl

/-- The loop always starts with the end node. -/
theorem inspect_none_mem_pruneLoopTraced (endNode : List ByteString → Nat) (eof : Nat)
    (b : ByteString) (bs : List ByteString) :
    .inspect none ∈ (pruneLoopTraced endNode eof b bs).1 := by
  cases bs with
  | nil =>
      rw [pruneLoopTraced]
      split <;> exact List.mem_cons_self ..
  | cons c bs =>
      rw [pruneLoopTraced]
      split <;> exact List.mem_cons_self ..

/-- `set_eof(eof)` only accesses pending strings, returns, and leaves exactly the strings
    that start before the end. -/
structure PrunesRight (r : StreamReassembler) (eof : Nat) : Prop where
  inside : ∀ a ∈ r.pruneAccesses eof, ∃ b ∈ r.unassembled, a.place = some b
  returns : ∃ r', r.setEof eof = some r' ∧ (∀ b ∈ r'.unassembled, b.index < eof) ∧
    ∀ b ∈ r.unassembled, b.index < eof → b ∈ r'.unassembled

/-- **Pruning.**  In every state and for every end, `set_eof` prunes right exactly if
    nothing is pending. -/
theorem prunesRight_iff (r : StreamReassembler) (eof : Nat) :
    r.PrunesRight eof ↔ r.unassembled = [] := by
  constructor
  · intro h
    cases hlist : r.unassembled with
    | nil => rfl
    | cons b bs =>
        -- the first access is to the end node
        have hmem : .inspect none ∈ r.pruneAccesses eof := by
          rw [pruneAccesses, hlist]
          exact inspect_none_mem_pruneLoopTraced ..
        obtain ⟨c, -, hplace⟩ := h.inside _ hmem
        cases hplace
  · intro hnil
    refine ⟨?_, ?_⟩
    · rw [pruneAccesses, hnil]
      exact List.forall_mem_nil _
    · have hprune : prune r.endNode eof r.unassembled = some [] := by
        rw [hnil]
        rfl
      refine ⟨_, congrArg (Option.map _) hprune, ?_, ?_⟩
      · exact List.forall_mem_nil _
      · rw [hnil]
        exact List.forall_mem_nil _

/-- With "c" pending at index 2, a push announces the end at index 2: the loop inspects the
    end node, and "c" stays pending although it starts at the end.  An end at index 1 makes
    it erase the end node. -/
theorem prunesRight_fails :
    ∃ r, Run (Guarded (fun _ _ => True) step) (new List.length 4) [.push [99] 2 false] r ∧
      r.pruneAccesses 2 = [.inspect none] ∧
      (r.setEof 2).map (·.unassembled) = some [⟨2, [99]⟩] ∧
      r.pruneAccesses 1 = [.inspect none, .erase none] ∧ r.setEof 1 = none ∧
      ¬ r.PrunesRight 2 := by
  refine ⟨_, Run.of_exec (fun _ _ => True) step (new List.length 4) [.push [99] 2 false]
    (by decide), by decide, by decide, by decide, by rfl, fun h => ?_⟩
  obtain ⟨b, -, hplace⟩ := h.inside (.inspect none) (by decide)
  cases hplace

-- ============================================================================
-- Which strings are left
-- ============================================================================

/-- The pending list without the `k` strings after its first. -/
def leftAfter (k : Nat) : List ByteString → List ByteString
  | [] => []
  | b :: bs => b :: bs.drop k

/-- `set_eof(last)` returns: nothing is pending, or the word in the end node is below
    `last` once some of the strings after the first are erased. -/
def CanAnnounce (r : StreamReassembler) (last : Nat) : Prop :=
  r.unassembled ≠ [] →
    ∃ k < r.unassembled.length, r.endNode (leftAfter k r.unassembled) < last

/-- `set_eof(last)` leaves `b`: the word in the end node is below `last` before the loop
    comes to `b`. -/
def Survives (r : StreamReassembler) (last : Nat) (b : ByteString) : Prop :=
  ∃ k < r.unassembled.length,
    r.endNode (leftAfter k r.unassembled) < last ∧ b ∈ leftAfter k r.unassembled

instance (r : StreamReassembler) (last : Nat) : Decidable (r.CanAnnounce last) :=
  inferInstanceAs (Decidable (_ → ∃ k < _, _))

instance (r : StreamReassembler) (last : Nat) (b : ByteString) :
    Decidable (r.Survives last b) :=
  inferInstanceAs (Decidable (∃ k < _, _ ∧ _))

theorem pruneLoop_eq_none_iff {endNode : List ByteString → Nat} {eof : Nat} {b : ByteString}
    {bs : List ByteString} :
    pruneLoop endNode eof b bs = none ↔ ∀ k ≤ bs.length, eof ≤ endNode (b :: bs.drop k) := by
  induction bs with
  | nil =>
      rw [pruneLoop]
      simp
  | cons c bs ih =>
      rw [pruneLoop]
      split
      · next hge =>
          rw [ih]
          constructor
          · intro h k hk
            cases k with
            | zero => exact hge
            | succ k => exact h k (Nat.le_of_succ_le_succ hk)
          · intro h k hk
            exact h (k + 1) (Nat.succ_le_succ hk)
      · next hlt =>
          refine iff_of_false (Option.some_ne_none _) fun h => hlt ?_
          exact h 0 (Nat.zero_le _)

theorem mem_pruneLoop_iff {endNode : List ByteString → Nat} {eof : Nat} {b : ByteString}
    {bs l : List ByteString} (h : pruneLoop endNode eof b bs = some l) {c : ByteString} :
    c ∈ l ↔ ∃ k ≤ bs.length, endNode (b :: bs.drop k) < eof ∧ c ∈ b :: bs.drop k := by
  -- a round that is not the last only moves the start of what is left
  induction bs with
  | nil =>
      rw [pruneLoop] at h
      split at h
      · cases h
      · next hlt =>
          obtain rfl := Option.some.inj h
          refine ⟨fun hc => ⟨0, Nat.le_refl _, Nat.lt_of_not_le hlt, hc⟩, ?_⟩
          rintro ⟨k, -, -, hc⟩
          rwa [List.drop_nil] at hc
  | cons d bs ih =>
      rw [pruneLoop] at h
      split at h
      · next hge =>
          rw [ih h]
          constructor
          · rintro ⟨k, hk, hstop, hc⟩
            exact ⟨k + 1, Nat.succ_le_succ hk, hstop, hc⟩
          · rintro ⟨k, hk, hstop, hc⟩
            cases k with
            | zero => exact absurd hstop (Nat.not_lt_of_le hge)
            | succ k => exact ⟨k, Nat.le_of_succ_le_succ hk, hstop, hc⟩
      · next hlt =>
          obtain rfl := Option.some.inj h
          refine ⟨fun hc => ⟨0, Nat.zero_le _, Nat.lt_of_not_le hlt, hc⟩, ?_⟩
          rintro ⟨k, -, -, hc⟩
          exact List.cons_subset_cons b (List.drop_subset k _) hc

/-- When `set_eof` does not return. -/
theorem setEof_eq_none_iff {r : StreamReassembler} {last : Nat} :
    r.setEof last = none ↔ ¬ r.CanAnnounce last := by
  rw [setEof, Option.map_eq_none_iff, CanAnnounce]
  cases r.unassembled with
  | nil => simp [prune]
  | cons b bs =>
      rw [prune, pruneLoop_eq_none_iff, imp_iff_right (List.cons_ne_nil b bs)]
      simp only [leftAfter, List.length_cons, Nat.lt_succ_iff, not_exists, not_and, Nat.not_lt]

/-- A push does not return exactly if it announces an end and `set_eof` does not. -/
theorem pushSubstring_eq_none_iff {r : StreamReassembler} {data : List UInt8} {index : Nat}
    {eof : Bool} :
    r.pushSubstring data index eof = none ↔
      eof = true ∧ ¬ r.CanAnnounce (lastIndex data index) := by
  cases eof with
  | false => simp [pushSubstring]
  | true =>
      rw [pushSubstring, if_pos rfl, Option.map_eq_none_iff, setEof_eq_none_iff,
        and_iff_right rfl]

/-- Which strings `set_eof` leaves. -/
theorem mem_setEof_iff {r r' : StreamReassembler} {last : Nat} (h : r.setEof last = some r')
    {b : ByteString} : b ∈ r'.unassembled ↔ r.Survives last b := by
  obtain ⟨l, hl, rfl⟩ := Option.map_eq_some_iff.mp h
  show b ∈ l ↔ _
  rw [Survives]
  cases hlist : r.unassembled with
  | nil =>
      rw [hlist] at hl
      obtain rfl := Option.some.inj hl
      simp
  | cons c cs =>
      rw [hlist] at hl
      rw [mem_pruneLoop_iff hl]
      simp only [leftAfter, List.length_cons, Nat.lt_succ_iff]

/-- A string that is left was pending. -/
theorem Survives.mem {r : StreamReassembler} {last : Nat} {b : ByteString}
    (h : r.Survives last b) : b ∈ r.unassembled := by
  obtain ⟨k, -, -, hb⟩ := h
  cases hlist : r.unassembled with
  | nil =>
      rw [hlist] at hb
      exact hb
  | cons c cs =>
      rw [hlist] at hb
      exact List.cons_subset_cons c (List.drop_subset k cs) hb

-- ============================================================================
-- Pushes that end the output
-- ============================================================================

/-- The byte at `k` comes with the push, or is pending and left by the pruning loop. -/
def Available (r : StreamReassembler) (data : List UInt8) (index : Nat) (eof : Bool) (k : Nat) :
    Prop :=
  index ≤ k ∧ k < index + data.length ∨
    ∃ b ∈ r.unassembled, (eof = true → r.Survives (lastIndex data index) b) ∧
      b.index ≤ k ∧ k < b.index + b.str.length

instance (r : StreamReassembler) (data : List UInt8) (index : Nat) (eof : Bool) (k : Nat) :
    Decidable (r.Available data index eof k) :=
  inferInstanceAs (Decidable (_ ∨ ∃ b ∈ r.unassembled, _))

/-- The bytes that are written to the output because of the push end at `last`: all from
    `_index` on are available up to there, and no more are, or no more have room. -/
def WritesUpTo (r : StreamReassembler) (data : List UInt8) (index : Nat) (eof : Bool)
    (last : Nat) : Prop :=
  ¬ r.Ignored data index ∧ index ≤ r.index ∧ r.index ≤ last ∧ last ≤ r.index + r.room ∧
    (∀ k < last, r.index ≤ k → r.Available data index eof k) ∧
    (last = r.index + r.room ∨ ¬ r.Available data index eof last)

instance (r : StreamReassembler) (data : List UInt8) (index : Nat) (eof : Bool) (last : Nat) :
    Decidable (r.WritesUpTo data index eof last) :=
  inferInstanceAs (Decidable (_ ∧ _ ∧ _ ∧ _ ∧ (∀ k < last, _) ∧ _))

/-- The push ends the output: it announces an end that `set_eof` takes for reached, or what
    is written ends at the end that is known. -/
def EndsOutput (r : StreamReassembler) (data : List UInt8) (index : Nat) : Bool → Prop
  | true => lastIndex data index ≤ r.index + 1 ∨
      r.WritesUpTo data index true (lastIndex data index)
  | false => r.eofSet = true ∧ r.WritesUpTo data index false r.eof

instance (r : StreamReassembler) (data : List UInt8) (index : Nat) :
    ∀ eof, Decidable (r.EndsOutput data index eof)
  | true => inferInstanceAs (Decidable (_ ∨ _))
  | false => inferInstanceAs (Decidable (_ ∧ _))

theorem covers_spans_iff {r : StreamReassembler} {k : Nat} :
    Lib.Span.Covers r.spans k ↔
      ∃ b ∈ r.unassembled, b.index ≤ k ∧ k < b.index + b.str.length := by
  simp [Lib.Span.Covers, spans, Lib.Span.mem_iff]

theorem available_false_iff {r : StreamReassembler} {data : List UInt8} {index k : Nat} :
    r.Available data index false k ↔
      index ≤ k ∧ k < index + data.length ∨ Lib.Span.Covers r.spans k := by
  simp [Available, covers_spans_iff]

/-- In the room that the output has, the bytes after an insertion at `_index` are those that
    are available. -/
theorem covers_insertSorted_iff {r : StreamReassembler} {data : List UInt8} {index : Nat}
    (hle : index ≤ r.index) {k : Nat} (hlo : r.index ≤ k) (hhi : k < r.index + r.room) :
    Lib.Span.Covers ((insertSorted (r.cut data index) r.unassembled).map (·.span)) k ↔
      r.Available data index false k := by
  rw [insertSorted_span, Lib.Span.covers_insert, available_false_iff]
  refine or_congr ?_ Iff.rfl
  simp only [Lib.Span.mem_iff, cut, ByteString.span_lo, ByteString.span_hi, Nat.max_eq_right hle,
    rightBound_index, List.length_take, List.length_drop]
  omega

/-- Of a string at `_index` the output takes what it has room for. -/
theorem index_add_accepted {r : StreamReassembler} {b : ByteString} (hb : b.index = r.index) :
    r.index + r.accepted b = min b.span.hi (r.index + r.room) := by
  rw [accepted, ByteStream.bytesToWrite_eq, r.sized, ByteString.span_hi, hb, room,
    ByteStream.bufferSize]
  omega

/-- The first string after an insertion at `_index`, and how much of it is written. -/
theorem Inv.writesUpTo_iff {r : StreamReassembler} (hinv : r.Inv) {data : List UInt8}
    {index : Nat} (hig : ¬ r.Ignored data index) {b : ByteString} {rest : List ByteString}
    (hl : insertSorted (r.cut data index) r.unassembled = b :: rest) (hb : b.index = r.index)
    (last : Nat) :
    r.WritesUpTo data index false last ↔ r.index + r.accepted b = last := by
  have hle := (hinv.front_due_iff hl).mp hb
  have hsep := separated_insertSorted hinv data index
  rw [hl, List.map_cons] at hsep
  have havail : ∀ k, r.index ≤ k → k < r.index + r.room →
      (Lib.Span.Covers (b.span :: rest.map (·.span)) k ↔ r.Available data index false k) := by
    intro k hlo hhi
    rw [← covers_insertSorted_iff hle hlo hhi, hl, List.map_cons]
  have hlo : b.span.lo = r.index := hb
  rw [index_add_accepted hb, eq_comm, hsep.front_iff (by omega), hlo]
  constructor
  · rintro ⟨-, -, hge, hroom, hall, hend⟩
    refine ⟨hge, hroom, fun k hk hlo => (havail k hlo (by omega)).mpr (hall k hk hlo), ?_⟩
    by_cases hfull : last = r.index + r.room
    · exact Or.inl hfull
    · rw [havail last hge (by omega)]
      exact hend
  · rintro ⟨hge, hroom, hall, hend⟩
    refine ⟨hig, hle, hge, hroom, fun k hk hlo => (havail k hlo (by omega)).mp (hall k hk hlo), ?_⟩
    by_cases hfull : last = r.index + r.room
    · exact Or.inl hfull
    · rw [← havail last hge (by omega)]
      exact hend

/-- What `push_substring` ends after the flag was dealt with. -/
theorem Inv.pushData_inputEnded_iff {r : StreamReassembler} (hinv : r.Inv)
    (hopen : r.output.inputEnded = false) (data : List UInt8) (index : Nat) :
    (r.pushData data index).output.inputEnded = true ↔
      r.eofSet = true ∧ r.WritesUpTo data index false r.eof := by
  have hcase := pushData_cases r data index
  generalize r.pushData data index = r' at hcase ⊢
  cases hcase with
  | ignored hig => simp [hopen, WritesUpTo, hig]
  | stored b rest hig hl hne =>
      refine iff_of_false (by simp [hopen]) ?_
      rintro ⟨-, -, hle, -⟩
      exact hne ((hinv.front_due_iff hl).mpr hle)
  | flushed b rest hig hl hb =>
      rw [hinv.writesUpTo_iff hig hl hb, flushFront_output]
      split
      · next hend => simp [hend]
      · next hend =>
          rw [ByteStream.write_inputEnded, hopen]
          simp only [Bool.false_eq_true, false_iff]
          tauto

/-- The strings left by `set_eof` are those that the condition on the push counts. -/
theorem available_setEof_iff {r r₁ : StreamReassembler} {data : List UInt8} {index : Nat}
    (h : r.setEof (lastIndex data index) = some r₁) {k : Nat} :
    r₁.Available data index false k ↔ r.Available data index true k := by
  refine or_congr Iff.rfl ⟨?_, ?_⟩
  · rintro ⟨b, hb, -, hk⟩
    have hleft := (mem_setEof_iff h).mp hb
    exact ⟨b, hleft.mem, fun _ => hleft, hk⟩
  · rintro ⟨b, -, hleft, hk⟩
    exact ⟨b, (mem_setEof_iff h).mpr (hleft rfl), nofun, hk⟩

theorem writesUpTo_setEof_iff {r r₁ : StreamReassembler} {data : List UInt8} {index : Nat}
    (h : r.setEof (lastIndex data index) = some r₁) {last : Nat} :
    r₁.WritesUpTo data index false last ↔ r.WritesUpTo data index true last := by
  obtain ⟨hidx, hcap, -, -, -, -⟩ := setEof_some h
  have hroom : r₁.room = r.room := by rw [room, room, hcap, setEof_bufferSize h]
  simp only [WritesUpTo, Ignored, hidx, hcap, hroom, available_setEof_iff h]

/-- Which pushes end the output, told from the state before them. -/
theorem Inv.pushSubstring_inputEnded_iff {r r' : StreamReassembler} (hinv : r.Inv)
    (hopen : r.output.inputEnded = false) {data : List UInt8} {index : Nat} {eof : Bool}
    (h : r.pushSubstring data index eof = some r') :
    r'.output.inputEnded = true ↔ r.EndsOutput data index eof := by
  cases step_cases (show r.step (.push data index eof) = some r' from h) with
  | pushed => exact hinv.pushData_inputEnded_iff hopen data index
  | announced _ _ r₁ h₁ =>
      obtain ⟨-, -, heof, hset, hout, -⟩ := setEof_some h₁
      by_cases hreached : lastIndex data index ≤ r.index + 1
      · rw [if_pos hreached] at hout
        have hended : r₁.output.inputEnded = true := by
          rw [hout]
          rfl
        exact iff_of_true (pushData_inputEnded hended) (Or.inl hreached)
      · rw [if_neg hreached] at hout
        rw [(hinv.setEof h₁).pushData_inputEnded_iff (hout ▸ hopen), heof,
          writesUpTo_setEof_iff h₁, EndsOutput, or_iff_right hreached, and_iff_right hset]

-- ============================================================================
-- The size of the list in its end node
-- ============================================================================

/-- Where the end node holds the size of the list, strings after the first are erased
    until fewer than `eof` are left. -/
theorem pruneLoop_length (eof : Nat) (b : ByteString) (bs : List ByteString) :
    pruneLoop List.length eof b bs =
      if eof ≤ 1 then none else some (b :: bs.drop (bs.length + 2 - eof)) := by
  induction bs with
  | nil =>
      rw [pruneLoop, List.drop_nil]
      rfl
  | cons c bs ih =>
      rw [pruneLoop, ih]
      simp only [List.length_cons]
      by_cases hlt : bs.length + 1 + 1 ≥ eof
      · rw [if_pos hlt]
        split
        · rfl
        · have hsub : bs.length + 1 + 2 - eof = bs.length + 2 - eof + 1 := by omega
          rw [hsub, List.drop_succ_cons]
      · have hsub : bs.length + 1 + 2 - eof = 0 := by omega
        rw [if_neg hlt, if_neg (by omega), hsub, List.drop_zero]

/-- Pending strings before a true end are fewer than the end. -/
theorem Within.length_lt {n : Nat} {r : StreamReassembler} (h : r.Within n)
    (hne : r.unassembled ≠ []) : r.unassembled.length < n := by
  have hspans : r.spans ≠ [] := by
    intro hnil
    exact hne (List.map_eq_nil_iff.mp hnil)
  have hlen := h.inv.separated.add_length_le (fun s hs => (h.spans_le s hs).1) hspans
  rw [spans, List.length_map] at hlen
  omega

/-- There, announcing a true end leaves the pending list as it is. -/
theorem Within.setEof_length {n : Nat} {r : StreamReassembler} (h : r.Within n)
    (hnode : r.endNode = List.length) :
    ∃ r', r.setEof n = some r' ∧ r'.unassembled = r.unassembled := by
  have hprune : prune r.endNode n r.unassembled = some r.unassembled := by
    cases hlist : r.unassembled with
    | nil => rfl
    | cons b bs =>
        have hlt := h.length_lt (by rw [hlist]; exact List.cons_ne_nil b bs)
        rw [hlist, List.length_cons] at hlt
        have hsub : bs.length + 2 - n = 0 := by omega
        rw [prune, hnode, pruneLoop_length, if_neg (by omega), hsub, List.drop_zero]
  refine ⟨_, congrArg (Option.map _) hprune, ?_⟩
  rfl

end StreamReassembler

end Sponge
