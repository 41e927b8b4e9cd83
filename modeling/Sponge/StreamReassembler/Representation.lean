/-
  Sponge.StreamReassembler.Representation

  What the pending list looks like after every call.

  As long as the pushes are substrings of one stream, the pending strings are pieces of it,
  in order and with a missing index between neighbours, and `_index` counts what was
  written (`represents_run`).  The two loops of `push_unassembled_bytes` need nothing else
  from their caller; only an announced end can keep a call from returning.

  A piece may be empty, though.  A push that starts exactly at the last index that fits is
  cut down to nothing.  It is swallowed by a pending string that reaches that index, or
  written and dropped if that index is `_index`; otherwise an empty string is stored.
  Nothing else stores one (`emptyMeansNone_iff_edgeTouched`).
-/

import Sponge.StreamReassembler.Coverage
import Sponge.StreamReassembler.Pruning

namespace Sponge

open Lib (Span Run Guarded)
open Lib.Span (Separated Touches)

namespace StreamReassembler

open ByteString (Agrees)

-- ============================================================================
-- Pieces of one stream
-- ============================================================================

/-- A push of a substring of `s` at its true index. -/
def Substring (s : List UInt8) (_ : StreamReassembler) : Op → Prop
  | .push data index _ =>
      index + data.length ≤ s.length ∧ data = (s.drop index).take data.length
  | .read _ => True

instance (s : List UInt8) (r : StreamReassembler) : ∀ op, Decidable (Substring s r op)
  | .push _ _ _ => inferInstanceAs (Decidable (_ ∧ _))
  | .read _ => isTrue trivial

/-- The pending list represents a part of `s`: `_index` counts the bytes written, the
    pending strings lie after it in increasing order with a missing index between them, and
    their bytes are those of `s`. -/
structure Represents (s : List UInt8) (r : StreamReassembler) : Prop where
  written : r.index = r.output.bytesWritten
  after : ∀ b ∈ r.unassembled, r.index < b.index
  increasing : r.unassembled.Pairwise fun a b => a.index + a.str.length < b.index
  bytes : ∀ b ∈ r.unassembled, ∀ j, j < b.str.length → s[b.index + j]? = b.str[j]?

theorem Inv.represents {s taken : List UInt8} {r : StreamReassembler} (hinv : r.Inv)
    (hcontent : Content (fun k => s[k]?) taken r) : r.Represents s where
  written := hinv.written.symm
  after := fun _ hb => hinv.separated.lo_le (List.mem_map_of_mem hb)
  increasing := List.pairwise_map.mp hinv.separated.pairwise
  bytes := hcontent.pending

/-- A step keeps the bytes in place. -/
theorem Content.step {s taken : List UInt8} {r r' : StreamReassembler} {op : Op}
    (h : Content (fun k => s[k]?) taken r) (hop : Substring s r op) (hs : r.step op = some r') :
    Content (fun k => s[k]?) (taken ++ r.bytesTaken op) r' := by
  cases op with
  | read len =>
      obtain rfl := Option.some.inj hs
      exact h.take rfl rfl (r.output.read_append len)
  | push data index eof =>
      rw [bytesTaken, List.append_nil]
      exact h.pushSubstring (agrees_of_eq_take hop.2) hs

/-- A true push always returns where the end node holds the size of the list. -/
theorem Within.step_isSome {s : List UInt8} {r : StreamReassembler} (h : r.Within s.length)
    (hnode : r.endNode = List.length) {op : Op} (hop : TrueSubstring s r op) :
    ∃ r', r.step op = some r' := by
  cases op with
  | read len => exact ⟨_, rfl⟩
  | push data index eof =>
      cases eof with
      | false => exact ⟨_, rfl⟩
      | true =>
          obtain ⟨r₁, h₁, -⟩ := h.setEof_length hnode
          refine ⟨r₁.pushData data index, ?_⟩
          rw [StreamReassembler.step, pushSubstring, if_pos rfl, hop.ends.lastIndex_eq, h₁,
            Option.map_some]

theorem pushData_endNode (r : StreamReassembler) (data : List UInt8) (index : Nat) :
    (r.pushData data index).endNode = r.endNode := by
  have hcase := pushData_cases r data index
  generalize r.pushData data index = r' at hcase ⊢
  cases hcase <;> rfl

theorem step_endNode {r r' : StreamReassembler} {op : Op} (hs : r.step op = some r') :
    r'.endNode = r.endNode := by
  cases step_cases hs with
  | read len => rfl
  | pushed data index => exact pushData_endNode r data index
  | announced data index t ht =>
      obtain ⟨l, -, rfl⟩ := Option.map_eq_some_iff.mp ht
      exact pushData_endNode ..

/-- **Representation.**  After every call of a run of pushes of substrings of `s` and reads
    the pending list represents a part of `s`.  Where the end node holds the size of the
    list, every call of a run returns that sets `eof` only at the end of `s`. -/
theorem represents_run (endNode : List ByteString → Nat) (capacity : UInt64) (s : List UInt8) :
    (∀ ops r, Run (Guarded (Substring s) step) (new endNode capacity) ops r → r.Represents s) ∧
    (endNode = List.length → ∀ ops r op,
      Run (Guarded (TrueSubstring s) step) (new endNode capacity) ops r →
        TrueSubstring s r op → ∃ r', r.step op = some r') := by
  constructor
  · intro ops r hrun
    obtain ⟨hinv, taken, hcontent⟩ := hrun.invariant
      (I := fun r => r.Inv ∧ ∃ taken, Content (fun k => s[k]?) taken r)
      ⟨inv_new endNode capacity, [], content_new _ endNode capacity⟩
      fun t op u ⟨hinv, taken, hcontent⟩ hs =>
        ⟨hinv.step hs.2, _, hcontent.step hs.1 hs.2⟩
    exact hinv.represents hcontent
  · intro hnode ops r op hrun hop
    obtain ⟨hwithin, hend⟩ := hrun.invariant
      (I := fun r => r.Within s.length ∧ r.endNode = List.length)
      ⟨within_new endNode capacity _, hnode⟩
      fun t op u ⟨hwithin, hend⟩ hs =>
        ⟨hwithin.step hs.1.ends hs.2, (step_endNode hs.2).trans hend⟩
    exact hwithin.step_isSome hend hop

/-- Pieces of "abcdef" ahead of holes, one of them outside of the window, and a read. -/
def pieces : List Op :=
  [.push [99] 2 false, .push [101, 102] 4 true, .push [97] 0 false, .read 1]

theorem represents_run_pieces :
    ∃ r, Run (Guarded (Substring [97, 98, 99, 100, 101, 102]) step) (new List.length 4) pieces r ∧
      r.Represents [97, 98, 99, 100, 101, 102] :=
  have hrun := Run.of_exec (Substring [97, 98, 99, 100, 101, 102]) step (new List.length 4) pieces
    (by decide)
  ⟨_, hrun, (represents_run List.length 4 _).1 _ _ hrun⟩

-- ============================================================================
-- Empty pieces
-- ============================================================================

/-- Every pending string has a byte. -/
def NoneEmpty (r : StreamReassembler) : Prop := ∀ b ∈ r.unassembled, b.str ≠ []

/-- `empty()` tells whether bytes are pending, and no pending string is empty. -/
structure EmptyMeansNone (r : StreamReassembler) : Prop where
  empty_iff : r.empty = true ↔ r.unassembledBytes = 0
  noneEmpty : r.NoneEmpty

/-- Without empty strings, `empty()` and `unassembled_bytes()` tell the same. -/
theorem NoneEmpty.emptyMeansNone {r : StreamReassembler} (h : r.NoneEmpty) :
    r.EmptyMeansNone := by
  refine ⟨?_, h⟩
  rw [empty, unassembledBytes]
  unfold NoneEmpty at h
  cases hlist : r.unassembled with
  | nil => simp
  | cons b bs =>
      rw [hlist] at h
      have hlen : 0 < b.str.length := List.length_pos_iff.mpr (h b (List.mem_cons_self ..))
      rw [List.map_cons, List.sum_cons]
      refine iff_of_false (by simp) (by omega)

/-- The index from which on nothing of a push fits. -/
def lastFit (r : StreamReassembler) : Nat := r.index + r.capacity.toNat - r.output.bufferSize

/-- A push that is cut down to nothing ahead of `_index` starts where a pending string
    reaches that the announcement of an end leaves. -/
def EdgeTouched (r : StreamReassembler) : Op → Prop
  | .push data index eof =>
      ¬ r.Ignored data index → r.index < index → index = r.lastFit →
        ∃ b ∈ r.unassembled, (eof = true → r.Survives (lastIndex data index) b) ∧
          b.index ≤ index ∧ index ≤ b.index + b.str.length
  | .read _ => True

instance (r : StreamReassembler) : ∀ op, Decidable (r.EdgeTouched op)
  | .push _ _ _ => inferInstanceAs (Decidable (_ → _ → _ → ∃ b ∈ _, _))
  | .read _ => isTrue trivial

section Push

variable {r : StreamReassembler} {data : List UInt8} {index : Nat}

/-- Which pushes are cut down to nothing. -/
theorem cut_str_eq_nil_iff (hig : ¬ r.Ignored data index) :
    (r.cut data index).str = [] ↔ max index r.index = r.lastFit := by
  have hfits : r.output.buffer.length ≤ r.capacity.toNat := r.sized ▸ r.output.fits
  have hcap := r.capacity.toNat_lt
  have hnew := lt_of_not_ignored hig
  have hdrop : 0 < (data.drop (r.index - index)).length := by
    rw [List.length_drop]
    omega
  rw [cut, List.take_eq_nil_iff, or_iff_left (List.length_pos_iff.mp hdrop), rightBound, lastFit,
    sizeSub, ByteStream.bufferSize]
  omega

/-- The spans after a push that is not ignored: the cut string is inserted, and the first
    span is dropped if it is due. -/
theorem pushData_spans (hig : ¬ r.Ignored data index) :
    ∃ s rest, Lib.Span.insert (r.cut data index).span r.spans = s :: rest ∧
      (s.lo ≠ r.index ∧ (r.pushData data index).spans = s :: rest ∨
        s.lo = r.index ∧ (r.pushData data index).spans = rest) := by
  have hcase := pushData_cases r data index
  have hspans := insertSorted_span (r.cut data index) r.unassembled
  generalize r.pushData data index = r' at hcase ⊢
  cases hcase with
  | ignored hig' => exact absurd hig' hig
  | stored b rest _ hl hne =>
      rw [hl] at hspans
      exact ⟨b.span, rest.map ByteString.span, hspans.symm, Or.inl ⟨hne, rfl⟩⟩
  | flushed b rest _ hl heq =>
      rw [hl] at hspans
      exact ⟨b.span, rest.map ByteString.span, hspans.symm, Or.inr ⟨heq, rfl⟩⟩

theorem noneEmpty_iff_spans (r : StreamReassembler) :
    r.NoneEmpty ↔ ∀ s ∈ r.spans, s.lo < s.hi := by
  simp only [NoneEmpty, spans, List.forall_mem_map, ByteString.span_lo, ByteString.span_hi,
    Nat.lt_add_right_iff_pos, List.length_pos_iff]

/-- Inserting a string that is not empty leaves none that is. -/
theorem NoneEmpty.pushData_of_ne (h : r.NoneEmpty) (hig : ¬ r.Ignored data index)
    (hne : (r.cut data index).str ≠ []) : (r.pushData data index).NoneEmpty := by
  rw [noneEmpty_iff_spans] at h ⊢
  have hlen := List.length_pos_iff.mpr hne
  have hins : ∀ s ∈ Lib.Span.insert (r.cut data index).span r.spans, s.lo < s.hi := by
    refine Lib.Span.forall_mem_insert (fun _ _ _ hb => Lib.Span.hull_lt hb) ?_ h
    simp only [ByteString.span_lo, ByteString.span_hi]
    omega
  obtain ⟨s, rest, hlist, ⟨-, hspans⟩ | ⟨-, hspans⟩⟩ := pushData_spans hig
  · rw [hspans, ← hlist]
    exact hins
  · rw [hspans]
    rw [hlist] at hins
    exact (List.forall_mem_cons.mp hins).2

/-- An empty string at `_index` is written and dropped. -/
theorem Inv.pushData_spans_of_due (hinv : r.Inv) (hig : ¬ r.Ignored data index)
    (hnil : (r.cut data index).str = []) (hdue : max index r.index = r.index) :
    (r.pushData data index).spans = r.spans := by
  have hhi : (r.cut data index).span.hi = r.index := by
    rw [ByteString.span_hi, hnil]
    exact hdue
  have hfront : Lib.Span.insert (r.cut data index).span r.spans =
      (r.cut data index).span :: r.spans :=
    Lib.Span.insert_of_lt fun s hs => by
      rw [hhi]
      exact hinv.separated.lo_le hs
  obtain ⟨s, rest, hlist, ⟨hne, -⟩ | ⟨-, hspans⟩⟩ := pushData_spans hig
  · rw [hfront] at hlist
    obtain ⟨rfl, -⟩ := List.cons_eq_cons.mp hlist
    exact absurd hdue hne
  · rw [hfront] at hlist
    obtain ⟨-, rfl⟩ := List.cons_eq_cons.mp hlist
    exact hspans

/-- Ahead of `_index` the cut string is stored. -/
theorem Inv.pushData_spans_of_ahead (hinv : r.Inv) (hig : ¬ r.Ignored data index)
    (hlt : r.index < index) :
    (r.pushData data index).spans = Lib.Span.insert (r.cut data index).span r.spans := by
  have hsep : Separated (r.index + 1) (Lib.Span.insert (r.cut data index).span r.spans) :=
    Lib.Span.separated_insert (Nat.le_trans hlt (Nat.le_max_left ..)) hinv.separated
  obtain ⟨s, rest, hlist, ⟨-, hspans⟩ | ⟨heq, -⟩⟩ := pushData_spans hig
  · rw [hspans, hlist]
  · rw [hlist] at hsep
    have hlo := hsep.1
    omega

/-- A push that is cut down to nothing ahead of `_index` stores an empty string unless a
    pending string reaches it. -/
theorem NoneEmpty.pushData_ahead_iff (h : r.NoneEmpty) (hinv : r.Inv)
    (hig : ¬ r.Ignored data index) (hnil : (r.cut data index).str = []) (hlt : r.index < index) :
    (r.pushData data index).NoneEmpty ↔
      ∃ b ∈ r.unassembled, b.index ≤ index ∧ index ≤ b.index + b.str.length := by
  have hlo : (r.cut data index).span.lo = index := Nat.max_eq_left hlt.le
  have hhi : (r.cut data index).span.hi = index := by
    rw [ByteString.span_hi, hnil]
    exact hlo
  rw [noneEmpty_iff_spans, hinv.pushData_spans_of_ahead hig hlt,
    Lib.Span.forall_lt_insert_iff (hhi.trans hlo.symm) ((noneEmpty_iff_spans r).mp h)
      hinv.separated]
  constructor
  · rintro ⟨s, hs, htouch⟩
    obtain ⟨b, hb, rfl⟩ := List.mem_map.mp hs
    rw [Touches, hlo, hhi] at htouch
    exact ⟨b, hb, htouch.2, htouch.1⟩
  · rintro ⟨b, hb, hstart, hreach⟩
    refine ⟨b.span, List.mem_map_of_mem hb, ?_⟩
    rw [Touches, hlo, hhi]
    exact ⟨hreach, hstart⟩

/-- A push stores an empty string exactly if it is cut down to nothing ahead of `_index`
    and no pending string reaches it. -/
theorem NoneEmpty.pushData_iff (h : r.NoneEmpty) (hinv : r.Inv) :
    (r.pushData data index).NoneEmpty ↔ r.EdgeTouched (.push data index false) := by
  simp only [EdgeTouched, Bool.false_eq_true, false_imp_iff, true_and]
  by_cases hig : r.Ignored data index
  · have hsame : r.pushData data index = r := if_pos hig
    rw [hsame]
    exact iff_of_true h fun hnot => absurd hig hnot
  by_cases hcut : max index r.index = r.lastFit
  · have hnil := (cut_str_eq_nil_iff hig).mpr hcut
    by_cases hlt : r.index < index
    · have hedge : index = r.lastFit := (Nat.max_eq_left hlt.le).symm.trans hcut
      rw [h.pushData_ahead_iff hinv hig hnil hlt, imp_iff_right hig, imp_iff_right hlt,
        imp_iff_right hedge]
    · refine iff_of_true ?_ fun _ hahead => absurd hahead hlt
      rw [noneEmpty_iff_spans, hinv.pushData_spans_of_due hig hnil (by omega)]
      exact (noneEmpty_iff_spans r).mp h
  · refine iff_of_true (h.pushData_of_ne hig fun hnil => hcut ((cut_str_eq_nil_iff hig).mp hnil)) ?_
    intro _ hlt heq
    exact absurd (by omega) hcut

end Push

/-- The announcement of an end only takes pending strings away, so what it leaves decides
    about the data that comes with it. -/
theorem edgeTouched_setEof_iff {r t : StreamReassembler} {data : List UInt8} {index : Nat}
    (ht : r.setEof (lastIndex data index) = some t) :
    t.EdgeTouched (.push data index false) ↔ r.EdgeTouched (.push data index true) := by
  have hidx := (setEof_some ht).1
  have hfit : t.lastFit = r.lastFit := by
    rw [lastFit, lastFit, hidx, (setEof_some ht).2.1, setEof_bufferSize ht]
  simp only [EdgeTouched, ignored_setEof ht, hidx, hfit, mem_setEof_iff ht, Bool.false_eq_true,
    false_imp_iff, true_and, true_imp_iff]
  refine imp_congr_right fun _ => imp_congr_right fun _ => imp_congr_right fun _ => ?_
  refine exists_congr fun b => ⟨fun h => ⟨h.1.mem, h⟩, fun h => h.2⟩

theorem NoneEmpty.setEof {r t : StreamReassembler} {last : Nat} (h : r.NoneEmpty)
    (ht : r.setEof last = some t) : t.NoneEmpty :=
  fun b hb => h b ((setEof_some ht).2.2.2.2.2.subset hb)

theorem NoneEmpty.step_iff {r r' : StreamReassembler} {op : Op} (h : r.NoneEmpty) (hinv : r.Inv)
    (hs : r.step op = some r') : r'.NoneEmpty ↔ r.EdgeTouched op := by
  cases step_cases hs with
  | read len => exact iff_of_true h trivial
  | pushed data index => exact h.pushData_iff hinv
  | announced data index t ht =>
      rw [(h.setEof ht).pushData_iff (hinv.setEof ht), edgeTouched_setEof_iff ht]

/-- **Emptiness.**  Along any run of pushes and reads `empty()` means that nothing is
    waiting, in every state reached, exactly if every push that is cut down to nothing ahead
    of `_index` starts where a pending string reaches that stays pending. -/
theorem emptyMeansNone_iff_edgeTouched (endNode : List ByteString → Nat) (capacity : UInt64)
    {ops : List Op} {r : StreamReassembler}
    (hrun : Run (Guarded (fun _ _ => True) step) (new endNode capacity) ops r) :
    (∀ pre t, pre <+: ops → Run (Guarded (fun _ _ => True) step) (new endNode capacity) pre t →
      t.EmptyMeansNone) ↔
      Run (Guarded EdgeTouched step) (new endNode capacity) ops r := by
  have hgood : ∀ es t, Run (Guarded EdgeTouched step) (new endNode capacity) es t →
      t.NoneEmpty ∧ t.Inv := by
    intro es t h
    refine h.invariant (I := fun t => t.NoneEmpty ∧ t.Inv)
      ⟨List.forall_mem_nil _, inv_new endNode capacity⟩ ?_
    rintro t op u ⟨hempty, hinv⟩ hs
    exact ⟨(hempty.step_iff hinv hs.2).mpr hs.1, hinv.step hs.2⟩
  refine Run.always_iff_of_true (P := fun _ t => t.EmptyMeansNone) ?_ ?_ hrun
  · intro es t h
    exact (hgood es t h).1.emptyMeansNone
  · intro es t op u h hbad hs hu
    obtain ⟨hempty, hinv⟩ := hgood es t h
    exact hbad ((hempty.step_iff hinv hs).mp hu.noneEmpty)

/-- With capacity 4, a push at index 4 is cut down to nothing, and swallowed by the string
    that ends there. -/
def swallowed : List Op := [.push [98] 1 false, .push [100] 3 false, .push [101] 4 false]

theorem emptyMeansNone_iff_edgeTouched_swallowed :
    ∃ r, Run (Guarded (fun _ _ => True) step) (new List.length 4) swallowed r ∧
      r.EmptyMeansNone := by
  have hrun := Run.of_exec (fun _ _ => True) step (new List.length 4) swallowed (by decide)
  have htouched := Run.of_exec EdgeTouched step (new List.length 4) swallowed (by decide)
  have hsame := hrun.det (htouched.mono fun _ _ _ hs => ⟨trivial, hs.2⟩)
  exact ⟨_, hrun, (emptyMeansNone_iff_edgeTouched List.length 4 hrun).mpr (hsame ▸ htouched) _ _
    (List.prefix_refl _) hrun⟩

/-- With capacity 1, a push at index 1 leaves an empty string behind: nothing is waiting,
    but `empty()` is false. -/
theorem emptyMeansNone_fails :
    ∃ r, Run (Guarded (fun _ _ => True) step) (new List.length 1) [.push [120] 1 false] r ∧
      r.unassembled = [⟨1, []⟩] ∧ r.empty = false ∧ r.unassembledBytes = 0 ∧
      ¬ r.EmptyMeansNone := by
  refine ⟨_, Run.of_exec (fun _ _ => True) step (new List.length 1) [.push [120] 1 false]
    (by decide), by decide, by decide, by decide, fun h => ?_⟩
  exact absurd (h.empty_iff.mpr (by decide)) (by decide)

end StreamReassembler

end Sponge
