/-
  Sponge.StreamReassembler.Coverage

  What the reassembler holds: which bytes, and which positions.

  `Content f taken r` ties every byte the reassembler ever wrote (`taken` by the
  reader, then the buffer) and every pending byte to one content `f`; it is kept
  by any push that agrees with `f`, in or out of the window.

  As long as pushes start inside the window, the reassembler also refines the
  model of covered positions: with `C` the set of positions that some push
  covered below the window's edge of that moment, it has written the longest
  initial interval of `C` and holds the rest of `C` pending (`refines_covered`).
-/

import Sponge.StreamReassembler.Capacity
import Sponge.StreamReassembler.Eof

namespace Sponge

open Lib (Span Run Guarded)
open Lib.Span (Separated Covers)

namespace StreamReassembler

open ByteString (Agrees)

-- ============================================================================
-- Bytes
-- ============================================================================

/-- Everything written and everything pending is what the content `f` says. -/
structure Content (f : Nat → Option UInt8) (taken : List UInt8) (r : StreamReassembler) :
    Prop where
  length_eq : (taken ++ r.output.buffer).length = r.index
  written : ∀ j, j < r.index → f j = (taken ++ r.output.buffer)[j]?
  pending : ∀ b ∈ r.unassembled, b.Agrees f

theorem content_new (f : Nat → Option UInt8) (endNode : List ByteString → Nat)
    (capacity : UInt64) : Content f [] (new endNode capacity) where
  length_eq := rfl
  written := by simp [new]
  pending := by simp [new]

theorem cut_agrees {f : Nat → Option UInt8} {r : StreamReassembler} {data : List UInt8}
    {index : Nat} (h : Agrees f ⟨index, data⟩) : (r.cut data index).Agrees f := by
  have hslice := h.slice (r.index - index) (r.rightBound (max index r.index))
  have hidx : max index r.index = index + (r.index - index) := by omega
  unfold cut
  rw [hidx] at hslice ⊢
  exact hslice

theorem Content.pushData {f : Nat → Option UInt8} {taken : List UInt8} {r : StreamReassembler}
    (h : Content f taken r) {data : List UInt8} {index : Nat} (hdata : Agrees f ⟨index, data⟩) :
    Content f taken (r.pushData data index) := by
  have hins := insertSorted_agrees (cut_agrees (r := r) hdata) h.pending
  have hcase := pushData_cases r data index
  generalize r.pushData data index = r' at hcase ⊢
  cases hcase with
  | ignored _ => exact h
  | stored b rest _ hl _ => exact ⟨h.length_eq, h.written, hl ▸ hins⟩
  | flushed b rest _ hl hb =>
      rw [hl] at hins
      obtain ⟨hba, hrest⟩ := List.forall_mem_cons.mp hins
      have hlen := h.length_eq
      have hacc := accepted_le r b
      refine ⟨?_, ?_, hrest⟩
      · rw [flushFront_buffer, flushFront_index, ← List.append_assoc, List.length_append, hlen,
          List.length_take]
        omega
      · intro j hj
        rw [flushFront_index] at hj
        rw [flushFront_buffer, ← List.append_assoc]
        by_cases hjw : j < r.index
        · rw [List.getElem?_append_left (by omega)]
          exact h.written j hjw
        · -- the new bytes are those of the front string
          rw [List.getElem?_append_right (by omega), hlen,
            List.getElem?_take_of_lt (by omega), ← hba (j - r.index) (by omega)]
          congr 1
          omega

theorem Content.setEof {f : Nat → Option UInt8} {taken : List UInt8} {r r' : StreamReassembler}
    (h : Content f taken r) {eof : Nat} (hs : r.setEof eof = some r') : Content f taken r' := by
  obtain ⟨hidx, -, -, -, hout, hsub⟩ := setEof_some hs
  have hbuf : r'.output.buffer = r.output.buffer := by
    rw [hout]
    split <;> rfl
  refine ⟨?_, ?_, fun b hb => h.pending b (hsub.subset hb)⟩
  · rw [hbuf, hidx]
    exact h.length_eq
  · rw [hbuf, hidx]
    exact h.written

theorem Content.pushSubstring {f : Nat → Option UInt8} {taken : List UInt8}
    {r r' : StreamReassembler} (h : Content f taken r) {data : List UInt8} {index : Nat}
    {eof : Bool} (hdata : Agrees f ⟨index, data⟩)
    (hs : r.pushSubstring data index eof = some r') : Content f taken r' := by
  cases step_cases (show r.step (.push data index eof) = some r' from hs) with
  | pushed => exact h.pushData hdata
  | announced _ _ r₁ h₁ => exact (h.setEof h₁).pushData hdata

/-- Bytes move from the buffer to the reader. -/
theorem Content.take {f : Nat → Option UInt8} {taken : List UInt8} {r r' : StreamReassembler}
    (h : Content f taken r) {bytes : List UInt8} (hidx : r'.index = r.index)
    (hun : r'.unassembled = r.unassembled)
    (hbuf : bytes ++ r'.output.buffer = r.output.buffer) : Content f (taken ++ bytes) r' := by
  refine ⟨?_, ?_, hun ▸ h.pending⟩
  · rw [List.append_assoc, hbuf, hidx]
    exact h.length_eq
  · rw [List.append_assoc, hbuf, hidx]
    exact h.written

/-- The content may become known in more places. -/
theorem Content.mono {f g : Nat → Option UInt8} {taken : List UInt8} {r : StreamReassembler}
    (h : Content f taken r) (hfg : ∀ k b, f k = some b → g k = some b) : Content g taken r := by
  refine ⟨h.length_eq, fun j hj => ?_, fun b hb j hj => ?_⟩
  · have hlt : j < (taken ++ r.output.buffer).length := by rw [h.length_eq]; exact hj
    rw [List.getElem?_eq_getElem hlt]
    apply hfg
    rw [h.written j hj, List.getElem?_eq_getElem hlt]
  · rw [List.getElem?_eq_getElem hj]
    apply hfg
    rw [h.pending b hb j hj, List.getElem?_eq_getElem hj]

/-- The bytes written are an initial segment of a list whose elements are the
    content. -/
theorem Content.eq_take {s taken : List UInt8} {r : StreamReassembler}
    (h : Content (fun k => s[k]?) taken r) : taken ++ r.output.buffer = s.take r.index := by
  have hlen := h.length_eq
  apply List.ext_getElem?
  intro j
  by_cases hj : j < r.index
  · rw [List.getElem?_take_of_lt hj, ← h.written j hj]
  · rw [List.getElem?_eq_none (by omega), List.getElem?_eq_none (by
      rw [List.length_take]
      omega)]

/-- A substring agrees with the stream it is taken from. -/
theorem agrees_of_eq_take {s data : List UInt8} {index : Nat}
    (h : data = (s.drop index).take data.length) : Agrees (fun k => s[k]?) ⟨index, data⟩ := by
  intro j hj
  have hj' : j < data.length := hj
  show s[index + j]? = data[j]?
  rw [h, List.getElem?_take_of_lt hj', List.getElem?_drop]

-- ============================================================================
-- Positions
-- ============================================================================

/-- `C` is what was written together with what is pending. -/
def CoverInv (C : Finset Nat) (r : StreamReassembler) : Prop :=
  ∀ k, k ∈ C ↔ k < r.index ∨ Covers r.spans k

/-- The positions an operation covers below the window's edge. -/
def newlyCovered (r : StreamReassembler) : Op → Finset Nat
  | .push data index _ => (Finset.Ico index (index + data.length)).filter (· < r.edge)
  | .read _ => ∅

/-- Inside the window, the cut string covers the new positions of the push. -/
theorem WindowInv.mem_cut {r : StreamReassembler} (h : r.WindowInv) {data : List UInt8}
    {index : Nat} (hstart : index ≤ r.edge) {k : Nat} :
    k ∈ (r.cut data index).span ↔
      r.index ≤ k ∧ index ≤ k ∧ k < index + data.length ∧ k < r.edge := by
  have hmax := h.max_le_edge hstart
  have hbound := h.rightBound_eq hstart
  simp only [Lib.Span.mem_iff, cut, ByteString.span_lo, ByteString.span_hi, List.length_take,
    List.length_drop, hbound]
  omega

/-- Inside the window the output accepts all of a string that is due. -/
theorem WindowInv.accepted_eq {r : StreamReassembler} (h : r.WindowInv) {b : ByteString}
    (hb : b.index = r.index) (hle : b.span.hi ≤ r.edge) : r.accepted b = b.str.length := by
  have hidx := h.index_eq
  have hbuf := h.buffer_le
  have hsz := r.sized
  rw [ByteString.span_hi] at hle
  unfold edge at hle
  rw [accepted, ByteStream.bytesToWrite_eq, hsz]
  omega

theorem CoverInv.pushData {C : Finset Nat} {r : StreamReassembler} (hw : r.WindowInv)
    (h : CoverInv C r) {data : List UInt8} {index : Nat} {eof : Bool} (hstart : index ≤ r.edge)
    (hfits : index + data.length < 2 ^ 64) :
    CoverInv (C ∪ r.newlyCovered (.push data index eof)) (r.pushData data index) := by
  have hedge : r.edge ≤ r.index + r.capacity.toNat := by
    have := hw.index_eq
    unfold edge
    omega
  -- the positions after the insertion
  have hins : ∀ k, (k ∈ C ∪ r.newlyCovered (.push data index eof)) ↔
      k < r.index ∨
        Covers ((insertSorted (r.cut data index) r.unassembled).map (·.span)) k := by
    intro k
    rw [insertSorted_span, Lib.Span.covers_insert, hw.mem_cut hstart, Finset.mem_union, h k]
    simp only [newlyCovered, Finset.mem_filter, Finset.mem_Ico]
    show _ ↔ k < r.index ∨ _ ∨ Covers r.spans k
    by_cases hk : k < r.index
    · simp [hk]
    · have : r.index ≤ k := by omega
      simp only [hk, false_or, this, true_and]
      tauto
  have hcase := pushData_cases r data index
  generalize r.pushData data index = r' at hcase ⊢
  cases hcase with
  | ignored hig =>
      intro k
      rw [Finset.mem_union, h k]
      simp only [newlyCovered, Finset.mem_filter, Finset.mem_Ico]
      simp only [Ignored, lastIndex_of_lt hfits] at hig
      constructor
      · rintro (hk | hk)
        · exact hk
        · exact Or.inl (by omega)
      · exact Or.inl
  | stored b rest _ hl _ =>
      rw [hl] at hins
      exact hins
  | flushed b rest hig hl hb =>
      have hright : b.span.hi ≤ r.edge := by
        apply hw.right_le_insertSorted data hstart
        rw [hl]
        exact List.mem_cons_self ..
      intro k
      rw [hins k, hl, List.map_cons, Lib.Span.covers_cons, flushFront_index,
        hw.accepted_eq hb hright, ← or_assoc]
      refine or_congr ?_ Iff.rfl
      simp only [Lib.Span.mem_iff, ByteString.span_lo, ByteString.span_hi, hb]
      omega

/-- The first position that is not covered is `_index`. -/
theorem CoverInv.index_not_mem {C : Finset Nat} {r : StreamReassembler} (hinv : r.Inv)
    (h : CoverInv C r) : r.index ∉ C := by
  rw [h]
  rintro (hlt | hcov)
  · omega
  · exact hinv.separated.not_covers (Nat.lt_succ_self _) hcov

/-- The pending bytes are the covered positions from `_index` on. -/
theorem CoverInv.unassembledBytes {C : Finset Nat} {r : StreamReassembler} (hinv : r.Inv)
    (h : CoverInv C r) : r.unassembledBytes = (C.filter (r.index ≤ ·)).card := by
  rw [unassembledBytes_eq, ← Lib.Span.card_positions hinv.separated]
  congr 1
  ext k
  rw [Lib.Span.mem_positions, Finset.mem_filter, h k]
  constructor
  · intro hk
    refine ⟨Or.inr hk, ?_⟩
    by_contra hlt
    exact hinv.separated.not_covers (by omega) hk
  · rintro ⟨hk | hk, hle⟩
    · omega
    · exact hk

-- ============================================================================
-- Whole runs
-- ============================================================================

/-- The bytes an operation hands to the reader. -/
def bytesTaken (r : StreamReassembler) : Op → List UInt8
  | .push _ _ _ => []
  | .read len => (r.output.read len).1

/-- A reassembler with the history the model of covered positions needs. -/
structure CoverTrace where
  r : StreamReassembler
  /-- positions that some push covered below the edge of its moment -/
  covered : Finset Nat
  /-- bytes read so far -/
  taken : List UInt8

namespace CoverTrace

def new (endNode : List ByteString → Nat) (capacity : UInt64) : CoverTrace where
  r := StreamReassembler.new endNode capacity
  covered := ∅
  taken := []

def step (t : CoverTrace) (op : Op) : Option CoverTrace :=
  (t.r.step op).map fun r' =>
    ⟨r', t.covered ∪ t.r.newlyCovered op, t.taken ++ t.r.bytesTaken op⟩

/-- A push of a true substring of `s` without `eof` that starts in the window. -/
def InWindow (s : List UInt8) (t : CoverTrace) : Op → Prop
  | .push data index eof =>
      eof = false ∧ TrueSubstring s t.r (.push data index eof) ∧ index ≤ t.r.edge
  | .read _ => True

instance (s : List UInt8) (t : CoverTrace) : ∀ op, Decidable (t.InWindow s op)
  | .push _ _ _ => inferInstanceAs (Decidable (_ ∧ _ ∧ _))
  | .read _ => isTrue trivial

/-- The written bytes are those of the longest initial interval of the covered
    positions, and the other covered positions are pending. -/
def Refines (s : List UInt8) (t : CoverTrace) : Prop :=
  ∃ n, (∀ k, k < n → k ∈ t.covered) ∧ n ∉ t.covered ∧
    t.taken ++ t.r.output.buffer = s.take n ∧
    t.r.unassembledBytes = (t.covered.filter (n ≤ ·)).card

/-- The run invariant behind `Refines`. -/
structure TraceInv (s : List UInt8) (t : CoverTrace) : Prop where
  window : t.r.WindowInv
  cover : CoverInv t.covered t.r
  content : Content (fun k => s[k]?) t.taken t.r

theorem traceInv_new (endNode : List ByteString → Nat) (capacity : UInt64) (s : List UInt8) :
    TraceInv s (new endNode capacity) where
  window := windowInv_new endNode capacity
  cover := by
    intro k
    simp [new, StreamReassembler.new, spans]
  content := content_new _ endNode capacity

theorem TraceInv.step {s : List UInt8} {t t' : CoverTrace} (h : TraceInv s t) {op : Op}
    (hop : t.InWindow s op) (hs : t.step op = some t') : TraceInv s t' := by
  obtain ⟨r', hr', rfl⟩ := Option.map_eq_some_iff.mp hs
  cases op with
  | read len =>
      obtain rfl := Option.some.inj hr'
      refine ⟨h.window.read len, ?_, h.content.take rfl rfl (t.r.output.read_append len)⟩
      show CoverInv (t.covered ∪ ∅) (t.r.read len)
      rw [Finset.union_empty]
      exact h.cover
  | push data index eof =>
      obtain ⟨rfl, hsub, hstart⟩ := hop
      obtain rfl := Option.some.inj hr'
      refine ⟨h.window.pushData fun _ => hstart, h.cover.pushData h.window hstart hsub.1.2, ?_⟩
      simpa [bytesTaken] using h.content.pushData (agrees_of_eq_take hsub.2.1)

theorem TraceInv.refines {s : List UInt8} {t : CoverTrace} (h : TraceInv s t) : t.Refines s :=
  ⟨t.r.index, fun k hk => (h.cover k).mpr (Or.inl hk), h.cover.index_not_mem h.window.inv,
    h.content.eq_take, h.cover.unassembledBytes h.window.inv⟩

theorem traceInv_run {endNode : List ByteString → Nat} {capacity : UInt64} {s : List UInt8}
    {ops : List Op} {t : CoverTrace}
    (h : Run (Guarded (InWindow s) step) (new endNode capacity) ops t) : TraceInv s t :=
  h.invariant (traceInv_new endNode capacity s) fun _ _ _ ht hs => ht.step hs.1 hs.2

theorem edge_pushData (r : StreamReassembler) (data : List UInt8) (index : Nat) :
    (r.pushData data index).edge = r.edge := by
  have hcase := pushData_cases r data index
  generalize r.pushData data index = r' at hcase ⊢
  cases hcase with
  | ignored _ => rfl
  | stored _ _ _ _ _ => rfl
  | flushed b rest _ _ _ => rw [edge, flushFront_bytesRead, flushFront_capacity, edge]

/-- Without reads, the new covered positions are those of all pushes below the
    edge. -/
theorem mem_covered_of_pushes {s : List UInt8} {ops : List Op} {t₀ t : CoverTrace}
    (h : Run (Guarded (InWindow s) step) t₀ ops t)
    (hpush : ∀ op ∈ ops, ∃ data index, op = .push data index false) :
    t.taken = t₀.taken ∧ t.r.edge = t₀.r.edge ∧ ∀ k, k ∈ t.covered ↔
      k ∈ t₀.covered ∨ k < t₀.r.edge ∧
        ∃ data index, Op.push data index false ∈ ops ∧ index ≤ k ∧ k < index + data.length := by
  induction h with
  | nil => simp
  | @snoc es t e u _ hs ih =>
      obtain ⟨htaken, hedge, hcov⟩ := ih fun op hop => hpush op (List.mem_append_left _ hop)
      obtain ⟨data, index, rfl⟩ := hpush e (by simp)
      obtain ⟨r', hr', rfl⟩ := Option.map_eq_some_iff.mp hs.2
      obtain rfl := Option.some.inj hr'
      refine ⟨?_, (edge_pushData t.r data index).trans hedge, fun k => ?_⟩
      · simpa [bytesTaken] using htaken
      · simp only [newlyCovered, Finset.mem_union, hcov k, Finset.mem_filter, Finset.mem_Ico,
          List.mem_append, List.mem_singleton, hedge]
        constructor
        · rintro ((hk | ⟨hk, d, i, hmem, hd⟩) | ⟨hd, hk⟩)
          · exact Or.inl hk
          · exact Or.inr ⟨hk, d, i, Or.inl hmem, hd⟩
          · exact Or.inr ⟨hk, data, index, Or.inr rfl, hd⟩
        · rintro (hk | ⟨hk, d, i, hmem | hmem, hd⟩)
          · exact Or.inl (Or.inl hk)
          · exact Or.inl (Or.inr ⟨hk, d, i, hmem, hd⟩)
          · obtain ⟨rfl, rfl, -⟩ := Op.push.inj hmem
            exact Or.inr ⟨hd, hk⟩

/-- The covered positions determine what was written and how much is pending. -/
theorem Refines.ext {s : List UInt8} {t t' : CoverTrace} (h : t.Refines s) (h' : t'.Refines s)
    (hcov : t.covered = t'.covered) :
    t.taken ++ t.r.output.buffer = t'.taken ++ t'.r.output.buffer ∧
      t.r.unassembledBytes = t'.r.unassembledBytes := by
  obtain ⟨n, hlt, hn, hbytes, hcount⟩ := h
  obtain ⟨n', hlt', hn', hbytes', hcount'⟩ := h'
  have heq : n = n' := by
    rcases Nat.lt_trichotomy n n' with hl | he | hg
    · exact absurd (hcov ▸ hlt' n hl) hn
    · exact he
    · exact absurd (hcov ▸ hlt n' hg) hn'
  subst heq
  rw [hbytes, hbytes', hcount, hcount', hcov]
  exact ⟨rfl, rfl⟩

/-- **Covered positions.**  In every run of reads and of pushes of true
    substrings that start in the window, the reassembler has written the longest
    initial interval of the covered positions and holds the others; from any state
    reached, the result of pushes without reads in between does not depend on
    their order. -/
theorem refines_covered (endNode : List ByteString → Nat) (capacity : UInt64) (s : List UInt8) :
    (∀ ops t, Run (Guarded (InWindow s) step) (new endNode capacity) ops t → t.Refines s) ∧
    (∀ pre t₀ ops ops' t t', Run (Guarded (InWindow s) step) (new endNode capacity) pre t₀ →
      (∀ op ∈ ops, ∃ data index, op = .push data index false) → ops.Perm ops' →
      Run (Guarded (InWindow s) step) t₀ ops t → Run (Guarded (InWindow s) step) t₀ ops' t' →
      t.r.output.buffer = t'.r.output.buffer ∧
        t.r.unassembledBytes = t'.r.unassembledBytes) := by
  refine ⟨fun ops t h => (traceInv_run h).refines, ?_⟩
  intro pre t₀ ops ops' t t' hpre hpush hperm h h'
  obtain ⟨htaken, -, hcov⟩ := mem_covered_of_pushes h hpush
  obtain ⟨htaken', -, hcov'⟩ := mem_covered_of_pushes h' fun op hop =>
    hpush op (hperm.mem_iff.mpr hop)
  have hsame : t.covered = t'.covered := by
    ext k
    rw [hcov k, hcov' k]
    simp only [hperm.mem_iff]
  have href := (traceInv_run (hpre.append h)).refines
  have href' := (traceInv_run (hpre.append h')).refines
  simpa only [htaken, htaken', List.append_cancel_left_eq] using href.ext href' hsame

/-- Overlapping pieces of "abcdef", the first ahead of a hole, and a read. -/
def overlap : List Op := [.push [99, 100] 2 false, .push [97, 98, 99] 0 false, .read 2]

theorem refines_covered_overlap :
    ∃ t, Run (Guarded (InWindow [97, 98, 99, 100, 101, 102]) step) (new List.length 4) overlap t ∧
      t.Refines [97, 98, 99, 100, 101, 102] :=
  have hrun := Run.of_exec (InWindow [97, 98, 99, 100, 101, 102]) step (new List.length 4) overlap
    (by decide)
  ⟨_, hrun, (refines_covered List.length 4 _).1 _ _ hrun⟩

end CoverTrace

end StreamReassembler

end Sponge
