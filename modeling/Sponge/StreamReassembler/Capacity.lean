/-
  Sponge.StreamReassembler.Capacity

  The memory bound of the reassembler, and exactly when it holds.

  A push is refused when it starts beyond `_index + _capacity`, but what is kept
  of it is cut at `_index + _capacity - buffer_size()`, the true right edge
  `bytes_read() + capacity` of the window.  A push that starts between the two
  makes `right_bound` wrap around, so nothing is cut and all of it is stored.
  The bound is therefore kept by a run exactly when no push that is not ignored
  starts beyond the true edge (`memoryBound_iff_startsInWindow`).
-/

import Sponge.StreamReassembler.Pending

namespace Sponge

open Lib (Span Run Guarded)
open Lib.Span (Separated Covers)

namespace StreamReassembler

/-- The right edge of the window. -/
def edge (r : StreamReassembler) : Nat := r.output.bytesRead + r.capacity.toNat

/-- Buffered and pending bytes fit in the capacity, and every pending byte lies
    below the right edge of the window. -/
structure MemoryBound (r : StreamReassembler) : Prop where
  total : r.output.bufferSize + r.unassembledBytes ≤ r.capacity.toNat
  below : ∀ b ∈ r.unassembled, ∀ j, j < b.str.length → b.index + j < r.edge

/-- A pushed substring ends within the range of `size_t`. -/
def Fits (_ : StreamReassembler) : Op → Prop
  | .push data index _ => index + data.length < 2 ^ 64
  | .read _ => True

instance (r : StreamReassembler) : ∀ op, Decidable (r.Fits op)
  | .push _ _ _ => inferInstanceAs (Decidable (_ < _))
  | .read _ => isTrue trivial

/-- A push that is not ignored starts no later than the right edge. -/
def StartsInWindow (r : StreamReassembler) : Op → Prop
  | .push data index _ => ¬ r.Ignored data index → index ≤ r.edge
  | .read _ => True

-- ============================================================================
-- The right bound
-- ============================================================================

theorem sizeSub_of_le {a b : Nat} (h : b ≤ a) (hlt : a - b < 2 ^ 64) : sizeSub a b = a - b := by
  unfold sizeSub
  omega

theorem sizeSub_of_lt {a b : Nat} (h : a < b) (hlt : b < 2 ^ 64) :
    sizeSub a b = 2 ^ 64 - (b - a) := by
  unfold sizeSub
  omega

theorem unassembledBytes_eq (r : StreamReassembler) : r.unassembledBytes = Span.total r.spans := by
  unfold unassembledBytes spans Lib.Span.total
  rw [List.map_map]
  congr 1
  refine List.map_congr_left fun b _ => ?_
  simp [Lib.Span.len]

/-- What a reassembler keeps as long as every push starts in its window. -/
structure WindowInv (r : StreamReassembler) : Prop where
  inv : r.Inv
  accounted : r.output.Accounted
  /-- Pending strings end no later than the right edge. -/
  right_le : ∀ s ∈ r.spans, s.hi ≤ r.edge

theorem windowInv_new (endNode : List ByteString → Nat) (capacity : UInt64) :
    (new endNode capacity).WindowInv where
  inv := inv_new endNode capacity
  accounted := ByteStream.accounted_new _
  right_le := by simp [spans, new]

theorem WindowInv.buffer_le {r : StreamReassembler} (_ : r.WindowInv) :
    r.output.buffer.length ≤ r.capacity.toNat :=
  r.sized ▸ r.output.fits

theorem WindowInv.index_eq {r : StreamReassembler} (h : r.WindowInv) :
    r.index = r.output.bytesRead + r.output.buffer.length :=
  h.inv.written.symm.trans h.accounted

theorem WindowInv.memoryBound {r : StreamReassembler} (h : r.WindowInv) : r.MemoryBound where
  total := by
    have htot := Lib.Span.total_le h.inv.separated h.right_le
    have hidx := h.index_eq
    have hbuf := h.buffer_le
    rw [unassembledBytes_eq, ByteStream.bufferSize]
    simp only [edge] at htot
    omega
  below := by
    intro b hb j hj
    have hle : b.span.hi ≤ r.edge := h.right_le _ (List.mem_map_of_mem hb)
    rw [ByteString.span_hi] at hle
    omega

theorem WindowInv.max_le_edge {r : StreamReassembler} (h : r.WindowInv) {index : Nat}
    (hstart : index ≤ r.edge) : max index r.index ≤ r.edge := by
  have hidx := h.index_eq
  have hbuf := h.buffer_le
  unfold edge at *
  omega

/-- From a start inside the window, the bound is the distance to the edge. -/
theorem WindowInv.rightBound_eq {r : StreamReassembler} (h : r.WindowInv) {index : Nat}
    (hstart : index ≤ r.edge) :
    r.rightBound (max index r.index) = r.edge - max index r.index := by
  have hmax := h.max_le_edge hstart
  have hlow := Nat.le_max_right index r.index
  have hidx := h.index_eq
  have hbuf := h.buffer_le
  have hcap := r.capacity.toNat_lt
  generalize max index r.index = i at hmax hlow ⊢
  unfold rightBound edge ByteStream.bufferSize at *
  rw [sizeSub_of_le (by omega) (by omega)]
  omega

theorem WindowInv.cut_right_le {r : StreamReassembler} (h : r.WindowInv) {data : List UInt8}
    {index : Nat} (hstart : index ≤ r.edge) : (r.cut data index).span.hi ≤ r.edge := by
  have hmax := h.max_le_edge hstart
  have hbound := h.rightBound_eq hstart
  simp only [cut, ByteString.span_hi, List.length_take, hbound]
  omega

/-- After the insertion of a push that starts in the window, pending strings
    still end no later than the edge. -/
theorem WindowInv.right_le_insertSorted {r : StreamReassembler} (h : r.WindowInv)
    (data : List UInt8) {index : Nat} (hstart : index ≤ r.edge) :
    ∀ s ∈ (insertSorted (r.cut data index) r.unassembled).map (·.span), s.hi ≤ r.edge := by
  rw [insertSorted_span]
  exact Lib.Span.forall_mem_insert (fun a b ha hb => by simpa using ⟨ha, hb⟩)
    (h.cut_right_le hstart) h.right_le

-- ============================================================================
-- Steps inside the window keep the bound
-- ============================================================================

theorem WindowInv.setEof {r r' : StreamReassembler} (h : r.WindowInv) {eof : Nat}
    (hs : r.setEof eof = some r') : r'.WindowInv := by
  obtain ⟨-, hcap, -, -, hout, hsub⟩ := setEof_some hs
  have hread : r'.output.bytesRead = r.output.bytesRead := by
    rw [hout]
    split <;> rfl
  refine ⟨h.inv.setEof hs, ?_, ?_⟩
  · rw [hout]
    split
    · exact h.accounted.endInput
    · exact h.accounted
  · intro s hmem
    rw [edge, hread, hcap]
    exact h.right_le s ((hsub.map _).subset hmem)

theorem accounted_flushFront {r : StreamReassembler} (h : r.output.Accounted) (b : ByteString)
    (rest : List ByteString) : (r.flushFront b rest).output.Accounted := by
  rw [flushFront_output]
  split
  · exact (h.write b.str).endInput
  · exact h.write b.str

theorem WindowInv.pushData {r : StreamReassembler} (h : r.WindowInv) {data : List UInt8}
    {index : Nat} (hstart : ¬ r.Ignored data index → index ≤ r.edge) :
    (r.pushData data index).WindowInv := by
  have hinv := h.inv.pushData data index
  have hcase := pushData_cases r data index
  generalize r.pushData data index = r' at hcase hinv ⊢
  cases hcase with
  | ignored _ => exact h
  | stored b rest hig hl _ =>
      have hright := h.right_le_insertSorted data (hstart hig)
      rw [hl] at hright
      exact ⟨hinv, h.accounted, hright⟩
  | flushed b rest hig hl _ =>
      have hright := h.right_le_insertSorted data (hstart hig)
      rw [hl] at hright
      refine ⟨hinv, accounted_flushFront h.accounted b rest, fun s hs => ?_⟩
      have hle := hright s (List.mem_cons_of_mem _ hs)
      simpa only [edge, flushFront_bytesRead, flushFront_capacity] using hle

theorem ignored_setEof {r r' : StreamReassembler} {eof : Nat} (hs : r.setEof eof = some r')
    (data : List UInt8) (index : Nat) : r'.Ignored data index ↔ r.Ignored data index := by
  obtain ⟨hidx, hcap, -⟩ := setEof_some hs
  rw [Ignored, Ignored, hidx, hcap]

theorem edge_setEof {r r' : StreamReassembler} {eof : Nat} (hs : r.setEof eof = some r') :
    r'.edge = r.edge := by
  obtain ⟨-, hcap, -, -, hout, -⟩ := setEof_some hs
  rw [edge, edge, hcap, hout]
  split <;> rfl

theorem WindowInv.read {r : StreamReassembler} (h : r.WindowInv) (len : Nat) :
    (r.read len).WindowInv := by
  refine ⟨h.inv.read len, h.accounted.read len, fun s hs => ?_⟩
  have hle := h.right_le s hs
  have hread : (r.read len).output.bytesRead = r.output.bytesRead + r.output.bytesToRead len := rfl
  have hcap : (r.read len).capacity = r.capacity := rfl
  rw [edge, hread, hcap]
  unfold edge at hle
  omega

theorem WindowInv.step {r r' : StreamReassembler} (h : r.WindowInv) {op : Op}
    (hstart : r.StartsInWindow op) (hs : r.step op = some r') : r'.WindowInv := by
  cases step_cases hs with
  | read len => exact h.read len
  | pushed data index => exact h.pushData hstart
  | announced data index r₁ h₁ =>
      refine (h.setEof h₁).pushData fun hig => ?_
      rw [edge_setEof h₁]
      exact hstart fun hig' => hig ((ignored_setEof h₁ data index).mpr hig')

-- ============================================================================
-- A step outside of the window breaks it
-- ============================================================================

/-- From a start beyond the edge the bound wraps around, and nothing is cut. -/
theorem WindowInv.cut_beyond {r : StreamReassembler} (h : r.WindowInv) {data : List UInt8}
    {index : Nat} (hfit : index + data.length < 2 ^ 64) (hbeyond : r.edge < index) :
    r.cut data index = ⟨index, data⟩ := by
  have hidx := h.index_eq
  have hbuf := h.buffer_le
  unfold edge at hbeyond
  have hmax : max index r.index = index := by omega
  have hsub : r.index - index = 0 := by omega
  have hbound : data.length ≤ r.rightBound index := by
    unfold rightBound ByteStream.bufferSize
    rw [sizeSub_of_lt (by omega) (by omega)]
    omega
  rw [cut, hmax, hsub, List.drop_zero, List.take_of_length_le hbound]

theorem WindowInv.not_memoryBound_pushData {r : StreamReassembler} (h : r.WindowInv)
    {data : List UInt8} {index : Nat} (hfit : index + data.length < 2 ^ 64)
    (hig : ¬ r.Ignored data index) (hbeyond : r.edge < index) :
    ¬ (r.pushData data index).MemoryBound := by
  intro hmem
  have hcut := h.cut_beyond hfit hbeyond
  have hidx := h.index_eq
  have hbuf := h.buffer_le
  have hlen := (lt_of_not_ignored hig).2.2
  have hlt : r.index < index := by
    unfold edge at hbeyond
    omega
  have hcov : Covers ((insertSorted (r.cut data index) r.unassembled).map (·.span)) index := by
    rw [insertSorted_span, Lib.Span.covers_insert, hcut]
    exact Or.inl ⟨Nat.le_refl _, by simpa using hlen⟩
  have hcase := pushData_cases r data index
  generalize r.pushData data index = r' at hcase hmem
  cases hcase with
  | ignored hig' => exact hig hig'
  | flushed b rest _ hl heq =>
      exact absurd ((h.inv.front_due_iff hl).mp heq) (Nat.not_le_of_lt hlt)
  | stored b rest _ hl _ =>
      rw [hl] at hcov
      obtain ⟨_, hs, hk⟩ := hcov
      obtain ⟨c, hc, rfl⟩ := List.mem_map.mp hs
      have hk1 : c.index ≤ index := hk.1
      have hk2 : index < c.index + c.str.length := hk.2
      have hlt' := hmem.below c hc (index - c.index) (by omega)
      have hedge : (({ r with unassembled := b :: rest } : StreamReassembler)).edge = r.edge := rfl
      omega

theorem WindowInv.not_memoryBound {r r' : StreamReassembler} (h : r.WindowInv) {op : Op}
    (hfit : r.Fits op) (hout : ¬ r.StartsInWindow op) (hs : r.step op = some r') :
    ¬ r'.MemoryBound := by
  cases step_cases hs with
  | read len => exact absurd trivial hout
  | pushed data index =>
      simp only [StartsInWindow, Classical.not_imp, not_le] at hout
      exact h.not_memoryBound_pushData hfit hout.1 hout.2
  | announced data index r₁ h₁ =>
      simp only [StartsInWindow, Classical.not_imp, not_le] at hout
      refine (h.setEof h₁).not_memoryBound_pushData hfit ?_ ?_
      · rw [ignored_setEof h₁]
        exact hout.1
      · rw [edge_setEof h₁]
        exact hout.2

-- ============================================================================
-- Whole runs
-- ============================================================================

/-- **Memory bound.**  Along any run of pushes and reads the memory bound holds
    in every state reached exactly when every push that is not ignored starts no
    later than `bytes_read() + capacity`. -/
theorem memoryBound_iff_startsInWindow (endNode : List ByteString → Nat) (capacity : UInt64)
    {ops : List Op} {r : StreamReassembler}
    (hrun : Run (Guarded Fits step) (new endNode capacity) ops r) :
    (∀ pre t, pre <+: ops → Run (Guarded Fits step) (new endNode capacity) pre t →
      t.MemoryBound) ↔
      Run (Guarded (fun t op => t.Fits op ∧ t.StartsInWindow op) step)
        (new endNode capacity) ops r := by
  have hwin : ∀ es t, Run (Guarded (fun t op => Fits t op ∧ t.StartsInWindow op) step)
      (new endNode capacity) es t → t.WindowInv := fun es t h =>
    h.invariant (windowInv_new endNode capacity) fun _ _ _ ht hs => ht.step hs.1.2 hs.2
  exact Run.always_iff (P := fun _ t => t.MemoryBound) (fun es t h => (hwin es t h).memoryBound)
    (fun es t e u h hfit hout hs => (hwin es t h).not_memoryBound hfit hout hs) hrun

/-- With capacity 2, "ab" fills the buffer; "c" at index 3 starts beyond the edge
    2 but not beyond `_index + _capacity = 4`, and is stored. -/
def overfull : List Op := [.push [97, 98] 0 false, .push [99] 3 false]

theorem memoryBound_fails :
    ¬ ∀ (endNode : List ByteString → Nat) (capacity : UInt64) (ops : List Op)
      (r : StreamReassembler), Run (Guarded Fits step) (new endNode capacity) ops r →
        r.MemoryBound := by
  intro h
  have hrun := Run.of_exec Fits step (new List.length 2) overfull (by decide)
  exact absurd (h _ _ _ _ hrun).total (by decide)

/-- A run that fills a window of 2, reads a byte and pushes up to the new edge. -/
def sliding : List Op := [.push [97, 98] 0 false, .read 1, .push [99] 2 true]

theorem memoryBound_iff_startsInWindow_sliding :
    ∃ r, Run (Guarded Fits step) (new List.length 2) sliding r ∧
      ((∀ pre t, pre <+: sliding → Run (Guarded Fits step) (new List.length 2) pre t →
        t.MemoryBound) ↔
        Run (Guarded (fun t op => t.Fits op ∧ t.StartsInWindow op) step) (new List.length 2)
          sliding r) :=
  have hrun := Run.of_exec Fits step (new List.length 2) sliding (by decide)
  ⟨_, hrun, memoryBound_iff_startsInWindow List.length 2 hrun⟩

end StreamReassembler

end Sponge
