/-
  Sponge.StreamReassembler.Eof

  When the reassembler ends its output stream, and exactly when that is right.

  The end is decided in two places.  `write_to_output` compares `_index` with the
  announced end exactly, but `set_eof` already ends the output when `_eof` is at
  most `_index + 1`: an end announced while exactly one byte is missing ends the
  stream before that byte is there.  This is harmless only when the same push
  brings the byte and the output has room for it.  `endsAtEnd_iff_carriesLast`
  says that nothing else can go wrong: along any run of pushes of true
  substrings the output ends exactly when it should iff every announcement of
  the end is of the harmless kind.
-/

import Sponge.StreamReassembler.Pending

namespace Sponge

open Lib (Span Run Guarded)
open Lib.Span (Separated)

namespace StreamReassembler

/-- The reassembler only knows of a stream of length `n`. -/
structure Within (n : Nat) (r : StreamReassembler) : Prop where
  inv : r.Inv
  index_le : r.index ≤ n
  spans_le : ∀ s ∈ r.spans, s.lo < n ∧ s.hi ≤ n
  eof_eq : r.eofSet = true → r.eof = n

/-- The output has ended exactly when the end is known and has been reached. -/
def EndedAt (n : Nat) (r : StreamReassembler) : Prop :=
  r.output.inputEnded = true ↔ r.eofSet = true ∧ r.index = n

/-- An end announced one byte before it is reached comes with that byte, and the
    output has room for it. -/
def CarriesLast (r : StreamReassembler) : Op → Prop
  | .push data index true =>
      index + data.length = r.index + 1 →
        index ≤ r.index ∧ r.output.bufferSize < r.capacity.toNat
  | _ => True

instance (r : StreamReassembler) : ∀ op, Decidable (r.CarriesLast op)
  | .push _ _ true => inferInstanceAs (Decidable (_ → _))
  | .push _ _ false | .read _ => isTrue trivial

theorem within_new (endNode : List ByteString → Nat) (capacity : UInt64) (n : Nat) :
    (new endNode capacity).Within n where
  inv := inv_new endNode capacity
  index_le := Nat.zero_le _
  spans_le := by simp [spans, new]
  eof_eq := by simp [new]

theorem endedAt_new (endNode : List ByteString → Nat) (capacity : UInt64) (n : Nat) :
    (new endNode capacity).EndedAt n := by
  simp [EndedAt, new, ByteStream.new]

/-- While the end is not known, the stream may still grow. -/
theorem Within.mono {n m : Nat} {r : StreamReassembler} (h : r.Within n) (hle : n ≤ m)
    (hset : r.eofSet = false) : r.Within m where
  inv := h.inv
  index_le := Nat.le_trans h.index_le hle
  spans_le := fun s hs =>
    ⟨Nat.lt_of_lt_of_le (h.spans_le s hs).1 hle, Nat.le_trans (h.spans_le s hs).2 hle⟩
  eof_eq := fun h' => by simp [hset] at h'

-- ============================================================================
-- Pushing data
-- ============================================================================

theorem Within.cut_span {n : Nat} {r : StreamReassembler} {data : List UInt8} {index : Nat}
    (hfit : index + data.length ≤ n) (hig : ¬ r.Ignored data index) :
    (r.cut data index).span.lo < n ∧ (r.cut data index).span.hi ≤ n := by
  have hnew := lt_of_not_ignored hig
  simp only [cut, ByteString.span_lo, ByteString.span_hi, List.length_take, List.length_drop]
  omega

theorem Within.spans_insertSorted {n : Nat} {r : StreamReassembler} (h : r.Within n)
    {data : List UInt8} {index : Nat} (hfit : index + data.length ≤ n)
    (hig : ¬ r.Ignored data index) :
    ∀ s ∈ (insertSorted (r.cut data index) r.unassembled).map (·.span), s.lo < n ∧ s.hi ≤ n := by
  rw [insertSorted_span]
  refine Lib.Span.forall_mem_insert (fun a b ha hb => ?_) (cut_span hfit hig) h.spans_le
  simp only [Lib.Span.hull_lo, Lib.Span.hull_hi]
  omega

@[simp] theorem pushData_eofSet (r : StreamReassembler) (data : List UInt8) (index : Nat) :
    (r.pushData data index).eofSet = r.eofSet := by
  have hcase := pushData_cases r data index
  generalize r.pushData data index = r' at hcase ⊢
  cases hcase <;> rfl

theorem pushData_eof (r : StreamReassembler) (data : List UInt8) (index : Nat) :
    (r.pushData data index).eof = r.eof := by
  have hcase := pushData_cases r data index
  generalize r.pushData data index = r' at hcase ⊢
  cases hcase <;> rfl

theorem Within.pushData {n : Nat} {r : StreamReassembler} (h : r.Within n) {data : List UInt8}
    {index : Nat} (hfit : index + data.length ≤ n) : (r.pushData data index).Within n := by
  have hinv := h.inv.pushData data index
  have hset := pushData_eofSet r data index
  have heof := pushData_eof r data index
  have hcase := pushData_cases r data index
  generalize r.pushData data index = r' at hcase hinv hset heof ⊢
  have heq : r'.eofSet = true → r'.eof = n := by
    rw [hset, heof]
    exact h.eof_eq
  cases hcase with
  | ignored _ => exact h
  | stored b rest hig hl _ =>
      have hspans := h.spans_insertSorted hfit hig
      rw [hl] at hspans
      exact ⟨hinv, h.index_le, hspans, heq⟩
  | flushed b rest hig hl hb =>
      have hspans := h.spans_insertSorted hfit hig
      rw [hl] at hspans
      refine ⟨hinv, ?_, fun s hs => hspans s (List.mem_cons_of_mem _ hs), heq⟩
      have hb' : b.index + b.str.length ≤ n := (hspans b.span (List.mem_cons_self ..)).2
      have hacc := accepted_le r b
      rw [flushFront_index]
      omega

theorem EndedAt.pushData {n : Nat} {r : StreamReassembler} (hw : r.Within n) (he : r.EndedAt n)
    {data : List UInt8} {index : Nat} (hfit : index + data.length ≤ n) :
    (r.pushData data index).EndedAt n := by
  have hle := (hw.pushData hfit).index_le
  have hcase := pushData_cases r data index
  generalize r.pushData data index = r' at hcase hle ⊢
  cases hcase with
  | ignored _ => exact he
  | stored b rest _ _ _ => exact he
  | flushed b rest _ _ _ =>
      unfold EndedAt at he ⊢
      rw [flushFront_index] at hle
      rw [flushFront_output, flushFront_eofSet, flushFront_index]
      by_cases hset : r.eofSet = true
      · have heof := hw.eof_eq hset
        by_cases hend : r.index + r.accepted b = n
        · rw [if_pos ⟨by omega, hset⟩]
          simp [hset, hend]
        · -- the end is not reached now, and was not before
          rw [if_neg (by omega), ByteStream.write_inputEnded, he]
          have : r.index ≠ n := by omega
          simp [this, hend]
      · rw [if_neg (by simp [hset]), ByteStream.write_inputEnded, he]
        simp [hset]

-- ============================================================================
-- Announcing the end
-- ============================================================================

/-- Announcing the end leaves the buffer. -/
theorem setEof_bufferSize {r r' : StreamReassembler} {eof : Nat} (hs : r.setEof eof = some r') :
    r'.output.bufferSize = r.output.bufferSize := by
  obtain ⟨-, -, -, -, hout, -⟩ := setEof_some hs
  rw [hout]
  split <;> rfl

theorem Within.setEof {n : Nat} {r r' : StreamReassembler} (h : r.Within n)
    (hs : r.setEof n = some r') : r'.Within n := by
  obtain ⟨hidx, -, heof, -, -, hsub⟩ := setEof_some hs
  refine ⟨h.inv.setEof hs, by rw [hidx]; exact h.index_le, fun s hmem => ?_, fun _ => heof⟩
  exact h.spans_le s ((hsub.map _).subset hmem)

theorem EndedAt.setEof {n : Nat} {r r' : StreamReassembler} (hw : r.Within n) (he : r.EndedAt n)
    (hne : n ≠ r.index + 1) (hs : r.setEof n = some r') : r'.EndedAt n := by
  obtain ⟨hidx, -, -, hset, hout, -⟩ := setEof_some hs
  have hle := hw.index_le
  unfold EndedAt at he ⊢
  rw [hidx, hset, hout]
  by_cases hend : r.index = n
  · rw [if_pos (by omega)]
    simp [hend]
  · rw [if_neg (by omega), he]
    simp [hend]

/-- One byte before the end nothing can be pending. -/
theorem Within.unassembled_eq_nil {n : Nat} {r : StreamReassembler} (h : r.Within n)
    (hlast : n = r.index + 1) : r.unassembled = [] := by
  rw [List.eq_nil_iff_forall_not_mem]
  intro b hb
  have hmem : b.span ∈ r.spans := List.mem_map_of_mem hb
  have hlo := h.inv.separated.lo_le hmem
  have hhi := (h.spans_le _ hmem).1
  omega

/-- A push of the last missing byte reaches the end when there is room for it. -/
theorem Within.pushData_last {n : Nat} {r : StreamReassembler} (h : r.Within n)
    (hlast : n = r.index + 1) {data : List UInt8} {index : Nat} (hend : index + data.length = n)
    (hfits : index + data.length < 2 ^ 64) (hle : index ≤ r.index)
    (hroom : r.output.bufferSize < r.capacity.toNat) (hset : r.eofSet = true) :
    (r.pushData data index).EndedAt n := by
  have hnil := h.unassembled_eq_nil hlast
  have hmax : max index r.index = r.index := by omega
  have hcutlen : (r.cut data index).str.length = 1 := by
    simp only [cut, hmax, rightBound_index, room, List.length_take, List.length_drop]
    omega
  have hacc : r.accepted (r.cut data index) = 1 := by
    have hsz := r.sized
    unfold ByteStream.bufferSize at hroom
    rw [accepted, ByteStream.bytesToWrite_eq, hcutlen, hsz]
    omega
  have hidx : (r.cut data index).index = r.index := hmax
  have hcase := pushData_cases r data index
  generalize r.pushData data index = r' at hcase ⊢
  cases hcase with
  | ignored hig =>
      simp only [Ignored, lastIndex_of_lt hfits] at hig
      omega
  | stored b rest _ hl hne =>
      rw [hnil] at hl
      obtain ⟨rfl, rfl⟩ := List.cons_eq_cons.mp hl
      exact absurd hidx hne
  | flushed b rest _ hl _ =>
      rw [hnil] at hl
      obtain ⟨rfl, rfl⟩ := List.cons_eq_cons.mp hl
      have heof := h.eof_eq hset
      unfold EndedAt
      rw [flushFront_output, flushFront_eofSet, flushFront_index, hacc,
        if_pos ⟨by omega, hset⟩]
      simp [hset, hlast]

/-- A push of the last byte without room for it, or of nothing, leaves `_index`. -/
theorem Within.pushData_not_last {n : Nat} {r : StreamReassembler} (h : r.Within n)
    (hlast : n = r.index + 1) {data : List UInt8} {index : Nat} (hend : index + data.length = n)
    (hno : ¬ (index ≤ r.index ∧ r.output.bufferSize < r.capacity.toNat)) :
    (r.pushData data index).index = r.index := by
  have hnil := h.unassembled_eq_nil hlast
  have hfits : r.output.buffer.length ≤ r.capacity.toNat := r.sized ▸ r.output.fits
  have hcase := pushData_cases r data index
  generalize r.pushData data index = r' at hcase ⊢
  cases hcase with
  | ignored _ => rfl
  | stored _ _ _ _ _ => rfl
  | flushed b rest hig hl _ =>
      rw [hnil] at hl
      obtain ⟨rfl, rfl⟩ := List.cons_eq_cons.mp hl
      have hnew := lt_of_not_ignored hig
      unfold ByteStream.bufferSize at hno
      have hacc : r.accepted (r.cut data index) = 0 := by
        have hsz := r.sized
        rw [accepted, ByteStream.bytesToWrite_eq, hsz]
        omega
      rw [flushFront_index, hacc]
      rfl

/-- An output that has ended stays ended. -/
theorem pushData_inputEnded {r : StreamReassembler} {data : List UInt8} {index : Nat}
    (h : r.output.inputEnded = true) : (r.pushData data index).output.inputEnded = true := by
  have hcase := pushData_cases r data index
  generalize r.pushData data index = r' at hcase ⊢
  cases hcase with
  | ignored _ => exact h
  | stored _ _ _ _ _ => exact h
  | flushed b rest _ _ _ =>
      rw [flushFront_output]
      split
      · rfl
      · exact h

/-- A push adds bytes to the output and may announce its end; it takes nothing back. -/
theorem pushSubstring_output {r r' : StreamReassembler} {data : List UInt8} {index : Nat}
    {eof : Bool} (h : r.pushSubstring data index eof = some r') :
    (∃ bytes, r'.output.buffer = r.output.buffer ++ bytes ∧
      r'.output.bytesWritten = r.output.bytesWritten + bytes.length) ∧
    r'.output.error = r.output.error ∧
    (r.output.inputEnded = true → r'.output.inputEnded = true) ∧
    r'.capacity = r.capacity := by
  have hdata : ∀ r : StreamReassembler,
      (∃ bytes, (r.pushData data index).output.buffer = r.output.buffer ++ bytes ∧
        (r.pushData data index).output.bytesWritten = r.output.bytesWritten + bytes.length) ∧
      (r.pushData data index).output.error = r.output.error ∧
      (r.pushData data index).capacity = r.capacity := by
    intro r
    have hcase := pushData_cases r data index
    generalize r.pushData data index = r' at hcase ⊢
    cases hcase with
    | ignored _ => exact ⟨⟨[], by simp, by simp⟩, rfl, rfl⟩
    | stored _ _ _ _ _ => exact ⟨⟨[], by simp, by simp⟩, rfl, rfl⟩
    | flushed b rest _ _ _ =>
        refine ⟨⟨_, flushFront_buffer .., ?_⟩, ?_, rfl⟩
        · rw [flushFront_bytesWritten, List.length_take_of_le (accepted_le r b)]
        · rw [flushFront_output]
          split <;> rfl
  cases step_cases (show r.step (.push data index eof) = some r' from h) with
  | pushed => exact ⟨(hdata r).1, (hdata r).2.1, pushData_inputEnded, (hdata r).2.2⟩
  | announced _ _ r₁ h₁ =>
      obtain ⟨-, hcap, -, -, hout, -⟩ := setEof_some h₁
      -- announcing the end changes the flag only
      have hsame : r₁.output.buffer = r.output.buffer ∧
          r₁.output.bytesWritten = r.output.bytesWritten ∧ r₁.output.error = r.output.error ∧
          (r.output.inputEnded = true → r₁.output.inputEnded = true) := by
        rw [hout]
        split
        · exact ⟨rfl, rfl, rfl, fun _ => rfl⟩
        · exact ⟨rfl, rfl, rfl, id⟩
      obtain ⟨hbytes, herr, hcap'⟩ := hdata r₁
      rw [hsame.1, hsame.2.1] at hbytes
      exact ⟨hbytes, herr.trans hsame.2.2.1, fun hended => pushData_inputEnded (hsame.2.2.2 hended),
        hcap'.trans hcap⟩

-- ============================================================================
-- Steps
-- ============================================================================

/-- A substring of a stream of length `n` that ends within the range of `size_t`, with
    `eof` set only at the end of the stream. -/
def Ends (n : Nat) : Op → Prop
  | .push data index eof =>
      (index + data.length ≤ n ∧ index + data.length < 2 ^ 64) ∧
        (eof = true → index + data.length = n)
  | .read _ => True

/-- The end it announces is that of the stream. -/
theorem Ends.lastIndex_eq {n : Nat} {data : List UInt8} {index : Nat}
    (h : Ends n (.push data index true)) : lastIndex data index = n :=
  (lastIndex_of_lt h.1.2).trans (h.2 rfl)

theorem Within.step {n : Nat} {r r' : StreamReassembler} (h : r.Within n) {op : Op}
    (hop : Ends n op) (hs : r.step op = some r') : r'.Within n := by
  cases step_cases hs with
  | read len => exact ⟨h.inv.read len, h.index_le, h.spans_le, h.eof_eq⟩
  | pushed data index => exact h.pushData hop.1.1
  | announced data index r₁ h₁ =>
      rw [hop.lastIndex_eq] at h₁
      exact (h.setEof h₁).pushData hop.1.1

/-- A step in which the end is announced harmlessly keeps the end right. -/
theorem EndedAt.step {n : Nat} {r r' : StreamReassembler} (hw : r.Within n) (he : r.EndedAt n)
    {op : Op} (hop : Ends n op) (hok : r.CarriesLast op) (hs : r.step op = some r') :
    r'.EndedAt n := by
  cases step_cases hs with
  | read len => exact he
  | pushed data index => exact he.pushData hw hop.1.1
  | announced data index r₁ h₁ =>
      have hend := hop.2 rfl
      rw [hop.lastIndex_eq] at h₁
      have hw₁ := hw.setEof h₁
      by_cases hlast : n = r.index + 1
      · obtain ⟨hidx, hcap, -, hset, -, -⟩ := setEof_some h₁
        obtain ⟨hle, hroom⟩ := hok (hend.trans hlast)
        exact hw₁.pushData_last (by omega) hend hop.1.2 (by omega)
          (by rw [setEof_bufferSize h₁, hcap]; exact hroom) hset
      · exact (he.setEof hw hlast h₁).pushData hw₁ hop.1.1

/-- A step in which the end is announced too early ends the output too early. -/
theorem EndedAt.not_step {n : Nat} {r r' : StreamReassembler} (hw : r.Within n) {op : Op}
    (hop : Ends n op) (hbad : ¬ r.CarriesLast op) (hs : r.step op = some r') :
    r'.output.inputEnded = true ∧ r'.index ≠ n := by
  cases step_cases hs with
  | read len => exact absurd trivial hbad
  | pushed data index => exact absurd trivial hbad
  | announced data index r₁ h₁ =>
      have hend := hop.2 rfl
      rw [hop.lastIndex_eq] at h₁
      simp only [CarriesLast, Classical.not_imp] at hbad
      obtain ⟨hlast, hno⟩ := hbad
      obtain ⟨hidx, hcap, -, -, hout, -⟩ := setEof_some h₁
      have hended : r₁.output.inputEnded = true := by
        rw [hout, if_pos (by omega)]
        rfl
      refine ⟨pushData_inputEnded hended, ?_⟩
      rw [(hw.setEof h₁).pushData_not_last (by omega) hend
        (by rwa [setEof_bufferSize h₁, hcap, hidx])]
      omega

-- ============================================================================
-- Whole runs
-- ============================================================================

/-- A push of a substring of `s` at its true index, which a `size_t` holds up to its
    end, with `eof` set only when it ends exactly at the end of `s`. -/
def TrueSubstring (s : List UInt8) (_ : StreamReassembler) : Op → Prop
  | .push data index eof =>
      (index + data.length ≤ s.length ∧ index + data.length < 2 ^ 64) ∧
        data = (s.drop index).take data.length ∧ (eof = true → index + data.length = s.length)
  | .read _ => True

instance (s : List UInt8) (r : StreamReassembler) : ∀ op, Decidable (TrueSubstring s r op)
  | .push _ _ _ => inferInstanceAs (Decidable (_ ∧ _ ∧ _))
  | .read _ => isTrue trivial

theorem TrueSubstring.ends {s : List UInt8} {r : StreamReassembler} {op : Op}
    (h : TrueSubstring s r op) : Ends s.length op := by
  cases op with
  | push data index eof => exact ⟨h.1, h.2.2⟩
  | read len => trivial

/-- Some push of the run announced the end. -/
def Announced (ops : List Op) : Prop := ∃ data index, Op.push data index true ∈ ops

/-- The output has ended iff some push announced the end and all of `s` was
    written. -/
def EndsAtEnd (s : List UInt8) (ops : List Op) (r : StreamReassembler) : Prop :=
  r.output.inputEnded = true ↔ Announced ops ∧ r.output.bytesWritten = s.length

theorem eofSet_step {r r' : StreamReassembler} {op : Op} (hs : r.step op = some r') :
    r'.eofSet = true ↔ r.eofSet = true ∨ ∃ data index, op = .push data index true := by
  cases step_cases hs with
  | read len => simp [StreamReassembler.read]
  | pushed data index => simp
  | announced data index r₁ h₁ =>
      obtain ⟨-, -, -, hset, -, -⟩ := setEof_some h₁
      simp [hset]

/-- The end is known exactly when it was announced. -/
theorem eofSet_iff_announced {endNode : List ByteString → Nat} {capacity : UInt64}
    {ok : StreamReassembler → Op → Prop} {ops : List Op} {r : StreamReassembler}
    (h : Run (Guarded ok step) (new endNode capacity) ops r) :
    r.eofSet = true ↔ Announced ops := by
  refine h.invariant_hist (I := fun ops r => r.eofSet = true ↔ Announced ops) ?_ ?_
  · simp [Announced, new]
  · intro es t e u ih hs
    rw [eofSet_step hs.2, ih]
    simp only [Announced, List.mem_append, List.mem_singleton]
    constructor
    · rintro (⟨data, index, h⟩ | ⟨data, index, rfl⟩)
      · exact ⟨data, index, Or.inl h⟩
      · exact ⟨data, index, Or.inr rfl⟩
    · rintro ⟨data, index, h | h⟩
      · exact Or.inl ⟨data, index, h⟩
      · exact Or.inr ⟨data, index, h.symm⟩

/-- **End of stream.**  Along any run of pushes of true substrings of `s` and
    reads, the output ends exactly when it should in every state reached iff no
    end is announced one byte early, except by a push that brings the last byte
    while the output has room for it. -/
theorem endsAtEnd_iff_carriesLast (endNode : List ByteString → Nat) (capacity : UInt64)
    (s : List UInt8) {ops : List Op} {r : StreamReassembler}
    (hrun : Run (Guarded (TrueSubstring s) step) (new endNode capacity) ops r) :
    (∀ pre t, pre <+: ops → Run (Guarded (TrueSubstring s) step) (new endNode capacity) pre t →
      EndsAtEnd s pre t) ↔
      Run (Guarded (fun t op => TrueSubstring s t op ∧ t.CarriesLast op) step)
        (new endNode capacity) ops r := by
  have hinv : ∀ es t, Run (Guarded (fun t op => TrueSubstring s t op ∧ CarriesLast t op) step)
      (new endNode capacity) es t → t.Within s.length ∧ t.EndedAt s.length := by
    intro es t h
    refine h.invariant (I := fun t => t.Within s.length ∧ t.EndedAt s.length)
      ⟨within_new endNode capacity _, endedAt_new endNode capacity _⟩ ?_
    rintro t e u ⟨hw, he⟩ hs
    exact ⟨hw.step hs.1.1.ends hs.2, he.step hw hs.1.1.ends hs.1.2 hs.2⟩
  refine Run.always_iff (P := EndsAtEnd s) ?_ ?_ hrun
  · intro es t h
    obtain ⟨hw, he⟩ := hinv es t h
    rw [EndsAtEnd, hw.inv.written, ← eofSet_iff_announced h]
    exact he
  · intro es t e u h hadm hbad hs hends
    obtain ⟨hw, -⟩ := hinv es t h
    obtain ⟨hended, hne⟩ := EndedAt.not_step hw hadm.ends hbad hs
    have hwritten := (hw.step hadm.ends hs).inv.written
    have := (hends.mp hended).2
    omega

/-- Announcing the end of "a" before its only byte ends the output at once. -/
theorem endsAtEnd_fails :
    ¬ ∀ (endNode : List ByteString → Nat) (capacity : UInt64) (s : List UInt8) (ops : List Op)
      (r : StreamReassembler),
      Run (Guarded (TrueSubstring s) step) (new endNode capacity) ops r → EndsAtEnd s ops r := by
  intro h
  have hrun := Run.of_exec (TrueSubstring [97]) step (new List.length 4) [.push [] 1 true]
    (by decide)
  have hends := (h _ _ _ _ _ hrun).mp (by decide)
  exact absurd hends.2 (by decide)

/-- The end of "abc" is announced ahead of a hole and reached once it is filled. -/
def holeBeforeEnd : List Op := [.push [99] 2 true, .push [97, 98] 0 false, .read 2]

theorem endsAtEnd_iff_carriesLast_hole :
    ∃ r, Run (Guarded (TrueSubstring [97, 98, 99]) step) (new List.length 4) holeBeforeEnd r ∧
      ((∀ pre t, pre <+: holeBeforeEnd →
        Run (Guarded (TrueSubstring [97, 98, 99]) step) (new List.length 4) pre t →
          EndsAtEnd [97, 98, 99] pre t) ↔
        Run (Guarded (fun t op => TrueSubstring [97, 98, 99] t op ∧ t.CarriesLast op) step)
          (new List.length 4) holeBeforeEnd r) :=
  have hrun := Run.of_exec (TrueSubstring [97, 98, 99]) step (new List.length 4) holeBeforeEnd
    (by decide)
  ⟨_, hrun, endsAtEnd_iff_carriesLast List.length 4 [97, 98, 99] hrun⟩

end StreamReassembler

end Sponge
