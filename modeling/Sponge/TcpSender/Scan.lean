/-
  Sponge.TcpSender.Scan

  Which positions of the outstanding list `ack_received` reads.

  The scan keeps a copy of the header under its iterator.  The copy is made before the
  iterator is compared with `end()`: once before the loop, and in every round after the
  iterator has moved on.  So it is made from the past-the-end position whenever the list is
  empty or gets empty.  What is copied there is never looked at (`scan_snd`), but it is
  read; all other reads, those of the refill included, are of outstanding segments
  (`readsInside_iff`).
-/

import Mathlib.Data.List.TakeWhile
import Sponge.Lib.Run
import Sponge.TcpSender.Basic

namespace Sponge

open Lib (Run Guarded)

namespace TCPSender

/-- A read through an iterator: the outstanding list of that moment, and the segment the
    iterator stands at, `none` past the end. -/
structure Read where
  list : List TCPSegment
  place : Option TCPSegment

/-- The segment that is read is an element of the list. -/
def Read.Inside (read : Read) : Prop := ∃ seg ∈ read.list, read.place = some seg

-- ============================================================================
-- The scan
-- ============================================================================

/-- The header that is copied from an iterator at the front of the list; `endHeader` stands
    for what is found past the end. -/
def headerAt (endHeader : TCPHeader) (list : List TCPSegment) : TCPHeader :=
  (list.head?.map (·.header)).getD endHeader

/-- The loop of `ack_received` over the list from `iter` on, which is all that is left of
    it: the reads in order, and the list at the end. -/
def scanLoop (endHeader : TCPHeader) (ackno : WrappingInt32) (iterHeader : TCPHeader) :
    List TCPSegment → List Read × List TCPSegment
  | [] => ([], [])
  | seg :: rest =>
      let length : Read := ⟨seg :: rest, some seg⟩
      if iterHeader.seqno.rawValue.toNat + seg.lengthInSequenceSpace - 1 < ackno.rawValue.toNat then
        -- the next header is copied before the segment is erased
        let header : Read := ⟨seg :: rest, rest.head?⟩
        let later := scanLoop endHeader ackno (headerAt endHeader rest) rest
        (length :: header :: later.1, later.2)
      else ([length], seg :: rest)

/-- The scan: a header is copied, then the loop runs. -/
def scan (endHeader : TCPHeader) (ackno : WrappingInt32) (list : List TCPSegment) :
    List Read × List TCPSegment :=
  let loop := scanLoop endHeader ackno (headerAt endHeader list) list
  (⟨list, list.head?⟩ :: loop.1, loop.2)

section Scan

variable (endHeader : TCPHeader) (ackno : WrappingInt32)

theorem scanLoop_cons_of_acknowledged {seg : TCPSegment} {rest : List TCPSegment}
    (h : isAcknowledged ackno seg = true) :
    scanLoop endHeader ackno (headerAt endHeader (seg :: rest)) (seg :: rest) =
      (⟨seg :: rest, some seg⟩ :: ⟨seg :: rest, rest.head?⟩ ::
          (scanLoop endHeader ackno (headerAt endHeader rest) rest).1,
        (scanLoop endHeader ackno (headerAt endHeader rest) rest).2) :=
  if_pos (of_decide_eq_true h)

theorem scanLoop_cons_of_not_acknowledged {seg : TCPSegment} {rest : List TCPSegment}
    (h : ¬ isAcknowledged ackno seg = true) :
    scanLoop endHeader ackno (headerAt endHeader (seg :: rest)) (seg :: rest) =
      ([⟨seg :: rest, some seg⟩], seg :: rest) :=
  if_neg fun hlt => h (decide_eq_true hlt)

/-- Whatever is copied from past the end, the scan erases the acknowledged segments. -/
theorem scan_snd (list : List TCPSegment) :
    (scan endHeader ackno list).2 = list.dropWhile (isAcknowledged ackno) := by
  show (scanLoop endHeader ackno (headerAt endHeader list) list).2 = _
  induction list with
  | nil => rfl
  | cons seg rest ih =>
      by_cases hack : isAcknowledged ackno seg = true
      · rw [scanLoop_cons_of_acknowledged endHeader ackno hack, List.dropWhile_cons_of_pos hack]
        exact ih
      · rw [scanLoop_cons_of_not_acknowledged endHeader ackno hack,
          List.dropWhile_cons_of_neg hack]

/-- The copy of a header is made inside the list exactly if there is one. -/
theorem inside_head_iff {list whole : List TCPSegment} (hsub : list ⊆ whole) :
    Read.Inside ⟨whole, list.head?⟩ ↔ list ≠ [] := by
  cases list with
  | nil => exact iff_of_false (fun ⟨_, _, h⟩ => nomatch h) fun h => h rfl
  | cons seg rest =>
      exact iff_of_true ⟨seg, hsub (List.mem_cons_self ..), rfl⟩ (List.cons_ne_nil seg rest)

/-- The loop reads inside exactly if it does not run to the end of a list. -/
theorem scanLoop_inside_iff (list : List TCPSegment) :
    (∀ read ∈ (scanLoop endHeader ackno (headerAt endHeader list) list).1, read.Inside) ↔
      list = [] ∨ list.dropWhile (isAcknowledged ackno) ≠ [] := by
  induction list with
  | nil => exact iff_of_true (List.forall_mem_nil _) (Or.inl rfl)
  | cons seg rest ih =>
      have hlength : Read.Inside ⟨seg :: rest, some seg⟩ := ⟨seg, List.mem_cons_self .., rfl⟩
      by_cases hack : isAcknowledged ackno seg = true
      · rw [scanLoop_cons_of_acknowledged endHeader ackno hack, List.dropWhile_cons_of_pos hack,
          List.forall_mem_cons, List.forall_mem_cons, ih,
          inside_head_iff (List.subset_cons_self seg rest)]
        constructor
        · rintro ⟨-, hne, hnil | hleft⟩
          · exact absurd hnil hne
          · exact Or.inr hleft
        · rintro (hnil | hleft)
          · cases hnil
          · refine ⟨hlength, ?_, Or.inr hleft⟩
            rintro rfl
            exact hleft rfl
      · rw [scanLoop_cons_of_not_acknowledged endHeader ackno hack,
          List.dropWhile_cons_of_neg hack]
        refine iff_of_true ?_ (Or.inr (List.cons_ne_nil seg rest))
        intro read hread
        rw [List.mem_singleton.mp hread]
        exact hlength

/-- The scan reads inside exactly if it leaves a segment. -/
theorem scan_inside_iff (list : List TCPSegment) :
    (∀ read ∈ (scan endHeader ackno list).1, read.Inside) ↔
      list.dropWhile (isAcknowledged ackno) ≠ [] := by
  rw [scan, List.forall_mem_cons, inside_head_iff (List.Subset.refl list), scanLoop_inside_iff]
  constructor
  · rintro ⟨hne, hnil | hleft⟩
    · exact absurd hnil hne
    · exact hleft
  · intro hleft
    refine ⟨?_, Or.inr hleft⟩
    rintro rfl
    exact hleft rfl

end Scan

-- ============================================================================
-- The refill
-- ============================================================================

/-- The reads of the insertion loop of `send_segment` from an iterator on. -/
def insertReads (seg : TCPSegment) (whole : List TCPSegment) : List TCPSegment → List Read
  | [] => []
  | x :: xs =>
      ⟨whole, some x⟩ ::
        if seg.header.seqno.rawValue < x.header.seqno.rawValue then []
        else insertReads seg whole xs

/-- The reads of `send_segment(segment)`. -/
def sendSegmentReads (s : TCPSender) (segment : TCPSegment) : List Read :=
  if segment.lengthInSequenceSpace % 2 ^ 16 = 0 then []
  else insertReads segment s.outstandingSegments s.outstandingSegments

/-- The reads of `send_new_segment(segment)`. -/
def sendNewSegmentReads (s : TCPSender) (segment : TCPSegment) : List Read :=
  sendSegmentReads
    { s with nextSeqnoAbsolute := s.nextSeqnoAbsolute + segment.lengthInSequenceSpace }
    (withSeqno segment s.nextSeqno)

/-- The reads of one pass of the loop of `fill_window`. -/
def sendDataReads (s : TCPSender) : List Read :=
  let (payload, stream) := s.stream.read s.bytesPerSegment
  sendNewSegmentReads { s with stream := stream, finSent := s.finSent || s.piggybacksFin }
    { header := { fin := s.piggybacksFin }, payload := payload }

/-- The reads of the loop of `fill_window`. -/
def fillLoopReads : Nat → TCPSender → List Read
  | 0, _ => []
  | fuel + 1, s =>
      if s.windowSize > 0 ∧ s.stream.bufferEmpty = false then
        s.sendDataReads ++ fillLoopReads fuel s.sendData
      else []

/-- The reads of `fill_window()`. -/
def fillWindowReads (s : TCPSender) : List Read :=
  let syn := if s.nextSeqnoAbsolute = 0 then s.sendNewSegmentReads synSegment else []
  let s := s.sendSyn
  if s.windowSize = 0 then syn
  else
    let t := fillLoop s.stream.bufferSize s
    syn ++ fillLoopReads s.stream.bufferSize s ++
      if t.stream.eof = true ∧ t.finSent = false ∧ t.windowSize > 0 then
        sendNewSegmentReads { t with finSent := true } finSegment
      else []

theorem insertReads_inside {seg : TCPSegment} {whole list : List TCPSegment}
    (hsub : list ⊆ whole) : ∀ read ∈ insertReads seg whole list, read.Inside := by
  induction list with
  | nil => exact List.forall_mem_nil _
  | cons x xs ih =>
      obtain ⟨hx, hxs⟩ := List.cons_subset.mp hsub
      refine List.forall_mem_cons.mpr ⟨⟨x, hx, rfl⟩, ?_⟩
      split
      · exact List.forall_mem_nil _
      · exact ih hxs

theorem sendNewSegmentReads_inside (s : TCPSender) (segment : TCPSegment) :
    ∀ read ∈ s.sendNewSegmentReads segment, read.Inside := by
  rw [sendNewSegmentReads, sendSegmentReads]
  split
  · exact List.forall_mem_nil _
  · exact insertReads_inside (List.Subset.refl _)

theorem fillLoopReads_inside (fuel : Nat) (s : TCPSender) :
    ∀ read ∈ fillLoopReads fuel s, read.Inside := by
  induction fuel generalizing s with
  | zero => exact List.forall_mem_nil _
  | succ fuel ih =>
      rw [fillLoopReads]
      split
      · exact List.forall_mem_append.mpr ⟨sendNewSegmentReads_inside _ _, ih s.sendData⟩
      · exact List.forall_mem_nil _

/-- The refill only reads outstanding segments. -/
theorem fillWindowReads_inside (s : TCPSender) : ∀ read ∈ s.fillWindowReads, read.Inside := by
  have hnil : ∀ read ∈ ([] : List Read), read.Inside := List.forall_mem_nil _
  have hsyn : ∀ read ∈ (if s.nextSeqnoAbsolute = 0 then s.sendNewSegmentReads synSegment else []),
      read.Inside := by
    split
    · exact sendNewSegmentReads_inside s synSegment
    · exact hnil
  rw [fillWindowReads]
  split
  · exact hsyn
  · refine List.forall_mem_append.mpr
      ⟨List.forall_mem_append.mpr ⟨hsyn, fillLoopReads_inside _ _⟩, ?_⟩
    split
    · exact sendNewSegmentReads_inside _ finSegment
    · exact hnil

-- ============================================================================
-- Acknowledgements
-- ============================================================================

/-- The reads of `ack_received(ackno, window_size)`. -/
def ackReads (s : TCPSender) (endHeader : TCPHeader) (ackno : WrappingInt32)
    (windowSize : UInt16) : List Read :=
  if s.Accepts ackno then
    (scan endHeader ackno s.outstandingSegments).1 ++
      (s.acknowledge ackno windowSize).fillWindowReads
  else []

/-- All reads of the outstanding list are of its elements. -/
def ReadsInside (s : TCPSender) (endHeader : TCPHeader) (ackno : WrappingInt32)
    (windowSize : UInt16) : Prop :=
  ∀ read ∈ s.ackReads endHeader ackno windowSize, read.Inside

theorem ReadsInside.false_notMem_map {s : TCPSender} {endHeader : TCPHeader}
    {ackno : WrappingInt32} {windowSize : UInt16}
    (h : s.ReadsInside endHeader ackno windowSize) :
    false ∉ (s.ackReads endHeader ackno windowSize).map (·.place.isSome) := by
  intro hmem
  obtain ⟨read, hread, hplace⟩ := List.mem_map.mp hmem
  obtain ⟨seg, -, hseg⟩ := h read hread
  rw [hseg] at hplace
  cases hplace

/-- **Reads of the outstanding list.**  In every state and for every acknowledgement,
    `ack_received` only reads outstanding segments exactly if it ignores the acknowledgement
    or some outstanding segment is not acknowledged by it. -/
theorem readsInside_iff (s : TCPSender) (endHeader : TCPHeader) (ackno : WrappingInt32)
    (windowSize : UInt16) :
    s.ReadsInside endHeader ackno windowSize ↔
      (s.Accepts ackno → ∃ seg ∈ s.outstandingSegments, isAcknowledged ackno seg = false) := by
  have hleft : s.outstandingSegments.dropWhile (isAcknowledged ackno) ≠ [] ↔
      ∃ seg ∈ s.outstandingSegments, isAcknowledged ackno seg = false := by
    rw [Ne, List.dropWhile_eq_nil_iff]
    simp
  rw [ReadsInside, ackReads, ← hleft]
  split
  · rename_i haccepts
    rw [List.forall_mem_append, scan_inside_iff]
    constructor
    · intro h _
      exact h.1
    · intro h
      exact ⟨h haccepts, fillWindowReads_inside _⟩
  · rename_i haccepts
    exact iff_of_true (List.forall_mem_nil _) fun h => absurd h haccepts

/-- The SYN is acknowledged, and the header behind it is copied from past the end; a
    repeated acknowledgement then finds the list empty. -/
theorem readsInside_fails :
    ∃ s, Run (Guarded (fun _ _ => True) fun s op => some (step s op)) (new 16 1000 ⟨0⟩)
        [.fillWindow] s ∧
      (s.ackReads {} ⟨1⟩ 1).map (·.place.isSome) = [true, true, false] ∧
      ((s.ackReceived ⟨1⟩ 1).ackReads {} ⟨1⟩ 1).map (·.place.isSome) = [false] ∧
      ¬ s.ReadsInside {} ⟨1⟩ 1 := by
  have hrun := Run.of_exec (fun _ _ => True) (fun s op => some (step s op)) (new 16 1000 ⟨0⟩)
    [.fillWindow] (by decide)
  refine ⟨_, hrun, by decide, by decide, fun h => ?_⟩
  exact absurd h.false_notMem_map (by decide)

end TCPSender

end Sponge
