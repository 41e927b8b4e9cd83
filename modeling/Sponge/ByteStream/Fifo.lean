/-
  Sponge.ByteStream.Fifo

  A byte stream over any sequence of operations: what was removed, followed by the
  buffer, is what was accepted.

  A `FifoTrace` carries a stream together with the bytes that `write` accepted and
  the bytes that `read` and `pop_output` removed.  The buffer, the peeks and the
  writes behave as in a bounded queue whatever the operations are (`FifoInv`).  The
  count of bytes read does not: `pop_output` adds its argument, not the number of
  bytes it removed.  So the counters are right exactly in the runs in which nothing
  is popped beyond the end of the buffer (`accountedFifo_iff_popsFit`).
-/

import Sponge.ByteStream
import Sponge.Lib.Run

namespace Sponge

open Lib (Run Guarded)

namespace ByteStream

/-- What the writer and the reader of a stream can do with it. -/
inductive Op
  | write (data : List UInt8)
  | read (len : Nat)
  | peekOutput (len : Nat)
  | popOutput (len : Nat)
  | endInput

end ByteStream

/-- A stream with the bytes that went in and came out. -/
structure FifoTrace where
  stream : ByteStream
  /-- the accepted prefixes of the strings written -/
  accepted : List UInt8
  /-- the bytes taken out of the buffer, by reads and by pops -/
  removed : List UInt8

namespace FifoTrace

open ByteStream

def new (capacity : Nat) : FifoTrace where
  stream := .new capacity
  accepted := []
  removed := []

def after (t : FifoTrace) : Op → FifoTrace
  | .write data =>
      { t with
        stream := (t.stream.write data).2
        accepted := t.accepted ++ data.take (t.stream.write data).1 }
  | .read len =>
      { t with
        stream := (t.stream.read len).2
        removed := t.removed ++ (t.stream.read len).1 }
  | .peekOutput _ => t
  | .popOutput len =>
      { t with
        stream := t.stream.popOutput len
        removed := t.removed ++ t.stream.peekOutput len }
  | .endInput => { t with stream := t.stream.endInput }

def step (t : FifoTrace) (op : Op) : Option FifoTrace := some (t.after op)

-- ============================================================================
-- The queue
-- ============================================================================

/-- What holds whatever the operations are. -/
structure FifoInv (capacity : Nat) (t : FifoTrace) : Prop where
  capacity_eq : t.stream.capacity = capacity
  fifo : t.removed ++ t.stream.buffer = t.accepted
  written_eq : t.stream.bytesWritten = t.accepted.length

theorem fifoInv_new (capacity : Nat) : (new capacity).FifoInv capacity where
  capacity_eq := rfl
  fifo := rfl
  written_eq := rfl

theorem FifoInv.after {capacity : Nat} {t : FifoTrace} (h : t.FifoInv capacity) (op : Op) :
    (t.after op).FifoInv capacity := by
  cases op with
  | write data =>
      have htake : (data.take (t.stream.bytesToWrite data)).length = t.stream.bytesToWrite data := by
        rw [List.length_take, bytesToWrite_eq]
        omega
      refine ⟨h.capacity_eq, ?_, ?_⟩
      · show t.removed ++ (t.stream.buffer ++ _) = t.accepted ++ _
        rw [← List.append_assoc, h.fifo]
        rfl
      · show t.stream.bytesWritten + t.stream.bytesToWrite data = (t.accepted ++ _).length
        rw [List.length_append, h.written_eq, write_fst, htake]
  | read len =>
      refine ⟨h.capacity_eq, ?_, h.written_eq⟩
      show t.removed ++ (t.stream.read len).1 ++ (t.stream.read len).2.buffer = t.accepted
      rw [List.append_assoc, read_append, h.fifo]
  | peekOutput len => exact h
  | popOutput len =>
      refine ⟨h.capacity_eq, ?_, h.written_eq⟩
      show t.removed ++ t.stream.peekOutput len ++ (t.stream.popOutput len).buffer = t.accepted
      rw [List.append_assoc, peekOutput_append, h.fifo]
  | endInput => exact ⟨h.capacity_eq, h.fifo, h.written_eq⟩

theorem fifoInv_run {adm : FifoTrace → Op → Prop} {capacity : Nat} {ops : List Op}
    {t : FifoTrace} (hrun : Run (Guarded adm step) (new capacity) ops t) : t.FifoInv capacity := by
  refine hrun.invariant (I := FifoInv capacity) (fifoInv_new capacity) ?_
  rintro t op u h ⟨-, hs⟩
  obtain rfl := Option.some.inj hs
  exact h.after op

-- ============================================================================
-- The counters
-- ============================================================================

/-- The stream is a bounded queue of bytes, and its counters say what went in and
    what came out. -/
structure AccountedFifo (capacity : Nat) (t : FifoTrace) : Prop where
  fifo : t.removed ++ t.stream.buffer = t.accepted
  accepts : t.stream.inputEnded = false →
    ∀ data, (t.stream.write data).1 = min data.length t.stream.remainingCapacity
  bounded : t.stream.bufferSize ≤ capacity
  peeks : ∀ len, t.stream.peekOutput len = (t.stream.read len).1
  accounted : t.stream.bytesWritten = t.stream.bytesRead + t.stream.bufferSize
  read_eq : t.stream.bytesRead = t.removed.length

/-- A pop asks for no more than the buffer holds. -/
def PopFits (t : FifoTrace) : Op → Prop
  | .popOutput len => len ≤ t.stream.bufferSize
  | _ => True

instance (t : FifoTrace) : ∀ op, Decidable (t.PopFits op)
  | .popOutput _ => inferInstanceAs (Decidable (_ ≤ _))
  | .write _ | .read _ | .peekOutput _ | .endInput => isTrue trivial

/-- Only the count of bytes read is left to be shown. -/
theorem FifoInv.accountedFifo {capacity : Nat} {t : FifoTrace} (h : t.FifoInv capacity)
    (hread : t.stream.bytesRead = t.removed.length) : t.AccountedFifo capacity where
  fifo := h.fifo
  accepts := fun _ data => t.stream.bytesToWrite_eq data
  bounded := h.capacity_eq ▸ t.stream.fits
  peeks := fun _ => rfl
  accounted := by
    rw [h.written_eq, ← h.fifo, List.length_append, hread]
    rfl
  read_eq := hread

/-- An operation counts what it removes, unless it is a pop beyond the buffer. -/
theorem bytesRead_after {t : FifoTrace} (h : t.stream.bytesRead = t.removed.length) (op : Op) :
    (t.after op).stream.bytesRead = (t.after op).removed.length ↔ t.PopFits op := by
  cases op with
  | write data => exact iff_of_true h trivial
  | read len =>
      have hlen : (t.stream.read len).1.length = t.stream.bytesToRead len := by
        rw [read_fst, List.length_take, bytesToRead_eq]
        omega
      refine iff_of_true ?_ trivial
      show t.stream.bytesRead + t.stream.bytesToRead len = (t.removed ++ _).length
      rw [List.length_append, hlen, h]
  | peekOutput len => exact iff_of_true h trivial
  | popOutput len =>
      have hlen : (t.stream.peekOutput len).length = min len t.stream.bufferSize := by
        rw [peekOutput, List.length_take, bytesToRead_eq, bufferSize]
        omega
      show t.stream.bytesRead + len = (t.removed ++ _).length ↔ len ≤ t.stream.bufferSize
      rw [List.length_append, hlen, h]
      omega
  | endInput => exact iff_of_true h trivial

/-- **Accounting.**  Along a run the stream is an accounted bounded queue exactly if
    no pop asks for more than the buffer holds. -/
theorem accountedFifo_iff_popsFit (capacity : Nat) {ops : List Op} {t : FifoTrace}
    (hrun : Run (Guarded (fun _ _ => True) step) (new capacity) ops t) :
    (∀ fs u, fs <+: ops → Run (Guarded (fun _ _ => True) step) (new capacity) fs u →
      u.AccountedFifo capacity) ↔
    Run (Guarded PopFits step) (new capacity) ops t := by
  have hread : ∀ fs u, Run (Guarded PopFits step) (new capacity) fs u →
      u.stream.bytesRead = u.removed.length := by
    intro fs u hu
    refine hu.invariant (I := fun u => u.stream.bytesRead = u.removed.length) rfl ?_
    rintro u op v h ⟨hop, hs⟩
    obtain rfl := Option.some.inj hs
    exact (bytesRead_after h op).mpr hop
  refine Run.always_iff_of_true (P := fun _ => AccountedFifo capacity)
    (fun fs u hu => (fifoInv_run hu).accountedFifo (hread fs u hu)) ?_ hrun
  intro fs u op v hu hop hs hv
  obtain rfl := Option.some.inj hs
  exact hop ((bytesRead_after (hread fs u hu) op).mp hv.read_eq)

/-- Five bytes offered to a stream of four; two are read, one is peeked at and
    popped. -/
theorem accountedFifo_iff_popsFit_partial :
    ∃ t, Run (Guarded (fun _ _ => True) step) (new 4)
        [.write [97, 98, 99, 100, 101], .read 2, .peekOutput 7, .popOutput 1, .endInput] t ∧
      t.accepted = [97, 98, 99, 100] ∧ t.removed = [97, 98, 99] ∧ t.AccountedFifo 4 :=
  have hrun := Run.of_exec PopFits step (new 4)
    [.write [97, 98, 99, 100, 101], .read 2, .peekOutput 7, .popOutput 1, .endInput] (by decide)
  have hall := hrun.mono fun _ _ _ hs => ⟨trivial, hs.2⟩
  ⟨_, hall, by decide, by decide,
    (accountedFifo_iff_popsFit 4 hall).mpr hrun _ _ (List.prefix_refl _) hall⟩

/-- A pop from an empty stream counts a byte that was never there. -/
theorem accountedFifo_fails :
    ∃ t, Run (Guarded (fun _ _ => True) step) (new 1) [.popOutput 1] t ∧
      t.stream.bytesWritten = 0 ∧ t.stream.bytesRead = 1 ∧ t.removed = [] ∧
      ¬ t.AccountedFifo 1 := by
  have hrun := Run.of_exec (fun _ _ => True) step (new 1) [.popOutput 1] (by decide)
  exact ⟨_, hrun, by decide, by decide, by decide, fun h => absurd h.read_eq (by decide)⟩

end FifoTrace

end Sponge
