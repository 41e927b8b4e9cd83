/-
  Sponge.TcpSender.Trace

  The histories that the properties of a sender speak about.

  A `SenderTrace` is a sender together with what its owner wrote, what it pushed
  (and what of that for the first time) and which acknowledgements it accepted.
  Every operation is a direct effect followed by new segments
  (`after_eq_sent`), so an invariant has to be checked once for `direct` and once
  for `Emit` (`invariant`).
-/

import Sponge.TcpSender.Fill

namespace Sponge

open Lib (Run Guarded)

namespace TCPSender

/-- An acknowledgement that `ack_received` did not turn away. -/
structure Ack where
  ackno : WrappingInt32
  windowSize : UInt16
  /-- the absolute number it stood for -/
  absolute : Nat

/-- The absolute number an acknowledgement stands for. -/
def absolute (s : TCPSender) (ackno : WrappingInt32) : Nat :=
  (unwrap ackno s.isn (UInt64.ofNat s.nextSeqnoAbsolute)).toNat

end TCPSender

/-- A sender with the history its properties speak about. -/
structure SenderTrace where
  sender : TCPSender
  /-- bytes that `stream_in()` accepted -/
  written : List UInt8
  /-- everything that was pushed to `segments_out()` -/
  pushed : List TCPSegment
  /-- the segments among `pushed` that were pushed for the first time -/
  firstTime : List TCPSegment
  /-- the acknowledgements that were accepted -/
  accepted : List TCPSender.Ack

namespace SenderTrace

open TCPSender

def new (capacity : UInt64) (retxTimeout : UInt16) (isn : WrappingInt32) : SenderTrace where
  sender := TCPSender.new capacity retxTimeout isn
  written := []
  pushed := []
  firstTime := []
  accepted := []

/-- What the operation pushed to `segments_out()`. -/
def newlyPushed (s : TCPSender) (op : Op) : List TCPSegment :=
  (s.step op).segmentsOut.drop s.segmentsOut.length

/-- The history after one operation: what `fill_window` and `ack_received` push is
    pushed for the first time. -/
def after (t : SenderTrace) (op : Op) : SenderTrace where
  sender := t.sender.step op
  written := match op with
    | .write data => t.written ++ data.take (t.sender.stream.write data).1
    | _ => t.written
  pushed := t.pushed ++ newlyPushed t.sender op
  firstTime := match op with
    | .fillWindow | .ackReceived _ _ => t.firstTime ++ newlyPushed t.sender op
    | _ => t.firstTime
  accepted := match op with
    | .ackReceived ackno windowSize =>
        if t.sender.Accepts ackno then
          t.accepted ++ [⟨ackno, windowSize, t.sender.absolute ackno⟩]
        else t.accepted
    | _ => t.accepted

def step (t : SenderTrace) (op : Op) : Option SenderTrace := some (t.after op)

/-- What an operation does apart from filling the window. -/
def direct (t : SenderTrace) : Op → SenderTrace
  | .fillWindow => t
  | .ackReceived ackno windowSize =>
      if t.sender.Accepts ackno then
        { t with
          sender := t.sender.acknowledge ackno windowSize
          accepted := t.accepted ++ [⟨ackno, windowSize, t.sender.absolute ackno⟩] }
      else t
  | op => t.after op

/-- The history after new segments were sent. -/
def sent (t : SenderTrace) (segs : List TCPSegment) (s : TCPSender) : SenderTrace :=
  { t with sender := s, pushed := t.pushed ++ segs, firstTime := t.firstTime ++ segs }

theorem newlyPushed_of_run {s u : TCPSender} (op : Op) {segs : List TCPSegment}
    (hrun : Run Emit u segs (s.step op)) (hq : u.segmentsOut = s.segmentsOut) :
    newlyPushed s op = segs := by
  rw [newlyPushed, segmentsOut_of_run hrun, hq, List.drop_left]

/-- An operation is its direct effect, followed by new segments. -/
theorem after_eq_sent (t : SenderTrace) (op : Op) :
    ∃ segs, Run Emit (t.direct op).sender segs (t.after op).sender ∧
      t.after op = (t.direct op).sent segs (t.after op).sender := by
  cases op with
  | fillWindow =>
      obtain ⟨-, segs, hrun⟩ := t.sender.fillWindow_run
      refine ⟨segs, hrun, ?_⟩
      have hnew := newlyPushed_of_run .fillWindow hrun rfl
      simp [after, direct, sent, hnew]
  | ackReceived ackno w =>
      by_cases hacc : t.sender.Accepts ackno
      · have hstep : t.sender.step (.ackReceived ackno w) =
            (t.sender.acknowledge ackno w).fillWindow := if_pos hacc
        obtain ⟨-, segs, hrun⟩ := (t.sender.acknowledge ackno w).fillWindow_run
        rw [← hstep] at hrun
        have hnew := newlyPushed_of_run _ hrun (acknowledge_segmentsOut ..)
        refine ⟨segs, ?_, ?_⟩
        · rw [direct, if_pos hacc]
          exact hrun
        · simp [after, direct, sent, hnew, hacc]
      · have hstep : t.sender.step (.ackReceived ackno w) = t.sender := if_neg hacc
        refine ⟨[], ?_, ?_⟩
        · rw [direct, if_neg hacc, after, hstep]
          exact Run.nil
        · simp [after, direct, sent, newlyPushed, hacc, hstep]
  | write data => exact ⟨[], Run.nil, by simp [direct, sent]⟩
  | endInput => exact ⟨[], Run.nil, by simp [direct, sent]⟩
  | setError => exact ⟨[], Run.nil, by simp [direct, sent]⟩
  | tick ms => exact ⟨[], Run.nil, by simp [direct, sent]⟩
  | sendEmptySegment => exact ⟨[], Run.nil, by simp [direct, sent]⟩
  | drain => exact ⟨[], Run.nil, by simp [direct, sent]⟩

section Direct

variable (t : SenderTrace)

@[simp] theorem direct_write (data : List UInt8) :
    t.direct (.write data) = { t with
      sender := t.sender.writeStream data
      written := t.written ++ data.take (t.sender.stream.write data).1 } := by
  simp [direct, after, newlyPushed, TCPSender.step, writeStream]

@[simp] theorem direct_endInput : t.direct .endInput = { t with sender := t.sender.endStream } := by
  simp [direct, after, newlyPushed, TCPSender.step, endStream]

@[simp] theorem direct_setError :
    t.direct .setError = { t with sender := t.sender.setStreamError } := by
  simp [direct, after, newlyPushed, TCPSender.step, setStreamError]

@[simp] theorem direct_drain : t.direct .drain = { t with sender := t.sender.drain } := by
  simp [direct, after, newlyPushed, TCPSender.step, TCPSender.drain]

@[simp] theorem direct_sendEmptySegment :
    t.direct .sendEmptySegment = { t with
      sender := t.sender.sendEmptySegment
      pushed := t.pushed ++ [t.sender.emptySegment] } := by
  simp [direct, after, newlyPushed, TCPSender.step, TCPSender.sendEmptySegment]

@[simp] theorem direct_fillWindow : t.direct .fillWindow = t := rfl

theorem direct_ackReceived {ackno : WrappingInt32} (h : t.sender.Accepts ackno) (w : UInt16) :
    t.direct (.ackReceived ackno w) = { t with
      sender := t.sender.acknowledge ackno w
      accepted := t.accepted ++ [⟨ackno, w, t.sender.absolute ackno⟩] } := if_pos h

theorem direct_ackReceived_of_not {ackno : WrappingInt32} (h : ¬ t.sender.Accepts ackno)
    (w : UInt16) : t.direct (.ackReceived ackno w) = t := if_neg h

theorem direct_tick (ms : Nat) :
    ∃ segs timer timeout retransmissions,
      (segs = [] ∨ ∃ seg, t.sender.outstandingSegments.head? = some seg ∧ segs = [seg]) ∧
      t.direct (.tick ms) = { t with
        sender := { t.sender with
          segmentsOut := t.sender.segmentsOut ++ segs
          retransmissionTimer := timer
          retransmissionTimeout := timeout
          consecutiveRetransmissions := retransmissions }
        pushed := t.pushed ++ segs } := by
  obtain ⟨segs, timer, timeout, retransmissions, hsegs, heq⟩ := t.sender.tick_eq ms
  refine ⟨segs, timer, timeout, retransmissions, hsegs, ?_⟩
  simp [direct, after, newlyPushed, TCPSender.step, heq]

/-- What no direct effect changes. -/
theorem direct_frame (op : Op) :
    (t.direct op).sender.isn = t.sender.isn ∧
    (t.direct op).sender.nextSeqnoAbsolute = t.sender.nextSeqnoAbsolute ∧
    (t.direct op).sender.finSent = t.sender.finSent ∧
    (t.direct op).sender.stream.bytesRead = t.sender.stream.bytesRead ∧
    (t.direct op).firstTime = t.firstTime := by
  cases op with
  | write data => simp [writeStream]
  | endInput => simp [endStream]
  | setError => simp [setStreamError]
  | fillWindow => simp
  | ackReceived ackno w =>
      by_cases hacc : t.sender.Accepts ackno
      · simp [direct_ackReceived t hacc]
      · simp [direct_ackReceived_of_not t hacc]
  | tick ms =>
      obtain ⟨segs, timer, timeout, retransmissions, -, heq⟩ := t.direct_tick ms
      simp [heq]
  | sendEmptySegment => simp [TCPSender.sendEmptySegment]
  | drain => simp [TCPSender.drain]

@[simp] theorem direct_isn (op : Op) : (t.direct op).sender.isn = t.sender.isn :=
  (t.direct_frame op).1

@[simp] theorem direct_nextSeqnoAbsolute (op : Op) :
    (t.direct op).sender.nextSeqnoAbsolute = t.sender.nextSeqnoAbsolute := (t.direct_frame op).2.1

@[simp] theorem direct_finSent (op : Op) : (t.direct op).sender.finSent = t.sender.finSent :=
  (t.direct_frame op).2.2.1

@[simp] theorem direct_bytesRead (op : Op) :
    (t.direct op).sender.stream.bytesRead = t.sender.stream.bytesRead :=
  (t.direct_frame op).2.2.2.1

@[simp] theorem direct_firstTime (op : Op) : (t.direct op).firstTime = t.firstTime :=
  (t.direct_frame op).2.2.2.2

/-- Apart from a write, a direct effect at most sets a flag of the stream. -/
theorem direct_stream {op : Op} (hop : ∀ data, op ≠ .write data) :
    (t.direct op).written = t.written ∧
    ((t.direct op).sender.stream = t.sender.stream ∨
      (t.direct op).sender.stream = t.sender.stream.endInput ∨
      (t.direct op).sender.stream = t.sender.stream.setError) := by
  cases op with
  | write data => exact absurd rfl (hop data)
  | endInput => simp [endStream]
  | setError => simp [setStreamError]
  | fillWindow => simp
  | ackReceived ackno w =>
      by_cases hacc : t.sender.Accepts ackno
      · simp [direct_ackReceived t hacc]
      · simp [direct_ackReceived_of_not t hacc]
  | tick ms =>
      obtain ⟨segs, timer, timeout, retransmissions, -, heq⟩ := t.direct_tick ms
      simp [heq]
  | sendEmptySegment => simp [TCPSender.sendEmptySegment]
  | drain => simp [TCPSender.drain]

/-- Apart from an acknowledgement, a direct effect leaves the window, the
    outstanding segments and the timer's switch alone. -/
theorem direct_window {op : Op} (hop : ∀ ackno w, op ≠ .ackReceived ackno w) :
    (t.direct op).accepted = t.accepted ∧
    (t.direct op).sender.outstandingSegments = t.sender.outstandingSegments ∧
    (t.direct op).sender.retransmissionTimerOn = t.sender.retransmissionTimerOn ∧
    (t.direct op).sender.highestAckno = t.sender.highestAckno ∧
    (t.direct op).sender.highestAcknoRight = t.sender.highestAcknoRight ∧
    (t.direct op).sender.windowSize = t.sender.windowSize := by
  cases op with
  | write data => simp [writeStream]
  | endInput => simp [endStream]
  | setError => simp [setStreamError]
  | fillWindow => simp
  | ackReceived ackno w => exact absurd rfl (hop ackno w)
  | tick ms =>
      obtain ⟨segs, timer, timeout, retransmissions, -, heq⟩ := t.direct_tick ms
      simp [heq]
  | sendEmptySegment => simp [TCPSender.sendEmptySegment]
  | drain => simp [TCPSender.drain]

/-- No direct effect adds an outstanding segment. -/
theorem direct_outstanding_subset (op : Op) :
    (t.direct op).sender.outstandingSegments ⊆ t.sender.outstandingSegments := by
  by_cases hop : ∃ ackno w, op = .ackReceived ackno w
  · obtain ⟨ackno, w, rfl⟩ := hop
    by_cases hacc : t.sender.Accepts ackno
    · rw [direct_ackReceived t hacc, acknowledge_outstandingSegments]
      exact List.dropWhile_subset _
    · simp [direct_ackReceived_of_not t hacc]
  · push Not at hop
    simp [(t.direct_window hop).2.1]

/-- A direct effect pushes at most a copy of an outstanding segment or an empty
    segment. -/
theorem direct_pushed (op : Op) :
    (t.direct op).pushed = t.pushed ∨
    (∃ seg ∈ t.sender.outstandingSegments, (t.direct op).pushed = t.pushed ++ [seg]) ∨
    (t.direct op).pushed = t.pushed ++ [t.sender.emptySegment] := by
  cases op with
  | write data => simp
  | endInput => simp
  | setError => simp
  | fillWindow => simp
  | ackReceived ackno w =>
      by_cases hacc : t.sender.Accepts ackno
      · simp [direct_ackReceived t hacc]
      · simp [direct_ackReceived_of_not t hacc]
  | tick ms =>
      obtain ⟨segs, timer, timeout, retransmissions, hsegs, heq⟩ := t.direct_tick ms
      rcases hsegs with rfl | ⟨seg, hhead, rfl⟩
      · simp [heq]
      · exact Or.inr (Or.inl ⟨seg, List.mem_of_mem_head? hhead, by rw [heq]⟩)
  | sendEmptySegment => simp
  | drain => simp

end Direct

/-- What is kept by the direct effect of an operation and by sending a new
    segment is kept by the operation. -/
theorem after_induction {I : SenderTrace → Prop} {t : SenderTrace} {op : Op}
    (hdirect : I (t.direct op))
    (hemit : ∀ t seg s, I t → Emit t.sender seg s → I (t.sent [seg] s)) : I (t.after op) := by
  obtain ⟨segs, hrun, heq⟩ := t.after_eq_sent op
  rw [heq]
  generalize t.direct op = u at hdirect hrun
  refine hrun.invariant_hist (I := fun segs s => I (u.sent segs s)) ?_ ?_
  · simpa [sent] using hdirect
  · intro es s e u hI he
    simpa [sent] using hemit _ e u hI he

/-- The invariant rule for runs of a sender. -/
theorem invariant {adm : SenderTrace → Op → Prop} {I : SenderTrace → Prop} {t₀ t : SenderTrace}
    {ops : List Op} (hrun : Run (Guarded adm step) t₀ ops t) (hinit : I t₀)
    (hdirect : ∀ t op, adm t op → I t → I (t.direct op))
    (hemit : ∀ t seg s, I t → Emit t.sender seg s → I (t.sent [seg] s)) : I t := by
  refine hrun.invariant (I := I) hinit ?_
  rintro t op u hI ⟨hadm, hs⟩
  obtain rfl := Option.some.inj hs
  exact after_induction (hdirect t op hadm hI) hemit

theorem nextSeqnoAbsolute_le_after (t : SenderTrace) (op : Op) :
    t.sender.nextSeqnoAbsolute ≤ (t.after op).sender.nextSeqnoAbsolute := by
  obtain ⟨segs, hrun, -⟩ := t.after_eq_sent op
  have hle := nextSeqnoAbsolute_le_of_run hrun
  rwa [direct_nextSeqnoAbsolute] at hle

/-- A FIN stays sent, and what was read of the stream stays read. -/
theorem finSent_bytesRead_after (t : SenderTrace) (op : Op) :
    (t.sender.finSent = true → (t.after op).sender.finSent = true) ∧
    t.sender.stream.bytesRead ≤ (t.after op).sender.stream.bytesRead := by
  apply after_induction (I := fun u => (t.sender.finSent = true → u.sender.finSent = true) ∧
    t.sender.stream.bytesRead ≤ u.sender.stream.bytesRead)
  · simp
  · rintro u seg s ⟨hfin, hread⟩ ⟨hf⟩
    have := hf.bytesRead_eq
    refine ⟨fun h => ?_, ?_⟩
    · simp [sent, hfin h]
    · simp only [sent, afterSend_stream]
      omega

/-- No operation clears the error flag of the stream. -/
theorem error_after {t : SenderTrace} (h : t.sender.stream.error = true) (op : Op) :
    (t.after op).sender.stream.error = true := by
  apply after_induction (I := fun t => t.sender.stream.error = true)
  · by_cases hop : ∃ data, op = .write data
    · obtain ⟨data, rfl⟩ := hop
      rw [direct_write]
      exact h
    · push Not at hop
      obtain ⟨-, hs | hs | hs⟩ := t.direct_stream hop <;> simp [hs, h]
  · rintro t seg s ht ⟨hf⟩
    exact hf.error_eq.trans ht

/-- What is in the sender's queue was pushed to it. -/
def Queued (t : SenderTrace) : Prop := t.sender.segmentsOut ⊆ t.pushed

/-- Pushing to the queue and to the history alike keeps this. -/
theorem Queued.push {t u : SenderTrace} (h : t.Queued) (segs : List TCPSegment)
    (hout : u.sender.segmentsOut = t.sender.segmentsOut ++ segs)
    (hpushed : u.pushed = t.pushed ++ segs) : u.Queued := by
  unfold Queued
  rw [hout, hpushed]
  exact List.append_subset.mpr
    ⟨List.Subset.trans h (List.subset_append_left ..), List.subset_append_right ..⟩

theorem Queued.direct {t : SenderTrace} (h : t.Queued) (op : Op) : (t.direct op).Queued := by
  cases op with
  | write data => exact h.push [] (by simp [writeStream]) (by simp)
  | endInput => exact h.push [] (by simp [endStream]) (by simp)
  | setError => exact h.push [] (by simp [setStreamError]) (by simp)
  | fillWindow => exact h
  | ackReceived ackno w =>
      by_cases hacc : t.sender.Accepts ackno
      · exact h.push [] (by simp [direct_ackReceived t hacc]) (by simp [direct_ackReceived t hacc])
      · rwa [direct_ackReceived_of_not t hacc]
  | tick ms =>
      obtain ⟨segs, timer, timeout, retransmissions, -, heq⟩ := t.direct_tick ms
      exact h.push segs (by rw [heq]) (by rw [heq])
  | sendEmptySegment =>
      exact h.push [t.sender.emptySegment] (by simp [TCPSender.sendEmptySegment]) (by simp)
  | drain => simp [Queued, TCPSender.drain]

theorem Queued.after {t : SenderTrace} (h : t.Queued) (op : Op) : (t.after op).Queued := by
  apply after_induction (I := Queued) (h.direct op)
  rintro t seg s ht ⟨hf⟩
  exact ht.push [seg] rfl rfl

theorem isn_run {adm : SenderTrace → Op → Prop} {t₀ t : SenderTrace} {ops : List Op}
    (hrun : Run (Guarded adm step) t₀ ops t) : t.sender.isn = t₀.sender.isn :=
  SenderTrace.invariant (I := fun t => t.sender.isn = t₀.sender.isn) hrun rfl
    (fun t op _ h => (t.direct_isn op).trans h) (fun _ _ _ h he => he.isn_eq.trans h)

end SenderTrace

end Sponge
