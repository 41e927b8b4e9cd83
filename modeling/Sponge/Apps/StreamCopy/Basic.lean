/-
  Sponge.Apps.StreamCopy.Basic

  The copy between a socket and the standard streams (`bidirectional_stream_copy.cc`):
  four rules of an event loop with two byte streams between them.

  The two directions are the same but for their descriptors and for how they end: the
  socket is shut down for writing, and the standard output is closed.  A `Lane` is what
  matters for one direction.  The socket is written to in one direction and read from in
  the other, so it is part of both, but a callback only touches the lane that it is for
  (`readInto_ends`, `writeOut_ends`).
-/

import Mathlib.Logic.Function.Basic
import Sponge.ByteStream
import Sponge.Util.EventLoop

namespace Sponge

open Lib (Ends onPart)
open EventLoop (Keeps waitNextEvent)

/-- The descriptors that are copied between. -/
inductive CopyFd
  | input
  | output
  | socket
deriving DecidableEq, Repr

/-- The two directions, by the names of their byte streams. -/
inductive Way
  | outbound
  | inbound
deriving DecidableEq, Repr

namespace Way

def source : Way → CopyFd
  | .outbound => .input
  | .inbound => .socket

def sink : Way → CopyFd
  | .outbound => .socket
  | .inbound => .output

def other : Way → Way
  | .outbound => .inbound
  | .inbound => .outbound

theorem source_inj {w v : Way} (h : w.source = v.source) : w = v := by
  cases w <;> cases v <;> first | rfl | cases h

theorem sink_inj {w v : Way} (h : w.sink = v.sink) : w = v := by
  cases w <;> cases v <;> first | rfl | cases h

end Way

/-- The local variables of `bidirectional_stream_copy`. -/
structure StreamCopy where
  fd : CopyFd → FileDescriptor
  stream : Way → ByteStream
  /-- `_outbound_shutdown` and `_inbound_shutdown` -/
  shutdown : Way → Bool

namespace StreamCopy

/-- `max_copy_length` -/
def maxCopyLength : Nat := 65536

/-- `buffer_size` -/
def bufferSize : Nat := 1048576

/-- The variables before the rules are added. -/
def new (kernel : CopyFd → Kernel) : StreamCopy where
  fd := fun f => .new (kernel f)
  stream := fun _ => .new bufferSize
  shutdown := fun _ => false

def setFd (s : StreamCopy) (f : CopyFd) (fd : FileDescriptor) : StreamCopy :=
  { s with fd := Function.update s.fd f fd }

def setStream (s : StreamCopy) (w : Way) (stream : ByteStream) : StreamCopy :=
  { s with stream := Function.update s.stream w stream }

def setShutdown (s : StreamCopy) (w : Way) : StreamCopy :=
  { s with shutdown := Function.update s.shutdown w true }

/-- A call on one of the descriptors. -/
def onFd {α : Type} (f : CopyFd) (p : EStateM Thrown FileDescriptor α) :
    EStateM Thrown StreamCopy α :=
  onPart (fun s => s.fd f) (fun s fd => s.setFd f fd) p

/-- The callback of rules 1 and 3. -/
def readInto (w : Way) : EStateM Thrown StreamCopy Unit := do
  let s ← get
  let data ← onFd w.source (FileDescriptor.read (s.stream w).remainingCapacity)
  modify fun s => s.setStream w ((s.stream w).write data).2
  let s ← get
  if (s.fd w.source).eof = true then modify fun s => s.setStream w (s.stream w).endInput
  else pure ()

/-- What rules 2 and 4 do at the end of their stream. -/
def finish : Way → EStateM Thrown StreamCopy Unit
  | .outbound => onFd .socket FileDescriptor.shutdownWr
  | .inbound => onFd .output FileDescriptor.close

/-- The callback of rules 2 and 4. -/
def writeOut (w : Way) : EStateM Thrown StreamCopy Unit := do
  let s ← get
  let bytesToWrite := min maxCopyLength (s.stream w).bufferSize
  let bytesWritten ← onFd w.sink
    (FileDescriptor.write (.ofString ((s.stream w).peekOutput bytesToWrite)) false)
  modify fun s => s.setStream w ((s.stream w).popOutput bytesWritten)
  let s ← get
  if (s.stream w).eof = true then do
    finish w
    modify fun s => s.setShutdown w
  else pure ()

/-- Rules 1 and 3: read into the stream. -/
def readRule (w : Way) : Rule StreamCopy where
  fd := fun s => (s.fd w.source).toFDWrapper
  direction := .pollIn
  callback := readInto w
  interest := fun s =>
    !(s.stream w).error && decide ((s.stream w).remainingCapacity > 0) && !(s.stream w.other).error
  cancel := modify fun s => s.setStream w (s.stream w).endInput

/-- Rules 2 and 4: write from the stream. -/
def writeRule (w : Way) : Rule StreamCopy where
  fd := fun s => (s.fd w.sink).toFDWrapper
  direction := .pollOut
  callback := writeOut w
  interest := fun s => !(s.stream w).bufferEmpty || ((s.stream w).eof && !s.shutdown w)
  cancel := modify fun s => s.setStream w (s.stream w).setError

/-- rule 1: read from stdin into outbound byte stream -/
def rule1 : Rule StreamCopy := readRule .outbound

/-- rule 2: read from outbound byte stream into socket -/
def rule2 : Rule StreamCopy := writeRule .outbound

/-- rule 3: read from socket into inbound byte stream -/
def rule3 : Rule StreamCopy := readRule .inbound

/-- rule 4: read from inbound byte stream into stdout -/
def rule4 : Rule StreamCopy := writeRule .inbound

def rules : List (Rule StreamCopy) := [rule1, rule2, rule3, rule4]

/-- The loop of `bidirectional_stream_copy`, for as long as there are answers of
    `poll(2)`: whether it has returned. -/
def copyLoop : List PollAnswer → List (Rule StreamCopy) →
    EStateM Thrown StreamCopy (Bool × List (Rule StreamCopy))
  | [], rules => pure (false, rules)
  | answer :: answers, rules => do
      let result ← waitNextEvent answer rules
      if result.1 = .exit then pure (true, result.2) else copyLoop answers result.2

/-- `bidirectional_stream_copy(socket)` -/
def bidirectionalStreamCopy (answers : List PollAnswer) :
    EStateM Thrown StreamCopy (Bool × List (Rule StreamCopy)) :=
  copyLoop answers rules

-- ============================================================================
-- One direction
-- ============================================================================

/-- What matters for one direction: what has been read and written, whether the source is
    at its end and the sink finished, and the stream between them. -/
structure Lane where
  received : List UInt8
  sent : List UInt8
  eof : Bool
  finished : Bool
  stream : ByteStream
  shutdown : Bool

/-- `socket.shutdown(SHUT_WR)` or `_output.close()` was called. -/
def finishedFd (fd : FileDescriptor) : Way → Bool
  | .outbound => fd.shutWr
  | .inbound => fd.closed

def lane (s : StreamCopy) (w : Way) : Lane where
  received := (s.fd w.source).received.flatten
  sent := (s.fd w.sink).sent.flatten
  eof := (s.fd w.source).eof
  finished := finishedFd (s.fd w.sink) w
  stream := s.stream w
  shutdown := s.shutdown w

namespace Lane

/-- Bytes are read; an end of the source is passed on. -/
def take (l : Lane) (data : List UInt8) : Lane :=
  let eof := l.eof || (decide (l.stream.remainingCapacity > 0) && data.isEmpty)
  let stream := (l.stream.write data).2
  { l with
    received := l.received ++ data
    eof := eof
    stream := if eof then stream.endInput else stream }

/-- The first `n` bytes of the buffer are written. -/
def give (l : Lane) (n : Nat) : Lane :=
  { l with sent := l.sent ++ l.stream.buffer.take n, stream := l.stream.popOutput n }

/-- The sink is finished. -/
def finish (l : Lane) : Lane := { l with finished := true, shutdown := true }

def endInput (l : Lane) : Lane := { l with stream := l.stream.endInput }

def setError (l : Lane) : Lane := { l with stream := l.stream.setError }

end Lane

section Fields

variable (s : StreamCopy) (f : CopyFd) (fd : FileDescriptor) (w : Way) (stream : ByteStream)

@[simp] theorem setFd_stream : (s.setFd f fd).stream = s.stream := rfl

@[simp] theorem setFd_shutdown : (s.setFd f fd).shutdown = s.shutdown := rfl

@[simp] theorem setFd_fd : (s.setFd f fd).fd = Function.update s.fd f fd := rfl

@[simp] theorem setStream_fd : (s.setStream w stream).fd = s.fd := rfl

@[simp] theorem setStream_stream : (s.setStream w stream).stream = Function.update s.stream w stream :=
  rfl

theorem lane_setStream :
    (s.setStream w stream).lane = Function.update s.lane w { s.lane w with stream } := by
  funext v
  cases w <;> cases v <;> rfl

theorem lane_setShutdown :
    (s.setShutdown w).lane = Function.update s.lane w { s.lane w with shutdown := true } := by
  funext v
  cases w <;> cases v <;> rfl

end Fields

/-- A descriptor that differs only in what the kernel is going to answer. -/
theorem lane_setFd_same {s : StreamCopy} {f : CopyFd} {fd : FileDescriptor}
    (h : FileDescriptor.SameBut (s.fd f) fd) : (s.setFd f fd).lane = s.lane := by
  have heof : fd.eof = (s.fd f).eof := congrArg FDWrapper.eof h.wrapper
  have hclosed : fd.closed = (s.fd f).closed := congrArg FDWrapper.closed h.wrapper
  funext v
  cases v <;> cases f <;>
    simp [lane, Way.source, Way.sink, finishedFd, h.sent, h.received, h.shutWr, heof, hclosed]

/-- Reading from the source changes nothing in the other direction, even if that writes
    to the same descriptor. -/
theorem lane_setFd_source {s : StreamCopy} {w : Way} {limit : Nat} {data : List UInt8}
    {fd : FileDescriptor} (h : FileDescriptor.DidRead limit (s.fd w.source) data fd) :
    (s.setFd w.source fd).lane = Function.update s.lane w { s.lane w with
      received := (s.lane w).received ++ data
      eof := (s.lane w).eof || (decide (limit > 0) && data.isEmpty) } := by
  have heof : fd.eof = ((s.fd w.source).eof || (decide (limit > 0) && data.isEmpty)) := by
    rw [h.wrapper]
  have hsent := h.sent
  have hreceived := h.received
  have hshut := h.shutWr
  funext v
  cases w <;> cases v <;> simp only [Way.source] at heof hsent hreceived hshut <;>
    simp [lane, Way.source, Way.sink, finishedFd, hsent, hreceived, hshut, heof]

/-- Writing to the sink changes nothing in the other direction, even if that reads from
    the same descriptor. -/
theorem lane_setFd_sink {s : StreamCopy} {w : Way} {chunks : List (List UInt8)}
    {fd : FileDescriptor} (h : FileDescriptor.DidWrite (s.fd w.sink) chunks fd) :
    (s.setFd w.sink fd).lane =
      Function.update s.lane w { s.lane w with sent := (s.lane w).sent ++ chunks.flatten } := by
  have heof : fd.eof = (s.fd w.sink).eof := by rw [h.wrapper]
  have hclosed : fd.closed = (s.fd w.sink).closed := by rw [h.wrapper]
  have hsent := h.sent
  have hreceived := h.received
  have hshut := h.shutWr
  funext v
  cases w <;> cases v <;> simp only [Way.sink] at heof hclosed hsent hreceived hshut <;>
    simp [lane, Way.source, Way.sink, finishedFd, hsent, hreceived, hshut, heof, hclosed]

-- ============================================================================
-- What a callback can do
-- ============================================================================

open FileDescriptor (OfKernel)

theorem readInto_ends (s : StreamCopy) (w : Way) :
    Ends (readInto w) s
      (fun _ s' => (∃ data, data.length ≤ (s.lane w).stream.remainingCapacity ∧
          s'.lane = Function.update s.lane w ((s.lane w).take data)) ∧
        (s'.fd w.source).readCount = (s.fd w.source).readCount + 1)
      (fun e s' => OfKernel e ∧ s'.lane = s.lane) := by
  unfold readInto onFd
  simp only [Lib.ends_bind, Lib.ends_get, Lib.ends_modify, Lib.ends_ite, Lib.ends_onPart,
    Lib.ends_pure]
  refine ((s.fd w.source).read_ends _).mono ?_ ?_
  · intro data fd hread
    have hcount : fd.readCount = (s.fd w.source).readCount + 1 := by rw [hread.wrapper]
    have hlen : data.length ≤ (s.stream w).remainingCapacity :=
      Nat.le_trans hread.length_le (Nat.min_le_right ..)
    have heof : fd.eof = ((s.fd w.source).eof ||
        (decide ((s.stream w).remainingCapacity > 0) && data.isEmpty)) := by rw [hread.wrapper]
    simp only [setStream_fd, setFd_fd, Function.update_self, lane_setStream, lane_setFd_source hread,
      Function.update_idem]
    refine ⟨fun hend => ⟨⟨data, hlen, ?_⟩, hcount⟩, fun hend => ⟨⟨data, hlen, ?_⟩, hcount⟩⟩
    · -- the end of the source ends the stream
      rw [heof] at hend
      simp [Lane.take, lane, hend]
    · rw [heof] at hend
      simp [Lane.take, lane, hend]
  · rintro e fd ⟨he, hsame⟩
    exact ⟨he, lane_setFd_same hsame⟩

theorem finish_ends (s : StreamCopy) (w : Way) :
    Ends (finish w) s
      (fun _ s' => s'.lane = Function.update s.lane w { s.lane w with finished := true } ∧
        ((s'.fd w.sink).writeCount = (s.fd w.sink).writeCount ∨
          (s'.fd w.sink).writeCount = (s.fd w.sink).writeCount + 1))
      (fun e s' => OfKernel e ∧ s'.lane = s.lane) := by
  cases w with
  | outbound =>
      unfold finish onFd
      rw [Lib.ends_onPart]
      refine ((s.fd .socket).shutdownWr_ends).mono ?_ ?_
      · intro _ fd h
        have heof : fd.eof = (s.fd .socket).eof := by rw [h.wrapper]
        have hcount : fd.writeCount = (s.fd .socket).writeCount + 1 := by rw [h.wrapper]
        refine ⟨?_, Or.inr (by simpa [Way.sink] using hcount)⟩
        funext v
        cases v <;> simp [lane, Way.source, Way.sink, finishedFd, h.sent, h.received, h.shutWr, heof]
      · rintro e fd ⟨he, hsame⟩
        exact ⟨he, lane_setFd_same hsame⟩
  | inbound =>
      unfold finish onFd
      rw [Lib.ends_onPart]
      refine ((s.fd .output).close_ends).mono ?_ ?_
      · intro _ fd h
        have hclosed : fd.closed = true := by rw [h.wrapper]
        have hcount : fd.writeCount = (s.fd .output).writeCount := by rw [h.wrapper]
        refine ⟨?_, Or.inl (by simpa [Way.sink] using hcount)⟩
        funext v
        cases v <;> simp [lane, Way.source, Way.sink, finishedFd, h.sent, hclosed]
      · rintro e fd ⟨he, hsame⟩
        exact ⟨he, lane_setFd_same hsame⟩

/-- What a write leaves of a direction: a part of the buffer is passed on, and the sink is
    finished when the stream is at its end. -/
def Lane.giveOrFinish (l : Lane) (n : Nat) : Lane :=
  if (l.give n).stream.eof then (l.give n).finish else l.give n

/-- An exception comes before the write or after it. -/
theorem writeOut_ends (s : StreamCopy) (w : Way) :
    Ends (writeOut w) s
      (fun _ s' => (∃ n, s'.lane = Function.update s.lane w ((s.lane w).giveOrFinish n)) ∧
        (s'.fd w.sink).writeCount ≠ (s.fd w.sink).writeCount)
      (fun e s' => OfKernel e ∧
        (s'.lane = s.lane ∨ ∃ n, s'.lane = Function.update s.lane w ((s.lane w).give n))) := by
  unfold writeOut onFd
  simp only [Lib.ends_bind, Lib.ends_get, Lib.ends_modify, Lib.ends_ite, Lib.ends_onPart,
    Lib.ends_pure]
  refine ((s.fd w.sink).write_ends _ _).mono ?_ ?_
  · rintro n fd ⟨chunks, hwrite, hprogress⟩
    have hcount : fd.writeCount = (s.fd w.sink).writeCount + 1 := by
      rw [hwrite.wrapper, hprogress.one rfl]
      rfl
    -- what was written is the front of the buffer
    have hchunks : chunks.flatten = (s.stream w).buffer.take n := hprogress.of_take.1
    have hlane : ((s.setFd w.sink fd).setStream w
        (((s.setFd w.sink fd).stream w).popOutput n)).lane =
        Function.update s.lane w ((s.lane w).give n) := by
      rw [lane_setStream, lane_setFd_sink hwrite, hchunks, Function.update_idem,
        Function.update_self]
      rfl
    have hcount₁ : (((s.setFd w.sink fd).setStream w
        (((s.setFd w.sink fd).stream w).popOutput n)).fd w.sink).writeCount =
        (s.fd w.sink).writeCount + 1 := by simp [hcount]
    generalize (s.setFd w.sink fd).setStream w (((s.setFd w.sink fd).stream w).popOutput n) = s₁
      at hlane hcount₁ ⊢
    have hself : s₁.lane w = (s.lane w).give n := by rw [hlane, Function.update_self]
    have heof : s₁.stream w = ((s.lane w).give n).stream := congrArg Lane.stream hself
    rw [heof]
    refine ⟨fun hend => ?_, fun hend => ⟨⟨n, ?_⟩, ?_⟩⟩
    · refine (finish_ends s₁ w).mono ?_ ?_
      · rintro _ s₂ ⟨hfinish, hcount₂⟩
        refine ⟨⟨n, ?_⟩, ?_⟩
        · rw [lane_setShutdown, hfinish, hself, hlane, Function.update_self, Function.update_idem,
            Function.update_idem, Lane.giveOrFinish, if_pos hend]
          rfl
        · show (s₂.fd w.sink).writeCount ≠ _
          rcases hcount₂ with h | h
          · rw [h, hcount₁]
            grind
          · rw [h, hcount₁]
            grind
      · rintro e s' ⟨he, hsame⟩
        exact ⟨he, Or.inr ⟨n, hsame.trans hlane⟩⟩
    · rw [hlane, Lane.giveOrFinish, if_neg hend]
    · rw [hcount₁]
      grind
  · rintro e fd ⟨he, chunks, hwrite, hfailed⟩
    obtain rfl := hfailed.none rfl
    refine ⟨he, Or.inl ?_⟩
    rw [lane_setFd_sink hwrite]
    simp

end StreamCopy

end Sponge
