/-
  Sponge.TcpSender.Basic

  The sending half of a connection (`tcp_sender.hh`, `tcp_sender.cc`).

  The absolute sequence number, the window and the retransmission timeout are
  naturals; the timer is an `unsigned int` and wraps at `2^32`, and so does the
  right edge of an acknowledgement.  Sequence numbers are compared by their raw
  32-bit values, as the source does.

  What fills the window is a loop.  It is run with the number of buffered bytes
  as fuel, which is enough: every pass takes at least one byte out of the buffer
  (`fillLoop_done` in `Sponge.TcpSender.Fill`).
-/

import Sponge.ByteStream
import Sponge.TcpSegment

namespace Sponge

/-- `TCPSender` -/
structure TCPSender where
  isn : WrappingInt32
  segmentsOut : List TCPSegment
  outstandingSegments : List TCPSegment
  initialRetransmissionTimeout : Nat
  retransmissionTimeout : Nat
  stream : ByteStream
  /-- `_next_seqno` -/
  nextSeqnoAbsolute : Nat
  windowSize : Nat
  retransmissionTimerOn : Bool
  retransmissionTimer : Nat
  consecutiveRetransmissions : Nat
  highestAckno : Int
  highestAcknoRight : Int
  finSent : Bool
  windowEmpty : Bool
  /-- Only segments that occupy sequence space are waited for, so that the last
      sequence number of each, `seqno + length - 1`, is an exact subtraction. -/
  outstanding_pos : ∀ seg ∈ outstandingSegments, 0 < seg.lengthInSequenceSpace

namespace TCPSender

/-- `TCPSender(capacity, retx_timeout, fixed_isn)`; `isn` is the fixed initial
    sequence number or the random one. -/
def new (capacity : UInt64) (retxTimeout : UInt16) (isn : WrappingInt32) : TCPSender where
  isn := isn
  segmentsOut := []
  outstandingSegments := []
  initialRetransmissionTimeout := retxTimeout.toNat
  retransmissionTimeout := retxTimeout.toNat
  stream := ByteStream.new capacity.toNat
  nextSeqnoAbsolute := 0
  windowSize := 1
  retransmissionTimerOn := false
  retransmissionTimer := 0
  consecutiveRetransmissions := 0
  highestAckno := -1
  highestAcknoRight := -1
  finSent := false
  windowEmpty := false
  outstanding_pos := by simp

/-- `next_seqno()` -/
def nextSeqno (s : TCPSender) : WrappingInt32 := wrap s.nextSeqnoAbsolute s.isn

/-- `bytes_in_flight()` -/
def bytesInFlight (s : TCPSender) : Nat :=
  s.outstandingSegments.foldl (fun bytes seg => bytes + seg.lengthInSequenceSpace) 0

-- ============================================================================
-- Sending
-- ============================================================================

/-- The insertion loop of `send_segment`: before the first segment whose raw
    sequence number is larger, or at the end. -/
def insertOutstanding (seg : TCPSegment) : List TCPSegment → List TCPSegment
  | [] => [seg]
  | x :: xs =>
      if seg.header.seqno.rawValue < x.header.seqno.rawValue then seg :: x :: xs
      else x :: insertOutstanding seg xs

theorem mem_insertOutstanding {seg x : TCPSegment} {xs : List TCPSegment} :
    x ∈ insertOutstanding seg xs ↔ x = seg ∨ x ∈ xs := by
  induction xs with
  | nil => simp [insertOutstanding]
  | cons y ys ih =>
      unfold insertOutstanding
      split
      · simp
      · simp only [List.mem_cons, ih]
        tauto

/-- `send_segment(segment)`; the length is held in a `uint16_t`. -/
def sendSegment (s : TCPSender) (segment : TCPSegment) : TCPSender :=
  let length := segment.lengthInSequenceSpace % 2 ^ 16
  if h : length = 0 then s
  else
    { s with
      segmentsOut := s.segmentsOut ++ [segment]
      windowSize := if s.windowSize < length then 0 else s.windowSize - length
      retransmissionTimerOn := true
      retransmissionTimer := if s.retransmissionTimerOn then s.retransmissionTimer else 0
      outstandingSegments := insertOutstanding segment s.outstandingSegments
      outstanding_pos := by
        intro seg hseg
        rcases mem_insertOutstanding.mp hseg with rfl | hmem
        · rcases Nat.eq_zero_or_pos seg.lengthInSequenceSpace with h0 | hpos
          · exact absurd (show length = 0 by simp [length, h0]) h
          · exact hpos
        · exact s.outstanding_pos seg hmem }

/-- The header a new segment gets in `send_new_segment`. -/
def withSeqno (segment : TCPSegment) (seqno : WrappingInt32) : TCPSegment :=
  { segment with header := { segment.header with seqno := seqno } }

/-- `send_new_segment(segment)` -/
def sendNewSegment (s : TCPSender) (segment : TCPSegment) : TCPSender :=
  sendSegment
    { s with nextSeqnoAbsolute := s.nextSeqnoAbsolute + segment.lengthInSequenceSpace }
    (withSeqno segment s.nextSeqno)

/-- The segment that carries only the SYN. -/
def synSegment : TCPSegment := { header := { syn := true } }

/-- The segment that carries only the FIN. -/
def finSegment : TCPSegment := { header := { fin := true } }

/-- Number of bytes one pass of the loop of `fill_window` asks for. -/
def bytesPerSegment (s : TCPSender) : Nat :=
  if s.windowSize < TCPConfig.maxPayloadSize then s.windowSize else TCPConfig.maxPayloadSize

/-- Whether the FIN goes out with the payload that a pass has just read. -/
def piggybacksFin (s : TCPSender) : Bool :=
  let (payload, stream) := s.stream.read s.bytesPerSegment
  stream.eof && !s.finSent && decide (payload.length < s.windowSize)

/-- One pass of the loop of `fill_window`. -/
def sendData (s : TCPSender) : TCPSender :=
  let (payload, stream) := s.stream.read s.bytesPerSegment
  sendNewSegment { s with stream := stream, finSent := s.finSent || s.piggybacksFin }
    { header := { fin := s.piggybacksFin }, payload := payload }

/-- The loop of `fill_window`. -/
def fillLoop : Nat → TCPSender → TCPSender
  | 0, s => s
  | fuel + 1, s =>
      if s.windowSize > 0 ∧ s.stream.bufferEmpty = false then fillLoop fuel s.sendData else s

/-- The SYN that `fill_window` sends first, regardless of the window. -/
def sendSyn (s : TCPSender) : TCPSender :=
  if s.nextSeqnoAbsolute = 0 then s.sendNewSegment synSegment else s

/-- The FIN that `fill_window` sends on its own. -/
def sendFin (s : TCPSender) : TCPSender :=
  if s.stream.eof = true ∧ s.finSent = false ∧ s.windowSize > 0 then
    sendNewSegment { s with finSent := true } finSegment
  else s

/-- `fill_window()` -/
def fillWindow (s : TCPSender) : TCPSender :=
  let s := s.sendSyn
  if s.windowSize = 0 then s else (fillLoop s.stream.bufferSize s).sendFin

-- ============================================================================
-- Acknowledgements
-- ============================================================================

/-- The test at the head of `ack_received`: not beyond what was sent, not below
    the highest acknowledgement. -/
def Accepts (s : TCPSender) (ackno : WrappingInt32) : Prop :=
  ¬ (ackno.rawValue > s.nextSeqno.rawValue ∨ (ackno.rawValue.toNat : Int) < s.highestAckno)

instance (s : TCPSender) (ackno : WrappingInt32) : Decidable (s.Accepts ackno) :=
  inferInstanceAs (Decidable (¬ _))

/-- The loop's test for an outstanding segment that is fully acknowledged; the sum
    is a 64-bit one. -/
def isAcknowledged (ackno : WrappingInt32) (seg : TCPSegment) : Bool :=
  seg.header.seqno.rawValue.toNat + seg.lengthInSequenceSpace - 1 < ackno.rawValue.toNat

/-- The loop of `ack_received` that erases acknowledged segments from the front.
    (The header the source copies from `end()` is never looked at.) -/
def releaseAcknowledged (s : TCPSender) (ackno : WrappingInt32) : TCPSender :=
  { s with
    outstandingSegments := s.outstandingSegments.dropWhile (isAcknowledged ackno)
    outstanding_pos := fun seg hseg => s.outstanding_pos seg (List.dropWhile_subset _ hseg) }

/-- `ackno_right`: a 32-bit sum. -/
def acknoRight (ackno : WrappingInt32) (windowSize : UInt16) : Nat :=
  (ackno.rawValue + windowSize.toUInt32).toNat

/-- The window update of `ack_received`. -/
def updateWindow (s : TCPSender) (ackno : WrappingInt32) (windowSize : UInt16) : TCPSender :=
  if windowSize = 0 then { s with windowSize := 1, windowEmpty := true }
  else if (acknoRight ackno windowSize : Int) > s.highestAcknoRight then
    { s with
      highestAcknoRight := acknoRight ackno windowSize
      windowSize := windowSize.toNat
      windowEmpty := false }
  else s

/-- What `ack_received` resets when new data is acknowledged. -/
def resetTimer (s : TCPSender) (ackno : WrappingInt32) : TCPSender :=
  if (ackno.rawValue.toNat : Int) > s.highestAckno then
    { s with
      retransmissionTimeout := s.initialRetransmissionTimeout
      retransmissionTimer := 0
      retransmissionTimerOn := !s.outstandingSegments.isEmpty
      consecutiveRetransmissions := 0
      highestAckno := ackno.rawValue.toNat }
  else s

/-- Everything `ack_received` does with an accepted acknowledgement before it
    fills the window. -/
def acknowledge (s : TCPSender) (ackno : WrappingInt32) (windowSize : UInt16) : TCPSender :=
  ((s.releaseAcknowledged ackno).updateWindow ackno windowSize).resetTimer ackno

/-- `ack_received(ackno, window_size)` -/
def ackReceived (s : TCPSender) (ackno : WrappingInt32) (windowSize : UInt16) : TCPSender :=
  if s.Accepts ackno then (s.acknowledge ackno windowSize).fillWindow else s

-- ============================================================================
-- Time, empty segments, and the stream
-- ============================================================================

/-- What `tick` does once the timer has expired: a copy of the segment is queued,
    and unless the window is closed the timeout is doubled. -/
def retransmit (s : TCPSender) (segment : TCPSegment) : TCPSender :=
  let s := { s with segmentsOut := s.segmentsOut ++ [segment], retransmissionTimer := 0 }
  if s.windowEmpty then s
  else
    { s with
      consecutiveRetransmissions := s.consecutiveRetransmissions + 1
      retransmissionTimeout := s.retransmissionTimeout * 2 }

/-- The timer is an `unsigned int`. -/
def advanceTimer (s : TCPSender) (ms : Nat) : TCPSender :=
  { s with retransmissionTimer := (s.retransmissionTimer + ms) % 2 ^ 32 }

/-- `tick(ms_since_last_tick)` -/
def tick (s : TCPSender) (msSinceLastTick : Nat) : TCPSender :=
  if s.retransmissionTimerOn = false ∨
      s.consecutiveRetransmissions > TCPConfig.maxRetxAttempts then s
  else
    let s := s.advanceTimer msSinceLastTick
    match s.outstandingSegments.head? with
    | some segment =>
        if s.retransmissionTimer ≥ s.retransmissionTimeout then s.retransmit segment else s
    | none => s

/-- The segment `send_empty_segment` builds. -/
def emptySegment (s : TCPSender) : TCPSegment := { header := { seqno := s.nextSeqno } }

/-- `send_empty_segment()` -/
def sendEmptySegment (s : TCPSender) : TCPSender :=
  { s with segmentsOut := s.segmentsOut ++ [s.emptySegment] }

/-- `stream_in().write(data)` -/
def writeStream (s : TCPSender) (data : List UInt8) : TCPSender :=
  { s with stream := (s.stream.write data).2 }

/-- `stream_in().end_input()` -/
def endStream (s : TCPSender) : TCPSender := { s with stream := s.stream.endInput }

/-- `stream_in().set_error()` -/
def setStreamError (s : TCPSender) : TCPSender := { s with stream := s.stream.setError }

/-- The owner pops every queued segment. -/
def drain (s : TCPSender) : TCPSender := { s with segmentsOut := [] }

/-- What the owner of a sender can do with it. -/
inductive Op
  | write (data : List UInt8)
  | endInput
  | setError
  | fillWindow
  | ackReceived (ackno : WrappingInt32) (windowSize : UInt16)
  | tick (msSinceLastTick : Nat)
  | sendEmptySegment
  | drain

def step (s : TCPSender) : Op → TCPSender
  | .write data => s.writeStream data
  | .endInput => s.endStream
  | .setError => s.setStreamError
  | .fillWindow => s.fillWindow
  | .ackReceived ackno windowSize => s.ackReceived ackno windowSize
  | .tick ms => s.tick ms
  | .sendEmptySegment => s.sendEmptySegment
  | .drain => s.drain

/-- What the counters say: the next sequence number counts the SYN, the bytes read and
    the FIN, and what was written was read or is in the buffer. -/
structure Counts (s : TCPSender) : Prop where
  next_eq : 0 < s.nextSeqnoAbsolute →
    s.nextSeqnoAbsolute = 1 + s.stream.bytesRead + if s.finSent then 1 else 0
  written_eq : s.stream.bytesWritten = s.stream.bytesRead + s.stream.buffer.length

end TCPSender

end Sponge
