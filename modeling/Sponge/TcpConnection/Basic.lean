/-
  Sponge.TcpConnection.Basic

  An endpoint (`tcp_connection.hh`, `tcp_connection.cc`): a receiver and a sender
  that share one queue of outgoing segments.

  `segment_received` is partial because the receiver's is.  The destructor, which
  queues a RST segment on an object that is about to go away, is left out.
-/

import Sponge.TcpState

namespace Sponge

/-- `TCPConnection` -/
structure TCPConnection where
  cfg : TCPConfig
  receiver : TCPReceiver
  sender : TCPSender
  segmentsOut : List TCPSegment
  lingerAfterStreamsFinish : Bool
  /-- `_active` -/
  activeFlag : Bool
  timeSinceLastSegmentReceived : Nat

namespace TCPConnection

/-- `TCPConnection(cfg)`; `isn` is the random initial sequence number that is used
    when the configuration does not fix one. -/
def new (endNode : List ByteString → Nat) (cfg : TCPConfig) (isn : WrappingInt32) :
    TCPConnection where
  cfg := cfg
  receiver := .new endNode cfg.recvCapacity
  sender := .new cfg.sendCapacity cfg.rtTimeout (cfg.fixedIsn.getD isn)
  segmentsOut := []
  lingerAfterStreamsFinish := true
  activeFlag := false
  timeSinceLastSegmentReceived := 0

/-- `active()` -/
def active (c : TCPConnection) : Bool := c.activeFlag || c.lingerAfterStreamsFinish

/-- `bytes_in_flight()` -/
def bytesInFlight (c : TCPConnection) : Nat := c.sender.bytesInFlight

/-- `remaining_outbound_capacity()` -/
def remainingOutboundCapacity (c : TCPConnection) : Nat := c.sender.stream.remainingCapacity

/-- `inbound_stream()` -/
def inboundStream (c : TCPConnection) : ByteStream := c.receiver.streamOut

/-- `state()` -/
def state (c : TCPConnection) : TCPState :=
  .of c.sender c.receiver c.active c.lingerAfterStreamsFinish

-- ============================================================================
-- Sending
-- ============================================================================

/-- What `send_segments` adds to a segment once there is something to acknowledge;
    the window is truncated to 16 bits. -/
def stamp (receiver : TCPReceiver) (seg : TCPSegment) : TCPSegment :=
  match receiver.ackno with
  | some ackno =>
      { seg with
        header := { seg.header with
          ack := true
          ackno := ackno
          win := UInt16.ofNat receiver.windowSize } }
  | none => seg

/-- `send_segments()` -/
def sendSegments (c : TCPConnection) : TCPConnection :=
  { c with
    segmentsOut := c.segmentsOut ++ c.sender.segmentsOut.map (stamp c.receiver)
    sender := c.sender.drain }

/-- `connect_sender()` -/
def connectSender (c : TCPConnection) : TCPConnection :=
  { c with activeFlag := true, sender := c.sender.fillWindow }

/-- `update_sender()` -/
def updateSender (c : TCPConnection) : TCPConnection :=
  sendSegments { c with sender := c.sender.fillWindow }

-- ============================================================================
-- Closing
-- ============================================================================

/-- `shutdown()` -/
def shutdown (c : TCPConnection) : TCPConnection :=
  { c with activeFlag := false, lingerAfterStreamsFinish := false }

/-- `update_connection_status()` -/
def updateConnectionStatus (c : TCPConnection) : TCPConnection :=
  if c.receiver.streamOut.inputEnded then
    if c.sender.stream.inputEnded = false then { c with lingerAfterStreamsFinish := false }
    else if c.bytesInFlight = 0 ∧ c.lingerAfterStreamsFinish = false then c.shutdown
    else c
  else c

/-- `streams_set_err()` -/
def streamsSetErr (c : TCPConnection) : TCPConnection :=
  { c with receiver := c.receiver.setError, sender := c.sender.setStreamError }

/-- The segment `send_rst` builds. -/
def rstSegment : TCPSegment := { header := { rst := true } }

/-- `send_rst()` -/
def sendRst (c : TCPConnection) : TCPConnection :=
  streamsSetErr (shutdown { c with segmentsOut := c.segmentsOut ++ [rstSegment] })

-- ============================================================================
-- The public operations
-- ============================================================================

/-- `connect()` -/
def connect (c : TCPConnection) : TCPConnection := c.connectSender.sendSegments

/-- `write(data)`: the number of bytes accepted, and the connection after it. -/
def write (c : TCPConnection) (data : List UInt8) : Nat × TCPConnection :=
  ((c.sender.stream.write data).1, updateSender { c with sender := c.sender.writeStream data })

/-- `end_input_stream()` -/
def endInputStream (c : TCPConnection) : TCPConnection :=
  updateSender { c with sender := c.sender.endStream }

/-- The acknowledgement of a received segment goes to the sender. -/
def takeAck (c : TCPConnection) (seg : TCPSegment) : TCPConnection :=
  if seg.header.ack then
    { c with sender := c.sender.ackReceived seg.header.ackno seg.header.win }
  else c

/-- An empty segment, to ensure that at least one segment is sent. -/
def ensureReply (c : TCPConnection) (seg : TCPSegment) : TCPConnection :=
  if c.sender.segmentsOut.isEmpty = true ∧ seg.lengthInSequenceSpace > 0 then
    { c with sender := c.sender.sendEmptySegment }
  else c

/-- What `segment_received` does on an active connection. -/
def handleSegment (c : TCPConnection) (seg : TCPSegment) : Option TCPConnection :=
  if seg.header.rst then some c.shutdown.streamsSetErr
  else
    (c.receiver.segmentReceived seg).map fun receiver =>
      (ensureReply (takeAck { c with receiver := receiver } seg)
        seg).sendSegments.updateConnectionStatus

/-- The connection is activated by a SYN. -/
def activated (c : TCPConnection) : TCPConnection :=
  if c.activeFlag then c else c.connectSender

/-- `segment_received(seg)` -/
def segmentReceived (c : TCPConnection) (seg : TCPSegment) : Option TCPConnection :=
  let c := { c with timeSinceLastSegmentReceived := 0 }
  if c.activeFlag = false ∧ seg.header.syn = false then some c
  else c.activated.handleSegment seg

/-- The RST that `tick` sends after too many retransmissions; the queue is emptied
    first. -/
def giveUp (c : TCPConnection) : TCPConnection :=
  if c.sender.consecutiveRetransmissions > TCPConfig.maxRetxAttempts then
    sendRst { c with segmentsOut := [] }
  else c

/-- The end of `tick`: a connection that has lingered long enough is shut down. -/
def stopLingering (c : TCPConnection) : TCPConnection :=
  if c.receiver.streamOut.inputEnded = true ∧ c.sender.stream.inputEnded = true ∧
      c.sender.bytesInFlight = 0 ∧
      c.timeSinceLastSegmentReceived ≥ 10 * c.cfg.rtTimeout.toNat then
    c.shutdown
  else c

/-- `tick(ms_since_last_tick)` -/
def tick (c : TCPConnection) (msSinceLastTick : Nat) : TCPConnection :=
  (sendSegments { c with
    timeSinceLastSegmentReceived := (c.timeSinceLastSegmentReceived + msSinceLastTick) % 2 ^ 64
    sender := c.sender.tick msSinceLastTick }).giveUp.stopLingering

/-- What the application, the clock and the network can do with a connection.
    `dequeue` takes a segment off `segments_out()`. -/
inductive Op
  | connect
  | write (data : List UInt8)
  | endInputStream
  | read (len : Nat)
  | popOutput (len : Nat)
  | tick (msSinceLastTick : Nat)
  | segmentReceived (seg : TCPSegment)
  | dequeue

def step (c : TCPConnection) : Op → Option TCPConnection
  | .connect => some c.connect
  | .write data => some (c.write data).2
  | .endInputStream => some c.endInputStream
  | .read len => some { c with receiver := c.receiver.read len }
  | .popOutput len => some { c with receiver := c.receiver.popOutput len }
  | .tick ms => some (c.tick ms)
  | .segmentReceived seg => c.segmentReceived seg
  | .dequeue =>
      match c.segmentsOut with
      | [] => none
      | _ :: rest => some { c with segmentsOut := rest }

end TCPConnection

end Sponge
