/-
  Sponge.SpongeSocket.Basic

  The socket that an application uses (`tcp_sponge_socket.hh`, `tcp_sponge_socket.cc`): a
  connection, an adapter for its segments and a stream socket to the owner, driven by four
  rules of an event loop in a thread of its own.

  The owner is at the other end of `_thread_data`: what is read from there is what the
  owner has written, and what is written there is what the owner can read.  The model
  starts with `connect()` or `listen_and_accept()` on a fresh socket and ends when the
  thread does, so `_tcp` always has a value in it.  Debugging output is left out, and with
  it `_fully_acked`, which decides on nothing else.
-/

import Sponge.FdAdapter.Basic
import Sponge.TcpConnection.Basic
import Sponge.Util.EventLoop

namespace Sponge

open Lib (Ends onPart)

/-- `name()` -/
def TCPState.name (state : TCPState) : String :=
  let sender := match state.sender with
    | .error => "error (connection was reset)"
    | .closed => "waiting for stream to begin (no SYN sent)"
    | .synSent => "stream started but nothing acknowledged"
    | .synAcked => "stream ongoing"
    | .finSent => "stream finished (FIN sent) but not fully acknowledged"
    | .finAcked => "stream finished and fully acknowledged"
  let receiver := match state.receiver with
    | .error => "error (connection was reset)"
    | .listen => "waiting for SYN: ackno is empty"
    | .synRecv => "SYN received (ackno exists), and input to stream hasn't ended"
    | .finRecv => "input to stream has ended"
  "sender=`" ++ sender ++ "`, receiver=`" ++ receiver ++ "`, active=" ++
    (if state.active then "1" else "0") ++ ", linger_after_streams_finish=" ++
    (if state.lingerAfterStreamsFinish then "1" else "0")

/-- `TCPSpongeSocket<AdaptT>` -/
structure TCPSpongeSocket (α : Type) where
  /-- `_tcp` -/
  tcp : TCPConnection
  datagramAdapter : α
  threadData : FileDescriptor
  inboundShutdown : Bool := false
  outboundShutdown : Bool := false

namespace TCPSpongeSocket

variable {α β : Type}

/-- A call on the adapter. -/
def onAdapter (p : EStateM Thrown α β) : EStateM Thrown (TCPSpongeSocket α) β :=
  onPart datagramAdapter (fun s datagramAdapter => { s with datagramAdapter }) p

/-- A call on the socket to the owner. -/
def onThreadData (p : EStateM Thrown FileDescriptor β) : EStateM Thrown (TCPSpongeSocket α) β :=
  onPart threadData (fun s threadData => { s with threadData }) p

-- ============================================================================
-- The rules
-- ============================================================================

/-- The four rules, in the order in which they are added. -/
inductive RuleName
  /-- rule 1: read from filtered packet stream and dump into TCPConnection -/
  | datagramIn
  /-- rule 2: read from pipe into outbound buffer -/
  | ownerIn
  /-- rule 3: read from inbound buffer into pipe -/
  | ownerOut
  /-- rule 4: read outbound segments from TCPConnection and send as datagrams -/
  | datagramOut
deriving DecidableEq, Repr

/-- The call of `segment_received(seg)`. -/
def segmentReceived (seg : TCPSegment) : EStateM Thrown (TCPSpongeSocket α) Unit := do
  let s ← get
  match s.tcp.segmentReceived seg with
  | some tcp => modify fun s => { s with tcp }
  | none => throw .undefinedBehavior

/-- The callback of rule 1. -/
def receiveDatagram [FdAdapter α] : EStateM Thrown (TCPSpongeSocket α) Unit := do
  let seg ← onAdapter FdAdapter.read
  match seg with
  | some seg => segmentReceived seg
  | none => pure ()

/-- The cancellation of rule 2, and what its callback does at the end of the stream. -/
def endOutbound : EStateM Thrown (TCPSpongeSocket α) Unit :=
  modify fun s => { s with tcp := s.tcp.endInputStream, outboundShutdown := true }

/-- What the callback of rule 2 throws. -/
def acceptedLess : Thrown := .runtimeError "TCPConnection::write() accepted less than advertised length"

/-- The callback of rule 2. -/
def readOwner : EStateM Thrown (TCPSpongeSocket α) Unit := do
  let s ← get
  let data ← onThreadData (FileDescriptor.read s.tcp.remainingOutboundCapacity)
  modify fun s => { s with tcp := (s.tcp.write data).2 }
  if (s.tcp.write data).1 ≠ data.length then throw acceptedLess
  else do
    let s ← get
    if s.threadData.eof = true then endOutbound else pure ()

/-- The callback of rule 3. -/
def writeOwner : EStateM Thrown (TCPSpongeSocket α) Unit := do
  let s ← get
  let inbound := s.tcp.inboundStream
  let amountToWrite := min 65536 inbound.bufferSize
  let bytesWritten ← onThreadData
    (FileDescriptor.write (.ofString (inbound.peekOutput amountToWrite)) false)
  modify fun s => { s with
    tcp := { s.tcp with receiver := s.tcp.receiver.popOutput bytesWritten } }
  let s ← get
  if s.tcp.inboundStream.eof = true ∨ s.tcp.inboundStream.error = true then do
    onThreadData FileDescriptor.shutdownWr
    modify fun s => { s with inboundShutdown := true }
  else pure ()

/-- The loop of rule 4, with the segments that are still in the queue. -/
def sendDatagrams [FdAdapter α] : List TCPSegment → EStateM Thrown (TCPSpongeSocket α) Unit
  | [] => pure ()
  | seg :: segs => do
      onAdapter (FdAdapter.write seg)
      modify fun s => { s with tcp := { s.tcp with segmentsOut := segs } }
      sendDatagrams segs

/-- The callback of rule 4. -/
def writeDatagrams [FdAdapter α] : EStateM Thrown (TCPSpongeSocket α) Unit := do
  let s ← get
  sendDatagrams s.tcp.segmentsOut

/-- The rules that `_initialize_TCP` adds. -/
def rule [FdAdapter α] : RuleName → Rule (TCPSpongeSocket α)
  | .datagramIn =>
      { fd := fun s => FdAdapter.fd s.datagramAdapter
        direction := .pollIn
        callback := receiveDatagram
        interest := fun s => s.tcp.active
        cancel := pure () }
  | .ownerIn =>
      { fd := fun s => s.threadData.toFDWrapper
        direction := .pollIn
        callback := readOwner
        interest := fun s =>
          s.tcp.active && !s.outboundShutdown && decide (s.tcp.remainingOutboundCapacity > 0)
        cancel := endOutbound }
  | .ownerOut =>
      { fd := fun s => s.threadData.toFDWrapper
        direction := .pollOut
        callback := writeOwner
        interest := fun s => !s.tcp.inboundStream.bufferEmpty ||
          ((s.tcp.inboundStream.eof || s.tcp.inboundStream.error) && !s.inboundShutdown)
        cancel := pure () }
  | .datagramOut =>
      { fd := fun s => FdAdapter.fd s.datagramAdapter
        direction := .pollOut
        callback := writeDatagrams
        interest := fun s => !s.tcp.segmentsOut.isEmpty
        cancel := pure () }

/-- All of them. -/
def ruleNames : List RuleName := [.datagramIn, .ownerIn, .ownerOut, .datagramOut]

-- ============================================================================
-- The thread
-- ============================================================================

/-- What a round of `_tcp_loop` meets: the answer of `poll(2)`, the flag `_abort`, and the
    time since the last tick. -/
structure Round where
  answer : PollAnswer
  abort : Bool := false
  ms : Nat := 0

/-- A round of `_tcp_loop`: whether the loop goes on, and the rules that are left. -/
def loopRound [FdAdapter α] (r : Round) (rules : List (Rule (TCPSpongeSocket α))) :
    EStateM Thrown (TCPSpongeSocket α) (Bool × List (Rule (TCPSpongeSocket α))) := do
  let ret ← EventLoop.waitNextEvent r.answer rules
  if ret.1 = .exit ∨ r.abort = true then pure (false, ret.2)
  else do
    let s ← get
    if s.tcp.active = true then do
      modify fun s => { s with tcp := s.tcp.tick r.ms }
      onAdapter (FdAdapter.tick r.ms)
      pure (true, ret.2)
    else pure (true, ret.2)

/-- How the socket was opened. -/
inductive Opening
  | connect
  | listenAndAccept
deriving DecidableEq, Repr

/-- The condition of the loop that opens the connection. -/
def Opening.waits : Opening → TCPState → Bool
  | .connect, state => state = .ofState .synSent
  | .listenAndAccept, state =>
      state = .ofState .listen || state = .ofState .synRcvd || state = .ofState .synSent

/-- Where the execution is: in the loop of `connect()` or `listen_and_accept()`, in that of
    the thread, past it, or left by an exception. -/
inductive Stage
  | opening (o : Opening)
  | running
  | finished
  | failed (e : Thrown)
deriving DecidableEq, Repr

/-- A socket with its event loop and the place of the execution. -/
structure Execution (α : Type) where
  socket : TCPSpongeSocket α
  rules : List (Rule (TCPSpongeSocket α))
  stage : Stage

/-- `_initialize_TCP(config)` on a socket that is fresh, with the adapter's configuration. -/
def initializeTCP [FdAdapter α] (endNode : List ByteString → Nat) (cTcp : TCPConfig)
    (isn : WrappingInt32) (cAd : FdAdapterConfig) (adapter : α) (threadData : FileDescriptor) :
    TCPSpongeSocket α where
  tcp := .new endNode cTcp isn
  datagramAdapter := FdAdapter.setConfig cAd adapter
  threadData := threadData

/-- `connect(c_tcp, c_ad)`, up to its loop. -/
def connect [FdAdapter α] (endNode : List ByteString → Nat) (cTcp : TCPConfig)
    (isn : WrappingInt32) (cAd : FdAdapterConfig) (adapter : α) (threadData : FileDescriptor) :
    Except Thrown (Execution α) :=
  let s := initializeTCP endNode cTcp isn cAd adapter threadData
  let s := { s with tcp := s.tcp.connect }
  let expectedState : TCPState := .ofState .synSent
  if s.tcp.state ≠ expectedState then
    .error (.runtimeError ("After TCPConnection::connect(), state was " ++ s.tcp.state.name ++
      " but expected " ++ expectedState.name))
  else .ok { socket := s, rules := ruleNames.map rule, stage := .opening .connect }

/-- `listen_and_accept(c_tcp, c_ad)`, up to its loop. -/
def listenAndAccept [FdAdapter α] (endNode : List ByteString → Nat) (cTcp : TCPConfig)
    (isn : WrappingInt32) (cAd : FdAdapterConfig) (adapter : α) (threadData : FileDescriptor) :
    Execution α :=
  let s := initializeTCP endNode cTcp isn cAd adapter threadData
  { socket := { s with datagramAdapter := FdAdapter.setListening true s.datagramAdapter }
    rules := ruleNames.map rule
    stage := .opening .listenAndAccept }

namespace Execution

/-- What a round makes of an execution; `next` is where it is once the loop has ended. -/
def round [FdAdapter α] (x : Execution α) (r : Round) (next : Stage) : Execution α :=
  match loopRound r x.rules x.socket with
  | .ok (true, rules) socket => { x with socket, rules }
  | .ok (false, rules) socket => { socket, rules, stage := next }
  | .error e socket => { x with socket, stage := .failed e }

/-- One round of the loop the execution is in.  The loop of `_tcp_main` follows that of
    the opening, also if that one has ended by an exit or an abort. -/
def step [FdAdapter α] (x : Execution α) (r : Round) : Execution α :=
  match x.stage with
  | .opening o =>
      if o.waits x.socket.tcp.state then x.round r .running else { x with stage := .running }
  | .running => x.round r .finished
  | .finished => x
  | .failed _ => x

end Execution

end TCPSpongeSocket

end Sponge
