/-
  Sponge.FdAdapter.Udp

  TCP segments as the payload of UDP datagrams: `UDPSocket` (`socket.hh`, `socket.cc`) and
  `TCPOverUDPSocketAdapter` (`fd_adapter.hh`, `fd_adapter.cc`).

  The kernel's answers are sequences in the state of the socket, as they are for other
  descriptors.  `recvfrom(2)` is called with `MSG_TRUNC`, so that it gives the length that
  a datagram has, and a datagram that is too long is consumed and refused.
-/

import Sponge.FdAdapter.Basic
import Sponge.Lib.Run

namespace Sponge

open Lib (Ends Run onPart)

-- ============================================================================
-- UDP sockets
-- ============================================================================

/-- What the kernel is going to answer to the calls on a UDP socket. -/
structure UDPKernel where
  /-- the answers to `recvfrom(2)`: where a datagram comes from and its payload, or `errno` -/
  recvs : Stream' (Except Nat (Endpoint × Buffer))
  /-- the answers to `sendmsg(2)`, which depend on the size of what is sent -/
  sends : Stream' (Nat → Except Nat Nat)

/-- `UDPSocket` -/
structure UDPSocket extends FDWrapper, UDPKernel where
  /-- what has been received, with where it came from -/
  received : List (Endpoint × Buffer) := []
  /-- what has been sent, with where it was sent -/
  sent : List (Endpoint × Buffer) := []

namespace UDPSocket

/-- The default of the parameter `mtu` of `recv`. -/
def mtu : Nat := 65536

/-- `recv(mtu)`: the `source_address` and the `payload` of the datagram. -/
def recv : EStateM Thrown UDPSocket (Endpoint × Buffer) := do
  let sock ← get
  modify fun sock => { sock with recvs := sock.recvs.tail }
  let datagram ← systemCall "recvfrom" sock.recvs.head
  if datagram.2.length > mtu then throw (.runtimeError "recvfrom (oversized datagram)")
  else do
    modify fun sock => { sock with
      readCount := sock.readCount + 1
      received := sock.received ++ [datagram] }
    pure datagram

/-- `sendto(destination, payload)`, with `sendmsg_helper` -/
def sendto (destination : Endpoint) (payload : BufferViewList) : EStateM Thrown UDPSocket Unit := do
  let sock ← get
  modify fun sock => { sock with sends := sock.sends.tail }
  let bytesSent ← systemCall "sendmsg" (sock.sends.head payload.size)
  modify fun sock => { sock with
    sent := sock.sent ++ [(destination, payload.flatten.take bytesSent)] }
  if bytesSent ≠ payload.size then
    throw (.runtimeError "datagram payload too big for sendmsg()")
  else modify fun sock => { sock with writeCount := sock.writeCount + 1 }

/-- A call of `recv` has returned. -/
structure DidRecv (sock : UDPSocket) (datagram : Endpoint × Buffer) (sock' : UDPSocket) : Prop where
  received : sock'.received = sock.received ++ [datagram]
  readCount : sock'.readCount = sock.readCount + 1
  sent : sock'.sent = sock.sent
  sends : sock'.sends = sock.sends

theorem recv_ends (sock : UDPSocket) :
    Ends recv sock (DidRecv sock) (fun e sock' => OfMedium e ∧ sock'.received = sock.received ∧
      sock'.sent = sock.sent ∧ sock'.sends = sock.sends) := by
  unfold recv
  simp only [Lib.ends_bind, Lib.ends_get, Lib.ends_modify, ends_systemCall, Lib.ends_ite,
    Lib.ends_throw, Lib.ends_pure]
  refine ⟨fun datagram _ => ⟨fun _ => ?_, fun _ => ?_⟩, fun errno _ => ?_⟩
  · exact ⟨.oversized, trivial, trivial, trivial⟩
  · exact ⟨rfl, rfl, rfl, rfl⟩
  · exact ⟨.kernel (.unix _ _), trivial, trivial, trivial⟩

/-- A datagram that is sent whole or not at all. -/
theorem sendto_ends {sock : UDPSocket} (hwhole : Whole sock.sends) (destination : Endpoint)
    (payload : BufferViewList) :
    Ends (sendto destination payload) sock
      (fun _ sock' => Whole sock'.sends ∧ sock'.received = sock.received ∧
        sock'.sent = sock.sent ++ [(destination, payload.flatten)])
      (fun e sock' => OfMedium e ∧ Whole sock'.sends ∧ sock'.received = sock.received ∧
        sock'.sent = sock.sent) := by
  unfold sendto
  simp only [Lib.ends_bind, Lib.ends_get, Lib.ends_modify, ends_systemCall, Lib.ends_ite,
    Lib.ends_throw]
  refine ⟨fun n hn => ?_, fun errno _ => ⟨.kernel (.unix _ _), hwhole.tail, trivial, trivial⟩⟩
  obtain rfl : n = payload.size := hwhole.head hn
  refine ⟨fun hne => absurd rfl hne, fun _ => ⟨hwhole.tail, trivial, ?_⟩⟩
  rw [BufferViewList.size_eq, List.take_length]

end UDPSocket

-- ============================================================================
-- The adapter
-- ============================================================================

/-- `TCPOverUDPSocketAdapter`, with what it has from `FdAdapterBase`. -/
structure TCPOverUDPSocketAdapter where
  config : FdAdapterConfig := {}
  listening : Bool := false
  sock : UDPSocket

namespace TCPOverUDPSocketAdapter

/-- What is done with the socket. -/
def onSock {β : Type} (p : EStateM Thrown UDPSocket β) : EStateM Thrown TCPOverUDPSocketAdapter β :=
  onPart sock (fun a sock => { a with sock }) p

/-- The source of the first SYN is the target of all future replies. -/
def connectTo (a : TCPOverUDPSocketAdapter) (source : Endpoint) : TCPOverUDPSocketAdapter :=
  { a with config := { a.config with destination := source }, listening := false }

/-- `read()` -/
def read : EStateM Thrown TCPOverUDPSocketAdapter (Option TCPSegment) := do
  let datagram ← onSock UDPSocket.recv
  let a ← get
  -- is it for us?
  if a.listening = false ∧ datagram.1 ≠ a.config.destination then pure none
  else
    -- is the payload a valid TCP segment?
    let parsed := ({} : TCPSegment).parse datagram.2 0
    if parsed.1 ≠ .noError then pure none
    -- should we target this source in all future replies?
    else if a.listening = true then
      if parsed.2.header.syn = true ∧ parsed.2.header.rst = false then do
        modify fun a => a.connectTo datagram.1
        pure (some parsed.2)
      else pure none
    else pure (some parsed.2)

/-- The segment with the configured port numbers. -/
def setPorts (a : TCPOverUDPSocketAdapter) (seg : TCPSegment) : TCPSegment :=
  { seg with header := { seg.header with
      sport := a.config.source.port
      dport := a.config.destination.port } }

/-- `write(seg)` -/
def write (seg : TCPSegment) : EStateM Thrown TCPOverUDPSocketAdapter Unit := do
  let a ← get
  let payload ← raise ((a.setPorts seg).serialize 0)
  onSock (UDPSocket.sendto a.config.destination payload)

/-- The segment that is read from a payload. -/
def segmentIn (payload : Buffer) : Option TCPSegment :=
  let parsed := ({} : TCPSegment).parse payload 0
  if parsed.1 = .noError then some parsed.2 else none

instance : Medium TCPOverUDPSocketAdapter where
  fd a := a.sock.toFDWrapper
  config := config
  setConfig config a := { a with config }
  setListening listening a := { a with listening }
  read := read
  write := write
  tick _ := pure ()
  taken a := a.sock.received.map Prod.snd
  put a := a.sock.sent.map Prod.snd
  decode := segmentIn

-- ============================================================================
-- What a call can do
-- ============================================================================

/-- What a call of `read` does with a datagram. -/
inductive Reads (a : TCPOverUDPSocketAdapter) (datagram : Endpoint × Buffer) :
    Option TCPSegment → TCPOverUDPSocketAdapter → Prop
  /-- no segment is returned -/
  | refused : Reads a datagram none a
  /-- the segment is from the configured peer -/
  | accepted {seg : TCPSegment} : segmentIn datagram.2 = some seg → a.listening = false →
      datagram.1 = a.config.destination → Reads a datagram (some seg) a
  /-- the segment is a SYN, and its sender becomes the peer -/
  | connected {seg : TCPSegment} : segmentIn datagram.2 = some seg → a.listening = true →
      seg.header.syn = true → seg.header.rst = false →
      Reads a datagram (some seg) (a.connectTo datagram.1)

theorem Reads.segmentIn_eq {a a' : TCPOverUDPSocketAdapter} {datagram : Endpoint × Buffer}
    {seg : TCPSegment} (h : a.Reads datagram (some seg) a') : segmentIn datagram.2 = some seg := by
  cases h with
  | accepted hseg => exact hseg
  | connected hseg => exact hseg

theorem Reads.sock_eq {a a' : TCPOverUDPSocketAdapter} {datagram : Endpoint × Buffer}
    {result : Option TCPSegment} (h : a.Reads datagram result a') : a'.sock = a.sock := by
  cases h <;> rfl

/-- A call of `read` takes one datagram, and decides by it. -/
theorem read_ends (a : TCPOverUDPSocketAdapter) :
    Ends read a
      (fun result a' => ∃ datagram sock', UDPSocket.DidRecv a.sock datagram sock' ∧
        { a with sock := sock' }.Reads datagram result a')
      (fun e a' => ∃ sock', OfMedium e ∧ a' = { a with sock := sock' } ∧
        sock'.received = a.sock.received ∧ sock'.sent = a.sock.sent ∧
        sock'.sends = a.sock.sends) := by
  unfold read onSock
  simp only [Lib.ends_bind, Lib.ends_onPart, Lib.ends_get]
  refine (UDPSocket.recv_ends a.sock).mono ?_ ?_
  · intro datagram sock' hrecv
    have hsegment : ¬ (({} : TCPSegment).parse datagram.2 0).1 ≠ .noError →
        segmentIn datagram.2 = some (({} : TCPSegment).parse datagram.2 0).2 :=
      fun h => if_pos (not_not.mp h)
    simp only [Lib.ends_ite, Lib.ends_pure, Lib.ends_bind, Lib.ends_modify]
    refine ⟨fun _ => ⟨_, _, hrecv, .refused⟩, fun hfor => ⟨fun _ => ⟨_, _, hrecv, .refused⟩,
      fun hparse => ⟨fun hlisten => ⟨fun hsyn => ?_, fun _ => ⟨_, _, hrecv, .refused⟩⟩,
        fun hlisten => ?_⟩⟩⟩
    · exact ⟨_, _, hrecv, .connected (hsegment hparse) hlisten hsyn.1 hsyn.2⟩
    · have hlisten : a.listening = false := by simpa using hlisten
      have hsource : datagram.1 = a.config.destination :=
        not_not.mp fun hne => hfor ⟨hlisten, hne⟩
      exact ⟨_, _, hrecv, .accepted (hsegment hparse) hlisten hsource⟩
  · rintro e sock' ⟨he, h⟩
    exact ⟨sock', he, rfl, h⟩

/-- The segment as it is sent. -/
def onWire (a : TCPOverUDPSocketAdapter) (seg : TCPSegment) : TCPSegment :=
  (a.setPorts seg).setCksum ((a.setPorts seg).computedCksum 0)

theorem plain_setPorts {seg : TCPSegment} (h : seg.Plain) (a : TCPOverUDPSocketAdapter) :
    (a.setPorts seg).Plain := ⟨h.doff_eq, h.payload_le⟩

/-- What is sent is read back. -/
theorem segmentIn_wire {seg : TCPSegment} (h : seg.Plain) (a : TCPOverUDPSocketAdapter) :
    segmentIn (a.onWire seg).wire = some (a.onWire seg) := by
  have hencodable := (plain_setPorts h a).encodable
  have hparse : ({} : TCPSegment).parse (a.onWire seg).wire 0 = (.noError, a.onWire seg) :=
    TCPSegment.parse_wire {} (hencodable.setCksum _) (Or.inl rfl)
      (TCPSegment.checksum_wire hencodable (Or.inl rfl))
  simp only [segmentIn, hparse, if_true]

theorem onWire_agrees (a : TCPOverUDPSocketAdapter) (seg : TCPSegment) :
    (a.onWire seg).Agrees seg := ⟨rfl, rfl, rfl, rfl, rfl, rfl, rfl, rfl⟩

theorem write_ends {a : TCPOverUDPSocketAdapter} (hwhole : Whole a.sock.sends) {seg : TCPSegment}
    (h : seg.Plain) :
    Ends (write seg) a
      (fun _ a' => ∃ sock', a' = { a with sock := sock' } ∧ Whole sock'.sends ∧
        sock'.received = a.sock.received ∧
        sock'.sent = a.sock.sent ++ [(a.config.destination, (a.onWire seg).wire)])
      (fun e a' => ∃ sock', OfMedium e ∧ a' = { a with sock := sock' } ∧ Whole sock'.sends ∧
        sock'.received = a.sock.received ∧ sock'.sent = a.sock.sent) := by
  have hserialize : (a.setPorts seg).serialize 0 = .ok _ :=
    TCPSegment.serialize_eq (plain_setPorts h a).encodable
  unfold write onSock
  simp only [Lib.ends_bind, Lib.ends_get, ends_raise, Lib.ends_onPart]
  refine ⟨fun payload hpayload => ?_, fun e he => ?_⟩
  · obtain rfl := Except.ok.inj (hserialize.symm.trans hpayload)
    refine (UDPSocket.sendto_ends hwhole a.config.destination _).mono ?_ ?_
    · rintro _ sock' ⟨hwhole', hreceived, hsent⟩
      refine ⟨sock', rfl, hwhole', hreceived, ?_⟩
      rw [hsent, List.flatten_cons, List.flatten_singleton]
      rfl
    · rintro e sock' ⟨he, h⟩
      exact ⟨sock', he, rfl, h⟩
  · rw [hserialize] at he
    cases he

/-- A UDP socket that sends datagrams whole carries what it is given. -/
instance : Faithful TCPOverUDPSocketAdapter where
  Sends segs a := Whole a.sock.sends ∧ Carried segmentIn segs (put a)
  sends_mono h hsegs := ⟨h.1, h.2.mono hsegs⟩
  carried h := h.2
  setConfig_sends _ h := h
  setConfig_taken _ _ := rfl
  setListening_sends _ h := h
  setListening_taken _ _ := rfl
  read_ends := by
    rintro segs a ⟨hwhole, hput⟩
    refine (read_ends a).mono ?_ ?_
    · rintro result a' ⟨datagram, sock', hrecv, hreads⟩
      have hsock : a'.sock = sock' := hreads.sock_eq
      refine ⟨⟨?_, ?_⟩, ⟨datagram.2, ?_, ?_⟩, ?_⟩
      · rwa [hsock, hrecv.sends]
      · show Carried segmentIn segs (a'.sock.sent.map Prod.snd)
        rwa [hsock, hrecv.sent]
      · show a'.sock.received.map Prod.snd = a.sock.received.map Prod.snd ++ [datagram.2]
        rw [hsock, hrecv.received, List.map_append, List.map_singleton]
      · rintro seg rfl
        exact hreads.segmentIn_eq
      · show a.sock.readCount ≠ a'.sock.readCount
        rw [hsock, hrecv.readCount]
        grind
    · rintro e a' ⟨sock', he, rfl, hreceived, hsent, hsends⟩
      refine ⟨he, ⟨hsends ▸ hwhole, ?_⟩, ?_⟩
      · show Carried segmentIn segs (sock'.sent.map Prod.snd)
        rwa [hsent]
      · show _ <+: sock'.received.map Prod.snd
        rw [hreceived]
        exact List.prefix_refl _
  write_ends := by
    rintro segs a seg hseg ⟨hwhole, hput⟩
    have hput' := hput.mono (List.subset_append_left segs [seg])
    refine (write_ends hwhole hseg).mono ?_ ?_
    · rintro _ a' ⟨sock', rfl, hwhole', hreceived, hsent⟩
      refine ⟨⟨hwhole', ?_⟩, congrArg (List.map Prod.snd) hreceived⟩
      show Carried segmentIn (segs ++ [seg]) (sock'.sent.map Prod.snd)
      rw [hsent, List.map_append]
      refine hput'.append (.singleton fun seg' hseg' => ⟨seg, by simp, ?_⟩)
      obtain rfl := Option.some.inj ((segmentIn_wire hseg a).symm.trans hseg')
      exact a.onWire_agrees seg
    · rintro e a' ⟨sock', he, rfl, hwhole', hreceived, hsent⟩
      refine ⟨he, ⟨hwhole', ?_⟩, congrArg (List.map Prod.snd) hreceived⟩
      show Carried segmentIn (segs ++ [seg]) (sock'.sent.map Prod.snd)
      rwa [hsent]
  tick_ends _ h := Lib.ends_pure.mpr ⟨h, rfl⟩

-- ============================================================================
-- Delivery
-- ============================================================================

/-- The adapter takes segments like this one from the address. -/
def Takes (b : TCPOverUDPSocketAdapter) (source : Endpoint) (seg : TCPSegment) : Prop :=
  if b.listening then seg.header.syn = true ∧ seg.header.rst = false
  else source = b.config.destination

/-- The adapter as it is after it has taken a segment from the address. -/
def Targets (b : TCPOverUDPSocketAdapter) (source : Endpoint) : Prop :=
  b.listening = false ∧ b.config.destination = source

/-- A datagram with a segment that the adapter takes. -/
theorem read_of_takes {b : TCPOverUDPSocketAdapter} {source : Endpoint} {payload : Buffer}
    {seg : TCPSegment} (hrecv : b.sock.recvs.head = .ok (source, payload))
    (hlength : payload.length ≤ UDPSocket.mtu) (hseg : segmentIn payload = some seg)
    (htakes : b.Takes source seg) :
    Ends read b (fun result b' => result = some seg ∧ b'.Targets source) (fun _ _ => False) := by
  obtain ⟨hok, hparse⟩ : (({} : TCPSegment).parse payload 0).1 = .noError ∧
      (({} : TCPSegment).parse payload 0).2 = seg := by
    unfold segmentIn at hseg
    dsimp only at hseg
    split at hseg
    · rename_i hok
      exact ⟨hok, Option.some.inj hseg⟩
    · cases hseg
  unfold read onSock UDPSocket.recv
  simp only [Lib.ends_bind, Lib.ends_onPart, Lib.ends_get, Lib.ends_modify, ends_systemCall,
    Lib.ends_ite, Lib.ends_throw, Lib.ends_pure]
  refine ⟨fun datagram hdatagram => ?_, fun errno herr => ?_⟩
  · obtain rfl := Except.ok.inj (hrecv.symm.trans hdatagram)
    unfold Takes at htakes
    refine ⟨fun hlong => absurd hlength (Nat.not_le.mpr hlong), fun _ => ?_⟩
    refine ⟨fun hother => ?_, fun _ => ⟨fun hbad => absurd hok hbad, fun _ => ⟨fun hlisten => ?_,
      fun hlisten => ?_⟩⟩⟩
    · rw [if_neg (by simp [hother.1])] at htakes
      exact absurd htakes hother.2
    · rw [if_pos hlisten] at htakes
      rw [hparse]
      exact ⟨fun _ => ⟨rfl, rfl, rfl⟩, fun hnot => absurd htakes hnot⟩
    · rw [if_neg hlisten] at htakes
      exact ⟨congrArg some hparse, by simpa using hlisten, htakes.symm⟩
  · rw [hrecv] at herr
    cases herr

/-- **What is written is read.**  A segment of a connection that one adapter has written goes
    out as one datagram, unless the kernel refuses it.  Whichever adapter gets that
    datagram next, if it takes such segments from where it comes from, it returns the segment
    with the ports and the checksum filled in, and from then on it talks to nobody else. -/
theorem udp_delivers (a : TCPOverUDPSocketAdapter) (seg : TCPSegment) (hseg : seg.Plain)
    (hwhole : Whole a.sock.sends) :
    Ends (write seg) a
      (fun _ a' => ∃ payload, a'.sock.sent = a.sock.sent ++ [(a.config.destination, payload)] ∧
        ∀ (b : TCPOverUDPSocketAdapter) (source : Endpoint),
          b.sock.recvs.head = .ok (source, payload) → b.Takes source seg →
          Ends read b (fun result b' => result = some (a.onWire seg) ∧ b'.Targets source)
            (fun _ _ => False))
      (fun e a' => OfMedium e ∧ a'.sock.sent = a.sock.sent) := by
  refine (write_ends hwhole hseg).mono ?_ ?_
  · rintro _ a' ⟨sock', rfl, -, -, hsent⟩
    refine ⟨_, hsent, fun b source hrecv htakes => ?_⟩
    have hlength : (a.onWire seg).wire.length ≤ UDPSocket.mtu := by
      have hsize := ((plain_setPorts hseg a).encodable.setCksum
        ((a.setPorts seg).computedCksum 0)).size_le
      rw [onWire, TCPSegment.wire_length ((plain_setPorts hseg a).encodable.setCksum _)]
      exact Nat.le_trans hsize (by decide)
    exact read_of_takes hrecv hlength (segmentIn_wire hseg a) htakes
  · rintro e a' ⟨sock', he, rfl, -, -, hsent⟩
    exact ⟨he, hsent⟩

/-- A SYN gets through to an adapter that listens. -/
theorem udp_delivers_syn :
    TCPSegment.Plain { header := { syn := true } } ∧
      Ends (write { header := { syn := true } })
        { sock := { recvs := fun _ => .error 11, sends := fun _ => .ok } }
        (fun _ a' => ∃ payload, a'.sock.sent = [({}, payload)] ∧
          ∀ (b : TCPOverUDPSocketAdapter) (source : Endpoint),
            b.sock.recvs.head = .ok (source, payload) →
            b.Takes source { header := { syn := true } } →
            Ends read b (fun result b' => result.isSome ∧ b'.Targets source) (fun _ _ => False))
        (fun e _ => OfMedium e) := by
  have hplain : TCPSegment.Plain { header := { syn := true } } := ⟨rfl, by decide⟩
  have hwhole : Whole fun _ => .ok := fun i size n hn => (Except.ok.inj hn).symm
  refine ⟨hplain, (udp_delivers _ _ hplain hwhole).mono ?_ fun _ _ he => he.1⟩
  rintro _ a' ⟨payload, hsent, hread⟩
  refine ⟨payload, hsent, fun b source hrecv htakes => ?_⟩
  refine (hread b source hrecv htakes).mono ?_ fun _ _ he => he
  rintro result b' ⟨rfl, htargets⟩
  exact ⟨rfl, htargets⟩

-- ============================================================================
-- One peer
-- ============================================================================

/-- A call of the socket that owns the adapter. -/
inductive Call
  | read
  | write (seg : TCPSegment)

/-- An adapter, and the segments it has returned with the addresses they came from. -/
structure Trace where
  adapter : TCPOverUDPSocketAdapter
  returned : List (Endpoint × TCPSegment) := []

namespace Trace

/-- A call that returns. -/
inductive Step (t : Trace) : Call → Trace → Prop
  | read {datagram : Endpoint × Buffer} {result : Option TCPSegment} {a : TCPOverUDPSocketAdapter}
      (hread : TCPOverUDPSocketAdapter.read t.adapter = .ok result a)
      (hlast : a.sock.received.getLast? = some datagram) :
      Step t .read { adapter := a
                     returned := t.returned ++ result.toList.map fun seg => (datagram.1, seg) }
  | write {seg : TCPSegment} {a : TCPOverUDPSocketAdapter}
      (hwrite : TCPOverUDPSocketAdapter.write seg t.adapter = .ok () a) :
      Step t (.write seg) { t with adapter := a }

/-- What is guaranteed of an adapter that started as `a₀`. -/
structure OnePeer (a₀ : TCPOverUDPSocketAdapter) (t : Trace) : Prop where
  /-- As long as the adapter listens it returns nothing. -/
  silent : t.adapter.listening = true → t.returned = [] ∧ a₀.listening = true
  /-- All segments come from the one address that replies are sent to. -/
  peer : ∀ p ∈ t.returned, p.1 = t.adapter.config.destination
  /-- If the adapter was listening, the first of them is a SYN. -/
  first : a₀.listening = true → t.adapter.listening = true ∨
    ∃ p, t.returned.head? = some p ∧ p.2.header.syn = true ∧ p.2.header.rst = false
  /-- If it was not, the address is the configured one. -/
  configured : a₀.listening = false → t.adapter.config = a₀.config
  /-- Each of them is the segment in a datagram that was received from there. -/
  genuine : ∀ p ∈ t.returned, ∃ payload, (p.1, payload) ∈ t.adapter.sock.received ∧
    segmentIn payload = some p.2

theorem onePeer_start (a : TCPOverUDPSocketAdapter) : OnePeer a { adapter := a } where
  silent h := ⟨rfl, h⟩
  peer _ h := absurd h List.not_mem_nil
  first h := Or.inl h
  configured _ := rfl
  genuine _ h := absurd h List.not_mem_nil

/-- A datagram is read and refused, or nothing is read. -/
theorem OnePeer.setSock {a₀ : TCPOverUDPSocketAdapter} {t : Trace} (h : OnePeer a₀ t)
    {sock : UDPSocket} (hreceived : t.adapter.sock.received ⊆ sock.received) :
    OnePeer a₀ { t with adapter := { t.adapter with sock } } where
  silent := h.silent
  peer := h.peer
  first := h.first
  configured := h.configured
  genuine := fun p hp => by
    obtain ⟨payload, hmem, hseg⟩ := h.genuine p hp
    exact ⟨payload, hreceived hmem, hseg⟩

theorem OnePeer.read {a₀ : TCPOverUDPSocketAdapter} {t : Trace} (h : OnePeer a₀ t)
    {datagram : Endpoint × Buffer} {sock : UDPSocket}
    (hrecv : UDPSocket.DidRecv t.adapter.sock datagram sock) {result : Option TCPSegment}
    {a : TCPOverUDPSocketAdapter} (hreads : { t.adapter with sock }.Reads datagram result a) :
    OnePeer a₀ { adapter := a
                 returned := t.returned ++ result.toList.map fun seg => (datagram.1, seg) } := by
  have hreceived : t.adapter.sock.received ⊆ sock.received := by
    rw [hrecv.received]
    exact List.subset_append_left ..
  have hsock := h.setSock hreceived
  have hmem : datagram ∈ sock.received := by
    rw [hrecv.received]
    exact List.mem_append_right _ (List.mem_singleton_self _)
  cases hreads with
  | refused =>
      simp only [Option.toList_none, List.map_nil, List.append_nil]
      exact hsock
  | @accepted seg hseg hlisten hsource =>
      have hnot : ¬ t.adapter.listening = true := by simp [show t.adapter.listening = false from hlisten]
      refine ⟨fun hl => absurd hl hnot, ?_, fun h₀ => ?_, hsock.configured, ?_⟩
      · intro p hp
        rcases List.mem_append.mp hp with hp | hp
        · exact hsock.peer p hp
        · obtain rfl := List.mem_singleton.mp hp
          exact hsource
      · obtain hl | ⟨p, hp, hsyn⟩ := hsock.first h₀
        · exact absurd hl hnot
        · refine Or.inr ⟨p, ?_, hsyn⟩
          rw [List.head?_append, show t.returned.head? = some p from hp]
          rfl
      · intro p hp
        rcases List.mem_append.mp hp with hp | hp
        · exact hsock.genuine p hp
        · obtain rfl := List.mem_singleton.mp hp
          exact ⟨_, hmem, hseg⟩
  | @connected seg hseg hlisten hsyn hrst =>
      obtain ⟨hnil, h₀⟩ := h.silent hlisten
      simp only [hnil, Option.toList_some, List.map_cons, List.map_nil, List.nil_append]
      refine ⟨fun hl => absurd hl Bool.false_ne_true, ?_, fun _ => Or.inr ⟨_, rfl, hsyn, hrst⟩,
        fun hnot => ?_, ?_⟩
      · intro p hp
        obtain rfl := List.mem_singleton.mp hp
        rfl
      · rw [h₀] at hnot
        cases hnot
      · intro p hp
        obtain rfl := List.mem_singleton.mp hp
        exact ⟨_, hmem, hseg⟩

/-- Whatever is written, nothing is received. -/
theorem write_receives (a : TCPOverUDPSocketAdapter) (seg : TCPSegment) :
    Ends (TCPOverUDPSocketAdapter.write seg) a
      (fun _ a' => ∃ sock, a' = { a with sock } ∧ sock.received = a.sock.received)
      (fun _ _ => True) := by
  unfold TCPOverUDPSocketAdapter.write onSock UDPSocket.sendto
  simp only [Lib.ends_bind, Lib.ends_get, ends_raise, Lib.ends_onPart, Lib.ends_modify,
    ends_systemCall, Lib.ends_ite, Lib.ends_throw]
  exact ⟨fun _ _ => ⟨fun _ _ => ⟨fun _ => trivial, fun _ => ⟨_, rfl, rfl⟩⟩, fun _ _ => trivial⟩,
    fun _ _ => trivial⟩

theorem OnePeer.step {a₀ : TCPOverUDPSocketAdapter} {t t' : Trace} {call : Call}
    (h : OnePeer a₀ t) (hstep : t.Step call t') : OnePeer a₀ t' := by
  cases hstep with
  | @read datagram result a hread hlast =>
      obtain ⟨datagram', sock, hrecv, hreads⟩ := (read_ends t.adapter).of_ok hread
      have hdatagram : datagram' = datagram := by
        rw [hreads.sock_eq, hrecv.received, List.getLast?_concat] at hlast
        exact Option.some.inj hlast
      exact hdatagram ▸ h.read hrecv hreads
  | @write seg a hwrite =>
      obtain ⟨sock, rfl, hreceived⟩ := (write_receives t.adapter seg).of_ok hwrite
      exact h.setSock (hreceived ▸ List.Subset.refl _)

/-- **One peer.**  Whatever is received and sent, all segments that an adapter returns come
    from the address that it replies to: the configured one, or that of the first SYN if it
    was listening. -/
theorem udp_onePeer (a₀ : TCPOverUDPSocketAdapter) {calls : List Call} {t : Trace}
    (hrun : Run Step { adapter := a₀ } calls t) : OnePeer a₀ t :=
  hrun.invariant (I := OnePeer a₀) (onePeer_start a₀) fun _ _ _ ht hs => ht.step hs

/-- The adapter listens; a datagram with a SYN comes in, then one with data from another
    address. -/
def stranger : TCPOverUDPSocketAdapter where
  listening := true
  sock :=
    { recvs := fun
        | 0 => .ok (⟨1, 1⟩, [0, 1, 0, 2, 0, 0, 0, 7, 0, 0, 0, 0, 80, 2, 0, 0, 175, 243, 0, 0])
        | _ => .ok (⟨2, 1⟩,
            [0, 1, 0, 2, 0, 0, 0, 8, 0, 0, 0, 0, 80, 0, 0, 0, 71, 139, 0, 0, 104, 105])
      sends := fun _ => .ok }

theorem udp_onePeer_stranger :
    ∃ t, Run Step { adapter := stranger } [.read, .read] t ∧ OnePeer stranger t ∧
      t.returned.map Prod.fst = [⟨1, 1⟩] := by
  have hreads : Ends TCPOverUDPSocketAdapter.read stranger
      (fun first a => (a.sock.received.getLast?.map Prod.fst = some ⟨1, 1⟩ ∧ first.isSome) ∧
        Ends TCPOverUDPSocketAdapter.read a
          (fun second a' => a'.sock.received.getLast?.isSome ∧ second = none) (fun _ _ => False))
      (fun _ _ => False) := by decide +kernel
  obtain ⟨first, a, hfirst, ⟨hlast, hsome⟩, hsecond⟩ := hreads.exists_ok
  obtain ⟨second, a', hsecond, hlast', rfl⟩ := hsecond.exists_ok
  obtain ⟨datagram, hdatagram, hsource⟩ := Option.map_eq_some_iff.mp hlast
  obtain ⟨datagram', hdatagram'⟩ := Option.isSome_iff_exists.mp hlast'
  obtain ⟨seg, rfl⟩ := Option.isSome_iff_exists.mp hsome
  have hrun := (Run.single (Step.read (t := { adapter := stranger }) hfirst hdatagram)).snoc _
    (.read hsecond hdatagram')
  exact ⟨_, hrun, udp_onePeer stranger hrun, by simp [hsource]⟩

end Trace

end TCPOverUDPSocketAdapter

end Sponge
