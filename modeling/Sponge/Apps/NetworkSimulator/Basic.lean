/-
  Sponge.Apps.NetworkSimulator.Basic

  The network simulator (`network_simulator.cc`): hosts, the router between them and the
  cables that carry frames from one interface to another.

  What `rd()` gives is a parameter wherever it is called.  An exception ends the program,
  so there is no state after one.  The messages on the standard error are left out.
-/

import Sponge.Router.Basic

namespace Sponge

open Lib (Map)

/-- `random_host_ethernet_address()`, from the bytes that `rd()` gives -/
def randomHostEthernetAddress (bytes : EthernetAddress) : EthernetAddress :=
  bytes.set 0 ((bytes.get 0 ||| 0x02) &&& 0xfe)

/-- `random_router_ethernet_address()`, from the bytes that `rd()` gives -/
def randomRouterEthernetAddress (bytes : EthernetAddress) : EthernetAddress :=
  ((bytes.set 0 0x02).set 1 0).set 2 0

/-- The address that is written `a.b.c.d`. -/
def dotted (a b c d : UInt8) : Address :=
  a.toUInt32 <<< 24 ||| b.toUInt32 <<< 16 ||| c.toUInt32 <<< 8 ||| d.toUInt32

/-- The characters of a text as bytes. -/
def textBytes (text : String) : Buffer := text.toList.map fun c => c.toNat.toUInt8

/-- The bytes as the characters of a text. -/
def bytesText (bytes : Buffer) : String := String.ofList (bytes.map fun b => Char.ofNat b.toNat)

/-- `inet_ntoa` -/
def inetNtoa (address : Address) : String :=
  let byte (shift : UInt32) := toString (address >>> shift).toUInt8.toNat
  byte 24 ++ "." ++ byte 16 ++ "." ++ byte 8 ++ "." ++ byte 0

/-- A number as `std::hex` prints it. -/
def hexText (n : Nat) : String := String.ofList (Nat.toDigits 16 n)

/-- `IPv4Header::summary()` -/
def IPv4Header.summary (h : IPv4Header) : String :=
  "IPv" ++ hexText h.ver.toNat ++ ", " ++ "len=" ++ hexText h.len.toNat ++ ", " ++
    "protocol=" ++ hexText h.proto.toNat ++ ", " ++
    (if h.ttl ≥ 10 then "" else "ttl=" ++ toString h.ttl.toNat ++ ", ") ++
    "src=" ++ inetNtoa h.src ++ ", " ++ "dst=" ++ inetNtoa h.dst

-- ============================================================================
-- Hosts
-- ============================================================================

/-- `Host` -/
structure Host where
  name : String
  myAddress : Address
  interface : AsyncNetworkInterface
  nextHop : Address
  /-- `_expecting_to_receive` -/
  expectingToReceive : List IPv4Datagram := []

namespace Host

/-- `Host(name, my_address, next_hop)`, with the Ethernet address that it draws -/
def new (name : String) (ethernetAddress : EthernetAddress) (myAddress nextHop : Address) : Host :=
  { name, myAddress, nextHop
    interface := { toNetworkInterface := .new ethernetAddress myAddress } }

/-- The comparison in `expecting` and `remove_expectation`. -/
def sameBytes (x expected : IPv4Datagram) : Except Exn Bool := do
  let bytes ← x.serialize
  let expectedBytes ← expected.serialize
  return bytes.flatten = expectedBytes.flatten

/-- The loop of `expecting(expected)`. -/
def expecting (expected : IPv4Datagram) : List IPv4Datagram → Except Exn Bool
  | [] => .ok false
  | x :: xs =>
      match sameBytes x expected with
      | .error e => .error e
      | .ok true => .ok true
      | .ok false => expecting expected xs

/-- The loop of `remove_expectation(expected)`: the list that it leaves. -/
def removeExpectation (expected : IPv4Datagram) :
    List IPv4Datagram → Except Exn (List IPv4Datagram)
  | [] => .ok []
  | x :: xs =>
      match sameBytes x expected with
      | .error e => .error e
      | .ok true => .ok xs
      | .ok false => (removeExpectation expected xs).map (x :: ·)

/-- The payload that `send_to` makes up. -/
def randomPayload (rd : UInt32) : Buffer :=
  textBytes ("random payload: \x7b" ++ toString rd.toNat ++ "\x7d")

/-- The datagram that `send_to` builds. -/
def datagramTo (h : Host) (destination : Address) (rd : UInt32) (ttl : UInt8) : IPv4Datagram :=
  let header : IPv4Header := { src := h.myAddress, dst := destination }
  let payload : BufferList := [randomPayload rd]
  { header := { header with len := (header.hlen.toNat * 4 + payload.size).toUInt16, ttl }
    payload }

/-- `send_to(destination, ttl)` -/
def sendTo (h : Host) (destination : Address) (rd : UInt32) (ttl : UInt8) :
    Except Exn (IPv4Datagram × Host) := do
  let dgram := h.datagramTo destination rd ttl
  let n ← h.interface.sendDatagram dgram h.nextHop
  return (dgram, { h with interface := { h.interface with toNetworkInterface := n } })

/-- `expect(expected)` -/
def expect (h : Host) (expected : IPv4Datagram) : Host :=
  { h with expectingToReceive := h.expectingToReceive ++ [expected] }

/-- The end of the messages of `check`. -/
def described (dgram : IPv4Datagram) : String :=
  dgram.header.summary ++ " payload=\"" ++ bytesText dgram.payload.flatten ++ "\""

/-- The loop of `check` over `datagrams_out()`. -/
def receiveAll (h : Host) : List IPv4Datagram → Except Exn Host
  | [] => .ok { h with interface := { h.interface with datagramsOut := [] } }
  | dgram :: dgrams => do
      let expected ← expecting dgram h.expectingToReceive
      if expected then
        let expectingToReceive ← removeExpectation dgram h.expectingToReceive
        receiveAll { h with expectingToReceive } dgrams
      else
        throw (.runtimeError ("Host " ++ h.name ++ " received unexpected Internet datagram: " ++
          described dgram))

/-- `check()` -/
def check (h : Host) : Except Exn Host := do
  let h ← h.receiveAll h.interface.datagramsOut
  match h.expectingToReceive with
  | [] => return h
  | expected :: _ =>
      throw (.runtimeError ("Host " ++ h.name ++
        " did NOT receive an expected Internet datagram: " ++ described expected))

end Host

-- ============================================================================
-- Cables
-- ============================================================================

namespace AsyncNetworkInterface

/-- `deliver(src_name, src, dst_name, dst)`, the frames in `src` to this interface -/
def deliver : List EthernetFrame → AsyncNetworkInterface → Except Exn AsyncNetworkInterface
  | [], dst => .ok dst
  | frame :: toSend, dst =>
      match dst.recvFrameAsync { frame with payload := [frame.payload.flatten] } with
      | (.error e, _) => .error e
      | (.ok (), dst) => deliver toSend dst

/-- `clear(queue1, queue2)`, where the second queue is the `frames_out()` of the interface -/
def clear (frames : List EthernetFrame) (a : AsyncNetworkInterface) : AsyncNetworkInterface :=
  { a with framesOut := a.framesOut.drop frames.length }

/-- `exchange_frames` on two interfaces -/
def exchangeFrames (x y : AsyncNetworkInterface) :
    Except Exn (AsyncNetworkInterface × AsyncNetworkInterface) := do
  let xFrames := x.framesOut
  let yFrames := y.framesOut
  let y ← deliver xFrames y
  let x ← deliver yFrames x
  return (x.clear xFrames, y.clear yFrames)

/-- `exchange_frames` on three interfaces -/
def exchangeFrames3 (x y z : AsyncNetworkInterface) :
    Except Exn (AsyncNetworkInterface × AsyncNetworkInterface × AsyncNetworkInterface) := do
  let xFrames := x.framesOut
  let yFrames := y.framesOut
  let zFrames := z.framesOut
  let y ← deliver xFrames y
  let z ← deliver xFrames z
  let x ← deliver yFrames x
  let z ← deliver yFrames z
  let x ← deliver zFrames x
  let y ← deliver zFrames y
  return (x.clear xFrames, y.clear yFrames, z.clear zFrames)

end AsyncNetworkInterface

/-- Where an interface is: `_router.interface(id)` or `host(name).interface()`. -/
inductive Place
  | router (id : Nat)
  | host (name : String)
deriving DecidableEq, Repr

/-- The interfaces of a call of `exchange_frames`. -/
inductive Cable
  | two (x y : Place)
  | three (x y z : Place)
deriving DecidableEq, Repr

-- ============================================================================
-- The network
-- ============================================================================

/-- `Network` -/
structure Network where
  router : Router
  defaultId : Nat
  eth0Id : Nat
  eth1Id : Nat
  eth2Id : Nat
  uun3Id : Nat
  hs4Id : Nat
  mit5Id : Nat
  hosts : Map String Host

namespace Network

/-- `host(name)` -/
def host (net : Network) (name : String) : Except Exn Host :=
  match net.hosts.lookup name with
  | none => .error (.runtimeError ("unknown host: " ++ name))
  | some h =>
      if h.name ≠ name then .error (.runtimeError ("invalid host: " ++ name)) else .ok h

/-- The network with another state of a host. -/
def setHost (net : Network) (name : String) (h : Host) : Network :=
  { net with hosts := net.hosts.insert name h }

/-- The interface at a place. -/
def interface (net : Network) : Place → Except Exn AsyncNetworkInterface
  | .router id =>
      match net.router.interfaces[id]? with
      | none => .error (.outOfRange "vector::_M_range_check")
      | some a => .ok a
  | .host name => (net.host name).map Host.interface

/-- The network with another state of the interface at a place. -/
def setInterface (net : Network) (p : Place) (a : AsyncNetworkInterface) : Network :=
  match p with
  | .router id => { net with router := net.router.setInterface id a }
  | .host name =>
      match net.hosts.lookup name with
      | none => net
      | some h => net.setHost name { h with interface := a }

/-- A call of `exchange_frames`. -/
def exchange (net : Network) : Cable → Except Exn Network
  | .two x y => do
      let a ← net.interface x
      let b ← net.interface y
      let (a, b) ← a.exchangeFrames b
      return (net.setInterface x a).setInterface y b
  | .three x y z => do
      let a ← net.interface x
      let b ← net.interface y
      let c ← net.interface z
      let (a, b, c) ← a.exchangeFrames3 b c
      return ((net.setInterface x a).setInterface y b).setInterface z c

/-- One call after the other. -/
def exchangeAll : List Cable → Network → Except Exn Network
  | [], net => .ok net
  | c :: cables, net => do exchangeAll cables (← net.exchange c)

/-- The calls that `simulate_physical_connections()` makes. -/
def physicalConnections (net : Network) : List Cable :=
  [.two (.router net.defaultId) (.host "default_router"),
   .two (.router net.eth0Id) (.host "applesauce"),
   .two (.router net.eth2Id) (.host "cherrypie"),
   .two (.router net.hs4Id) (.host "hs_router"),
   .three (.router net.uun3Id) (.host "dm42") (.host "dm43")]

/-- `_router.route()` -/
def route (net : Network) : Except Exn Network :=
  match net.router.route with
  | (.error e, _) => .error e
  | (.ok (), router) => .ok { net with router }

/-- The first loop of `simulate()`, for a number of passes and any cables. -/
def rounds (cables : List Cable) : Nat → Network → Except Exn Network
  | 0, net => .ok net
  | n + 1, net => do
      let net ← net.route
      let net ← exchangeAll cables net
      rounds cables n net

/-- The second loop of `simulate()`, over the hosts with these names. -/
def checkAll : List String → Network → Except Exn Network
  | [], net => .ok net
  | name :: names, net =>
      match net.hosts.lookup name with
      | none => checkAll names net
      | some h => do
          let h ← h.check
          checkAll names (net.setHost name h)

/-- `simulate()`, for any cables. -/
def simulateOn (cables : List Cable) (net : Network) : Except Exn Network := do
  let net ← rounds cables 256 net
  checkAll net.hosts.keys net

/-- `simulate()` -/
def simulate (net : Network) : Except Exn Network := net.simulateOn net.physicalConnections

/-- One of the tests of `network_simulator()`: a host sends a datagram, another one is told
    to expect it, or none is, and the network is simulated. -/
def traffic (cables : List Cable) (source : String) (destination : Address)
    (receiver : Option String) (rd : UInt32) (ttl : UInt8) (net : Network) :
    Except Exn Network := do
  let h ← net.host source
  let (dgramSent, h) ← h.sendTo destination rd ttl
  let net := net.setHost source h
  match receiver with
  | none => net.simulateOn cables
  | some name => do
      let h ← net.host name
      (net.setHost name (h.expect dgramSent.decrementTtl)).simulateOn cables

/-- `Network()`; the interface at a place draws the bytes `rd p`. -/
def new (undefinedShift : UInt32 → Int → UInt32) (rd : Place → EthernetAddress) :
    Except Exn Network := do
  let added (id : Nat) (address : Address) : AsyncNetworkInterface :=
    { toNetworkInterface := .new (randomRouterEthernetAddress (rd (.router id))) address }
  let router : Router := { undefinedShift }
  let (defaultId, router) := router.addInterface (added 0 (dotted 171 67 76 46))
  let (eth0Id, router) := router.addInterface (added 1 (dotted 10 0 0 1))
  let (eth1Id, router) := router.addInterface (added 2 (dotted 172 16 0 1))
  let (eth2Id, router) := router.addInterface (added 3 (dotted 192 168 0 1))
  let (uun3Id, router) := router.addInterface (added 4 (dotted 198 178 229 1))
  let (hs4Id, router) := router.addInterface (added 5 (dotted 143 195 0 2))
  let (mit5Id, router) := router.addInterface (added 6 (dotted 128 30 76 255))
  let inserted (name : String) (myAddress nextHop : Address) (hosts : Map String Host) :=
    hosts.insert name
      (.new name (randomHostEthernetAddress (rd (.host name))) myAddress nextHop)
  let hosts := inserted "applesauce" (dotted 10 0 0 2) (dotted 10 0 0 1) ∅
  let hosts := inserted "default_router" (dotted 171 67 76 1) 0 hosts
  let hosts := inserted "cherrypie" (dotted 192 168 0 2) (dotted 192 168 0 1) hosts
  let hosts := inserted "hs_router" (dotted 143 195 0 1) 0 hosts
  let hosts := inserted "dm42" (dotted 198 178 229 42) (dotted 198 178 229 1) hosts
  let hosts := inserted "dm43" (dotted 198 178 229 43) (dotted 198 178 229 1) hosts
  let net : Network :=
    { router, defaultId, eth0Id, eth1Id, eth2Id, uun3Id, hs4Id, mit5Id, hosts }
  let defaultRouter ← net.host "default_router"
  let hsRouter ← net.host "hs_router"
  let router := router.addRoute (dotted 0 0 0 0) 0 (some defaultRouter.myAddress) defaultId
  let router := router.addRoute (dotted 10 0 0 0) 8 none eth0Id
  let router := router.addRoute (dotted 172 16 0 0) 16 none eth1Id
  let router := router.addRoute (dotted 192 168 0 0) 24 none eth2Id
  let router := router.addRoute (dotted 198 178 229 0) 24 none uun3Id
  let router := router.addRoute (dotted 143 195 0 0) 17 (some hsRouter.myAddress) hs4Id
  let router := router.addRoute (dotted 143 195 128 0) 18 (some hsRouter.myAddress) hs4Id
  let router := router.addRoute (dotted 143 195 192 0) 19 (some hsRouter.myAddress) hs4Id
  let router := router.addRoute (dotted 128 30 76 255) 16 (some (dotted 128 30 0 1)) mit5Id
  return { net with router }

end Network

/-- What a test of `network_simulator()` is about. -/
structure SimulatorTest where
  source : String
  destination : Address
  /-- the host that is told to expect the datagram -/
  receiver : Option String
  ttl : UInt8 := 64

namespace Network

/-- One test after the other; each draws one number for its payload. -/
def runTests (cables : List Cable) : List (SimulatorTest × UInt32) → Network → Except Exn Network
  | [], net => .ok net
  | (test, rd) :: tests, net => do
      runTests cables tests
        (← net.traffic cables test.source test.destination test.receiver rd test.ttl)

end Network

/-- The tests of `network_simulator()`, by the addresses of three of the hosts. -/
def simulatorTests (applesauce cherrypie dm43 : Address) : List SimulatorTest :=
  [ -- between two ordinary hosts
   { source := "applesauce", destination := cherrypie, receiver := some "cherrypie" },
   { source := "cherrypie", destination := applesauce, receiver := some "applesauce" },
   -- to the Internet
   { source := "applesauce", destination := dotted 1 2 3 4, receiver := some "default_router" },
   -- to the HS network and the Internet
   { source := "applesauce", destination := dotted 143 195 131 17, receiver := some "hs_router" },
   { source := "cherrypie", destination := dotted 143 195 193 52, receiver := some "hs_router" },
   { source := "cherrypie", destination := dotted 143 195 223 255, receiver := some "hs_router" },
   { source := "cherrypie", destination := dotted 143 195 224 0, receiver := some "default_router" },
   -- between two hosts on the same network
   { source := "dm42", destination := dm43, receiver := some "dm43" },
   -- with a `ttl` that expires
   { source := "applesauce", destination := dotted 1 2 3 4, receiver := none, ttl := 1 },
   { source := "applesauce", destination := dotted 1 2 3 4, receiver := none, ttl := 0 }]

/-- `network_simulator()`; the payloads draw the numbers `payload 0`, `payload 1` and so on. -/
def networkSimulator (undefinedShift : UInt32 → Int → UInt32) (rd : Place → EthernetAddress)
    (payload : Nat → UInt32) : Except Exn Network := do
  let net ← Network.new undefinedShift rd
  let applesauce ← net.host "applesauce"
  let cherrypie ← net.host "cherrypie"
  let dm43 ← net.host "dm43"
  let tests := simulatorTests applesauce.myAddress cherrypie.myAddress dm43.myAddress
  net.runTests net.physicalConnections (tests.mapIdx fun i test => (test, payload i))

end Sponge
