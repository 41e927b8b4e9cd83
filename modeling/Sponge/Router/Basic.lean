/-
  Sponge.Router.Basic

  The router (`router.hh`, `router.cc`): a table of routes and the interfaces between
  which it forwards datagrams.

  A shift of a 32-bit word by 32 or more, or by a negative amount, has no defined value;
  what it yields is the parameter `undefinedShift` of the router.
-/

import Sponge.NetworkInterface.Basic

namespace Sponge

/-- `AsyncNetworkInterface` -/
structure AsyncNetworkInterface extends NetworkInterface where
  datagramsOut : List IPv4Datagram := []

namespace AsyncNetworkInterface

/-- `AsyncNetworkInterface::recv_frame(frame)` -/
def recvFrameAsync (a : AsyncNetworkInterface) (frame : EthernetFrame) :
    Except Exn Unit × AsyncNetworkInterface :=
  match a.recvFrame frame with
  | (.error e, n) => (.error e, { a with toNetworkInterface := n })
  | (.ok none, n) => (.ok (), { a with toNetworkInterface := n })
  | (.ok (some dgram), n) =>
      (.ok (), { toNetworkInterface := n, datagramsOut := a.datagramsOut ++ [dgram] })

end AsyncNetworkInterface

/-- `Router::Route`; `shiftedPrefix` is the field `prefix`. -/
structure Route where
  shiftedPrefix : UInt32 := 0
  prefixLength : UInt8 := 0
  nextHop : Option Address := none
  interfaceNum : Nat := 0
deriving DecidableEq, Repr

/-- `Router` -/
structure Router where
  routes : List Route := []
  interfaces : List AsyncNetworkInterface := []
  undefinedShift : UInt32 → Int → UInt32

namespace Router

/-- `PREFIX_MAX_BITS` -/
def prefixMaxBits : UInt8 := 32

/-- `x >> bits` -/
def shiftRight (r : Router) (x : UInt32) (bits : Int) : UInt32 :=
  if 0 ≤ bits ∧ bits < 32 then x >>> bits.toNat.toUInt32 else r.undefinedShift x bits

/-- `add_interface(interface)` -/
def addInterface (r : Router) (a : AsyncNetworkInterface) : Nat × Router :=
  (r.interfaces.length, { r with interfaces := r.interfaces ++ [a] })

/-- `add_route(route_prefix, prefix_length, next_hop, interface_num)` -/
def addRoute (r : Router) (routePrefix : UInt32) (prefixLength : UInt8)
    (nextHop : Option Address) (interfaceNum : Nat) : Router :=
  let rightShiftBits :=
    if prefixLength > prefixMaxBits then prefixMaxBits else prefixMaxBits - prefixLength
  { r with routes := r.routes ++
      [{ shiftedPrefix := r.shiftRight routePrefix rightShiftBits.toNat, prefixLength, nextHop,
         interfaceNum }] }

/-- The test of `route_one_datagram` whether the destination has the prefix of a route. -/
def HasPrefix (r : Router) (dst : UInt32) (candidate : Route) : Prop :=
  r.shiftRight dst (prefixMaxBits.toNat - candidate.prefixLength.toNat : Int) =
      candidate.shiftedPrefix ∨
    candidate.prefixLength = 0

instance (r : Router) (dst : UInt32) (candidate : Route) : Decidable (r.HasPrefix dst candidate) :=
  inferInstanceAs (Decidable (_ ∨ _))

/-- One pass of the loop of `route_one_datagram`, on `found_route` and `route`. -/
def consider (r : Router) (dst : UInt32) (best : Bool × Route) (candidate : Route) : Bool × Route :=
  if candidate.prefixLength ≥ best.2.prefixLength ∧ r.HasPrefix dst candidate then (true, candidate)
  else best

/-- The loop of `route_one_datagram`. -/
def search (r : Router) (dst : UInt32) : Bool × Route := r.routes.foldl (r.consider dst) (false, {})

end Router

/-- `--header.ttl` -/
def IPv4Datagram.decrementTtl (d : IPv4Datagram) : IPv4Datagram :=
  { d with header := { d.header with ttl := d.header.ttl - 1 } }

namespace Router

/-- The router with another state of the interface number `N`. -/
def setInterface (r : Router) (N : Nat) (a : AsyncNetworkInterface) : Router :=
  { r with interfaces := r.interfaces.set N a }

/-- `interface(N).send_datagram(dgram, next_hop)`; a throw changes nothing. -/
def sendOn (r : Router) (N : Nat) (dgram : IPv4Datagram) (nextHop : Address) : Except Exn Router :=
  match r.interfaces[N]? with
  | none => .error (.outOfRange "vector::_M_range_check")
  | some a => do
      let n ← a.sendDatagram dgram nextHop
      return r.setInterface N { a with toNetworkInterface := n }

/-- `route_one_datagram(dgram)`; a throw changes nothing but the `ttl` of the datagram. -/
def routeOneDatagram (r : Router) (dgram : IPv4Datagram) : Except Exn Router :=
  if dgram.header.ttl ≤ 1 then .ok r else
  let dgram := dgram.decrementTtl
  let (foundRoute, route) := r.search dgram.header.dst
  if foundRoute then
    match route.nextHop with
    | some nextHop => r.sendOn route.interfaceNum dgram nextHop
    | none => r.sendOn route.interfaceNum dgram dgram.header.dst
  else .ok r

/-- The `datagrams_out()` of an interface. -/
def queue (r : Router) (i : Nat) : List IPv4Datagram :=
  match r.interfaces[i]? with
  | none => []
  | some a => a.datagramsOut

/-- The router with another `datagrams_out()` of an interface. -/
def setQueue (r : Router) (i : Nat) (dgrams : List IPv4Datagram) : Router :=
  match r.interfaces[i]? with
  | none => r
  | some a => r.setInterface i { a with datagramsOut := dgrams }

/-- The inner loop of `route`; as many passes are enough as there are datagrams
    (`Calm.drain`).  At a throw the datagram at the front has lost one of its `ttl`. -/
def drain (i : Nat) : Nat → Router → Except Exn Unit × Router
  | 0, r => (.ok (), r)
  | fuel + 1, r =>
      match r.queue i with
      | [] => (.ok (), r)
      | dgram :: dgrams =>
          match r.routeOneDatagram dgram with
          | .error e => (.error e, r.setQueue i (dgram.decrementTtl :: dgrams))
          | .ok r => drain i fuel (r.setQueue i (r.queue i).tail)

/-- The outer loop of `route`, over the interfaces in the list. -/
def routeAll : List Nat → Router → Except Exn Unit × Router
  | [], r => (.ok (), r)
  | i :: rest, r =>
      match drain i (r.queue i).length r with
      | (.error e, r) => (.error e, r)
      | (.ok (), r) => routeAll rest r

/-- `route()` -/
def route (r : Router) : Except Exn Unit × Router := routeAll (List.range r.interfaces.length) r

end Router

end Sponge
