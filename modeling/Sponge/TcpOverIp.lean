/-
  Sponge.TcpOverIp

  TCP segments in IPv4 datagrams (`tcp_over_ip.hh`, `tcp_over_ip.cc`, with
  `FdAdapterBase` of `fd_adapter.hh` and `FdAdapterConfig` of `tcp_config.hh`).

  The adapter wraps what the connection sends and filters what comes in.  The two sides
  of a tunnel take the pseudo-header checksum from different objects, one before and one
  after the trip through IPv4; the round trips of the two codecs make them agree
  (`tunnelAgreement_of_mirrored`).  A listening adapter takes its peer from the first SYN
  it accepts.  `Unwraps` says what a call can do, and that a whole run has one peer
  (`onePeer_run`) follows from it.

  An `Address` is its IPv4 number and its port, so the conversions through dotted strings
  in `unwrap_tcp_in_ip` are taken to be faithful.
-/

import Sponge.Ipv4.Codec
import Sponge.TcpSegment.Codec

namespace Sponge

/-- `Address`, by its `ipv4_numeric()` and its `port()`. -/
structure Endpoint where
  ipv4Numeric : UInt32 := 0
  port : UInt16 := 0
deriving DecidableEq, Repr

/-- `FdAdapterConfig` -/
structure FdAdapterConfig where
  source : Endpoint := {}
  destination : Endpoint := {}
  lossRateDn : UInt16 := 0
  lossRateUp : UInt16 := 0
deriving DecidableEq, Repr

/-- `TCPOverIPv4Adapter`, with what it has from `FdAdapterBase`. -/
structure TCPOverIPv4Adapter where
  config : FdAdapterConfig := {}
  listening : Bool := false
deriving DecidableEq, Repr

/-- `IPv4Header::PROTO_TCP` -/
def IPv4Header.protoTcp : UInt8 := 6

namespace TCPOverIPv4Adapter

/-- The peer and the own address are taken from a datagram and the segment in it. -/
def connectTo (a : TCPOverIPv4Adapter) (dgram : IPv4Datagram) (seg : TCPSegment) :
    TCPOverIPv4Adapter where
  config := { a.config with
    source := ⟨dgram.header.dst, a.config.source.port⟩
    destination := ⟨dgram.header.src, seg.header.sport⟩ }
  listening := false

/-- The end of `unwrap_tcp_in_ip`: is the TCP segment from our peer? -/
def fromPeer (a : TCPOverIPv4Adapter) (seg : TCPSegment) :
    Except Exn (Option TCPSegment) × TCPOverIPv4Adapter :=
  if seg.header.sport ≠ a.config.destination.port then (.ok none, a) else (.ok (some seg), a)

/-- `unwrap_tcp_in_ip(ip_dgram)` once the payload was parsed. -/
def unwrapSegment (a : TCPOverIPv4Adapter) (dgram : IPv4Datagram) (seg : TCPSegment) :
    Except Exn (Option TCPSegment) × TCPOverIPv4Adapter :=
  -- is the TCP segment for us?
  if seg.header.dport ≠ a.config.source.port then (.ok none, a) else
  -- should we target this source addr/port in reply?
  if a.listening then
    if seg.header.syn ∧ ¬ seg.header.rst then (a.connectTo dgram seg).fromPeer seg
    else (.ok none, a)
  else a.fromPeer seg

/-- `unwrap_tcp_in_ip(ip_dgram)`: what it returns or throws, and the adapter after it. -/
def unwrapTcpInIp (a : TCPOverIPv4Adapter) (dgram : IPv4Datagram) :
    Except Exn (Option TCPSegment) × TCPOverIPv4Adapter :=
  -- is the IPv4 datagram for us?
  if ¬ a.listening ∧ dgram.header.dst ≠ a.config.source.ipv4Numeric then (.ok none, a) else
  -- is the IPv4 datagram from our peer?
  if ¬ a.listening ∧ dgram.header.src ≠ a.config.destination.ipv4Numeric then (.ok none, a) else
  -- does the IPv4 datagram claim that its payload is a TCP segment?
  if dgram.header.proto ≠ IPv4Header.protoTcp then (.ok none, a) else
  -- is the payload a valid TCP segment?
  match dgram.payload.toBuffer with
  | .error e => (.error e, a)
  | .ok buffer =>
      let (result, seg) := ({} : TCPSegment).parse buffer dgram.header.pseudoCksum
      if result ≠ .noError then (.ok none, a) else a.unwrapSegment dgram seg

/-- The segment with the configured port numbers. -/
def setPorts (a : TCPOverIPv4Adapter) (seg : TCPSegment) : TCPSegment :=
  { seg with header := { seg.header with
      sport := a.config.source.port
      dport := a.config.destination.port } }

/-- The header of the datagram that `wrap_tcp_in_ip` creates. -/
def wrapHeader (a : TCPOverIPv4Adapter) (seg : TCPSegment) : IPv4Header :=
  let header : IPv4Header :=
    { src := a.config.source.ipv4Numeric, dst := a.config.destination.ipv4Numeric }
  { header with
    len := UInt16.ofNat (header.hlen.toNat * 4 + seg.header.doff.toNat * 4 + seg.payload.length) }

/-- `wrap_tcp_in_ip(seg)`: what it returns or throws, and the segment after it. -/
def wrapTcpInIp (a : TCPOverIPv4Adapter) (seg : TCPSegment) :
    Except Exn IPv4Datagram × TCPSegment :=
  let seg := a.setPorts seg
  let header := a.wrapHeader seg
  ((seg.serialize header.pseudoCksum).map fun payload => { header, payload }, seg)

-- ============================================================================
-- What a call can do
-- ============================================================================

/-- The segment a call returned, if it returned one. -/
def segmentOf : Except Exn (Option TCPSegment) → Option TCPSegment
  | .ok seg => seg
  | .error _ => none

/-- What a call of `unwrap_tcp_in_ip` does. -/
inductive Unwraps (a : TCPOverIPv4Adapter) (dgram : IPv4Datagram) :
    Except Exn (Option TCPSegment) × TCPOverIPv4Adapter → Prop
  /-- no segment is returned, and nothing changes -/
  | refused (result : Except Exn (Option TCPSegment)) :
      segmentOf result = none → Unwraps a dgram (result, a)
  /-- the segment is from the configured peer -/
  | accepted (seg : TCPSegment) :
      a.listening = false → dgram.header.dst = a.config.source.ipv4Numeric →
      dgram.header.src = a.config.destination.ipv4Numeric →
      seg.header.dport = a.config.source.port → seg.header.sport = a.config.destination.port →
      Unwraps a dgram (.ok (some seg), a)
  /-- the segment is a SYN, and its sender becomes the peer -/
  | connected (seg : TCPSegment) :
      a.listening = true → seg.header.syn = true → seg.header.rst = false →
      seg.header.dport = a.config.source.port →
      Unwraps a dgram (.ok (some seg), a.connectTo dgram seg)

theorem unwrapSegment_cases {a : TCPOverIPv4Adapter} {dgram : IPv4Datagram}
    (hdst : a.listening = false → dgram.header.dst = a.config.source.ipv4Numeric)
    (hsrc : a.listening = false → dgram.header.src = a.config.destination.ipv4Numeric)
    (seg : TCPSegment) : a.Unwraps dgram (a.unwrapSegment dgram seg) := by
  unfold unwrapSegment
  split
  · exact .refused _ rfl
  · next hdport =>
      have hdport := not_not.mp hdport
      split
      · next hlisten =>
          split
          · next hsyn =>
              -- the peer's port was just taken from the segment
              have hpeer : (a.connectTo dgram seg).fromPeer seg =
                  (.ok (some seg), a.connectTo dgram seg) := if_neg (not_not.mpr rfl)
              rw [hpeer]
              exact .connected seg hlisten hsyn.1 (by simpa using hsyn.2) hdport
          · exact .refused _ rfl
      · next hlisten =>
          have hlisten : a.listening = false := by simpa using hlisten
          unfold fromPeer
          split
          · exact .refused _ rfl
          · next hsport =>
              exact .accepted seg hlisten (hdst hlisten) (hsrc hlisten) hdport
                (not_not.mp hsport)

theorem unwrapTcpInIp_cases (a : TCPOverIPv4Adapter) (dgram : IPv4Datagram) :
    a.Unwraps dgram (a.unwrapTcpInIp dgram) := by
  unfold unwrapTcpInIp
  split
  · exact .refused _ rfl
  · next hdst =>
      split
      · exact .refused _ rfl
      · next hsrc =>
          split
          · exact .refused _ rfl
          · split
            · exact .refused _ rfl
            · dsimp only
              split
              · exact .refused _ rfl
              · exact unwrapSegment_cases (by simpa using hdst) (by simpa using hsrc) _

-- ============================================================================
-- One peer
-- ============================================================================

/-- Where a segment comes from and where it goes, by the headers it came in. -/
def fourTuple (dgram : IPv4Datagram) (seg : TCPSegment) : Endpoint × Endpoint :=
  (⟨dgram.header.src, seg.header.sport⟩, ⟨dgram.header.dst, seg.header.dport⟩)

/-- An adapter, and the segments it has returned with the datagrams they came in. -/
structure Trace where
  adapter : TCPOverIPv4Adapter
  returned : List (IPv4Datagram × TCPSegment) := []

namespace Trace

/-- One call of `unwrap_tcp_in_ip`. -/
def step (t : Trace) (dgram : IPv4Datagram) : Trace where
  adapter := (t.adapter.unwrapTcpInIp dgram).2
  returned := t.returned ++
    (segmentOf (t.adapter.unwrapTcpInIp dgram).1).toList.map fun seg => (dgram, seg)

/-- The calls for a sequence of datagrams, on the adapter `a`. -/
def run (a : TCPOverIPv4Adapter) (dgrams : List IPv4Datagram) : Trace :=
  dgrams.foldl step { adapter := a }

/-- What is guaranteed of an adapter that started as `a₀`. -/
structure OnePeer (a₀ : TCPOverIPv4Adapter) (t : Trace) : Prop where
  /-- All segments returned have the same four-tuple. -/
  same : ∀ x ∈ t.returned, ∀ y ∈ t.returned, fourTuple x.1 x.2 = fourTuple y.1 y.2
  /-- If the adapter was listening, the first of them is a SYN, and its four-tuple is in
      the configuration. -/
  first : a₀.listening = true → ∀ x, t.returned.head? = some x →
    x.2.header.syn = true ∧ x.2.header.rst = false ∧
      fourTuple x.1 x.2 = (t.adapter.config.destination, t.adapter.config.source)
  /-- The next call does not make it listen again. -/
  stays : ∀ dgram, (t.adapter.unwrapTcpInIp dgram).2.listening = true →
    t.adapter.listening = true
  /-- The next call changes nothing if it returns no segment. -/
  unchanged : ∀ dgram, segmentOf (t.adapter.unwrapTcpInIp dgram).1 = none →
    (t.adapter.unwrapTcpInIp dgram).2 = t.adapter

/-- While the adapter listens it has returned nothing; from then on all it returns is
    from the peer in its configuration. -/
structure PeerInv (a₀ : TCPOverIPv4Adapter) (t : Trace) : Prop where
  silent : t.adapter.listening = true → t.returned = []
  peer : ∀ x ∈ t.returned,
    fourTuple x.1 x.2 = (t.adapter.config.destination, t.adapter.config.source)
  first : a₀.listening = true → t.adapter.listening = true ∨
    ∃ x, t.returned.head? = some x ∧ x.2.header.syn = true ∧ x.2.header.rst = false

theorem peerInv_start (a : TCPOverIPv4Adapter) : PeerInv a { adapter := a } where
  silent _ := rfl
  peer _ hx := absurd hx List.not_mem_nil
  first := Or.inl

theorem PeerInv.step {a₀ : TCPOverIPv4Adapter} {t : Trace} (h : PeerInv a₀ t)
    (dgram : IPv4Datagram) : PeerInv a₀ (t.step dgram) := by
  have hcase := unwrapTcpInIp_cases t.adapter dgram
  unfold Trace.step
  generalize t.adapter.unwrapTcpInIp dgram = r at hcase ⊢
  cases hcase with
  | refused result hnone =>
      simp only [hnone, Option.toList_none, List.map_nil, List.append_nil]
      exact h
  | accepted seg hlisten hdst hsrc hdport hsport =>
      simp only [segmentOf, Option.toList_some, List.map_cons, List.map_nil]
      refine ⟨fun hl => absurd hl (by simp [hlisten]), ?_, fun h₀ => ?_⟩
      · intro x hx
        obtain hx | hx := List.mem_append.mp hx
        · exact h.peer x hx
        · obtain rfl := List.mem_singleton.mp hx
          simp only [fourTuple, hdst, hsrc, hdport, hsport]
      · obtain hl | ⟨x, hx, hsyn⟩ := h.first h₀
        · exact absurd hl (by simp [hlisten])
        · refine Or.inr ⟨x, ?_, hsyn⟩
          rw [List.head?_append, hx]
          rfl
  | connected seg hlisten hsyn hrst hdport =>
      simp only [segmentOf, Option.toList_some, List.map_cons, List.map_nil, h.silent hlisten,
        List.nil_append]
      refine ⟨nofun, ?_, fun _ => Or.inr ⟨_, rfl, hsyn, hrst⟩⟩
      intro x hx
      obtain rfl := List.mem_singleton.mp hx
      simp only [fourTuple, connectTo, hdport]

theorem peerInv_run (a : TCPOverIPv4Adapter) (dgrams : List IPv4Datagram) :
    PeerInv a (run a dgrams) :=
  List.foldlRecOn dgrams step (peerInv_start a) fun _ ht dgram _ => ht.step dgram

/-- Whatever datagrams it is given, an adapter has one peer. -/
theorem onePeer_run (a : TCPOverIPv4Adapter) (dgrams : List IPv4Datagram) :
    OnePeer a (run a dgrams) := by
  have hinv := peerInv_run a dgrams
  refine ⟨?_, ?_, ?_, ?_⟩
  · intro x hx y hy
    rw [hinv.peer x hx, hinv.peer y hy]
  · intro h₀ x hx
    have hpeer := hinv.peer x (List.mem_of_head? hx)
    obtain hl | ⟨y, hy, hsyn, hrst⟩ := hinv.first h₀
    · rw [hinv.silent hl] at hx
      cases hx
    · obtain rfl := Option.some.inj (hx.symm.trans hy)
      exact ⟨hsyn, hrst, hpeer⟩
  · intro dgram hl
    have hcase := unwrapTcpInIp_cases (run a dgrams).adapter dgram
    generalize (run a dgrams).adapter.unwrapTcpInIp dgram = r at hcase hl
    cases hcase with
    | refused _ _ => exact hl
    | accepted _ _ _ _ _ _ => exact hl
    | connected _ hlisten _ _ _ => exact hlisten
  · intro dgram hnone
    have hcase := unwrapTcpInIp_cases (run a dgrams).adapter dgram
    generalize (run a dgrams).adapter.unwrapTcpInIp dgram = r at hcase hnone
    cases hcase with
    | refused _ _ => rfl
    | accepted _ _ _ _ _ _ => cases hnone
    | connected _ _ _ _ _ => cases hnone

end Trace

-- ============================================================================
-- Both ends of a tunnel
-- ============================================================================

/-- Each adapter's source is the other's destination, and neither is listening. -/
structure Mirrored (a b : TCPOverIPv4Adapter) : Prop where
  source_eq : a.config.source = b.config.destination
  destination_eq : a.config.destination = b.config.source
  left : a.listening = false
  right : b.listening = false

/-- What comes out at the far end: the segment with the configured ports and the
    checksum computed for them. -/
def delivered (a : TCPOverIPv4Adapter) (seg : TCPSegment) : TCPSegment :=
  (a.setPorts seg).setCksum
    ((a.setPorts seg).computedCksum (a.wrapHeader (a.setPorts seg)).pseudoCksum)

/-- What `a` makes of the segment serializes, is accepted as a datagram by whoever parses
    it, and is delivered by `b`, which stays as it is. -/
def TunnelAgreement (a b : TCPOverIPv4Adapter) (seg : TCPSegment) : Prop :=
  ∃ (dgram : IPv4Datagram) (buffers : BufferList),
    (a.wrapTcpInIp seg).1 = .ok dgram ∧ dgram.serialize = .ok buffers ∧
    ∀ d₀ : IPv4Datagram, ∃ dgram' : IPv4Datagram,
      d₀.parse buffers.flatten = (.noError, dgram') ∧
      b.unwrapTcpInIp dgram' = (.ok (some (a.delivered seg)), b)

section

variable {a b : TCPOverIPv4Adapter} {seg : TCPSegment}

/-- The datagram that `wrap_tcp_in_ip` returns. -/
def wrapped (a : TCPOverIPv4Adapter) (seg : TCPSegment) : IPv4Datagram where
  header := a.wrapHeader (a.setPorts seg)
  payload := [(a.delivered seg).header.wire, seg.payload]

theorem wrapTcpInIp_eq (h : (a.setPorts seg).Encodable) :
    (a.wrapTcpInIp seg).1 = .ok (a.wrapped seg) := by
  simp only [wrapTcpInIp, TCPSegment.serialize_eq h]
  rfl

/-- The length fields of the two layers agree. -/
theorem wrapped_encodable (h : (a.setPorts seg).Encodable)
    (hsize : 20 + 4 * seg.header.doff.toNat + seg.payload.length ≤ 65535) :
    (a.wrapped seg).Encodable where
  header := ⟨rfl, Nat.le_refl 5, by show 5 ≤ 15; omega, by show 0 < 2 ^ 13; omega⟩
  len_eq := by
    have hlen : (a.delivered seg).header.wire.length = 4 * seg.header.doff.toNat :=
      TCPHeader.wire_length h.doff_ge
    have hpayload : (a.wrapped seg).payload.size =
        4 * seg.header.doff.toNat + seg.payload.length := by
      simp [wrapped, BufferList.size, hlen]
    rw [hpayload]
    show (UInt16.ofNat (20 + seg.header.doff.toNat * 4 + seg.payload.length)).toNat = _
    rw [UInt16.toNat_ofNat_of_lt' (by show _ < 65536; omega)]
    show _ = 20 + _
    omega

/-- The far end's parse of the TCP segment: the pseudo-header sum of the datagram it got
    is that of the datagram that was sent. -/
theorem parse_delivered (h : (a.setPorts seg).Encodable) :
    ({} : TCPSegment).parse (a.wrapped seg).payload.flatten
      (a.wrapped seg).headerOut.pseudoCksum = (.noError, a.delivered seg) := by
  have hpseudo : PseudoSum (a.wrapHeader (a.setPorts seg)).pseudoCksum := Or.inr ⟨_, rfl⟩
  have hbytes : (a.wrapped seg).payload.flatten = (a.delivered seg).wire := by
    simp [wrapped, TCPSegment.wire]
    rfl
  rw [hbytes, IPv4Datagram.pseudoCksum_headerOut]
  exact TCPSegment.parse_wire {} (h.setCksum _) hpseudo (TCPSegment.checksum_wire h hpseudo)

/-- The far end's filters let the segment through. -/
theorem unwrap_wrapped (hm : Mirrored a b) (h : (a.setPorts seg).Encodable) :
    b.unwrapTcpInIp ⟨(a.wrapped seg).headerOut, [(a.wrapped seg).payload.flatten]⟩ =
      (.ok (some (a.delivered seg)), b) := by
  have hdst : (a.wrapped seg).headerOut.dst = b.config.source.ipv4Numeric :=
    congrArg Endpoint.ipv4Numeric hm.destination_eq
  have hsrc : (a.wrapped seg).headerOut.src = b.config.destination.ipv4Numeric :=
    congrArg Endpoint.ipv4Numeric hm.source_eq
  have hproto : (a.wrapped seg).headerOut.proto = IPv4Header.protoTcp := rfl
  have hdport : (a.delivered seg).header.dport = b.config.source.port :=
    congrArg Endpoint.port hm.destination_eq
  have hsport : (a.delivered seg).header.sport = b.config.destination.port :=
    congrArg Endpoint.port hm.source_eq
  simp only [unwrapTcpInIp, hdst, hsrc, hproto, BufferList.toBuffer, parse_delivered h,
    unwrapSegment, hdport, hm.right, fromPeer, hsport]
  simp

/-- Between mirrored adapters every segment that fits in a datagram arrives. -/
theorem tunnelAgreement_of_mirrored (a b : TCPOverIPv4Adapter) (seg : TCPSegment)
    (hm : Mirrored a b)
    (hdoff : 5 ≤ seg.header.doff.toNat ∧ seg.header.doff.toNat ≤ 15)
    (hsize : 20 + 4 * seg.header.doff.toNat + seg.payload.length ≤ 65535) :
    TunnelAgreement a b seg := by
  have h : (a.setPorts seg).Encodable :=
    ⟨hdoff.1, hdoff.2, by show 4 * seg.header.doff.toNat + seg.payload.length ≤ 65535; omega⟩
  have hencodable := wrapped_encodable h hsize
  refine ⟨a.wrapped seg, _, wrapTcpInIp_eq h, IPv4Datagram.serialize_eq hencodable,
    fun d₀ => ?_⟩
  exact ⟨_, IPv4Datagram.parse_wire d₀ hencodable, unwrap_wrapped hm h⟩

end

/-- The two ends of a tunnel between 10.0.0.1:1024 and 10.0.0.2:80. -/
def nearEnd : TCPOverIPv4Adapter where
  config := { source := ⟨0x0a000001, 1024⟩, destination := ⟨0x0a000002, 80⟩ }

def farEnd : TCPOverIPv4Adapter where
  config := { source := ⟨0x0a000002, 80⟩, destination := ⟨0x0a000001, 1024⟩ }

theorem tunnelAgreement_of_mirrored_syn :
    Mirrored nearEnd farEnd ∧ TunnelAgreement nearEnd farEnd ⟨{ syn := true }, [1, 2, 3]⟩ :=
  have hm : Mirrored nearEnd farEnd := ⟨rfl, rfl, rfl, rfl⟩
  ⟨hm, tunnelAgreement_of_mirrored nearEnd farEnd _ hm (by decide) (by decide)⟩

end TCPOverIPv4Adapter

end Sponge
