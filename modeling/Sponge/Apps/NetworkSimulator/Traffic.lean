/-
  Sponge.Apps.NetworkSimulator.Traffic

  The tests of the simulator do not fail.

  A host behind the router sends a datagram, and the network is simulated.  The datagram
  comes out where the table of the router leads it, with its `ttl` lowered by one and
  nothing else changed but the checksum; if the `ttl` has run out or there is no route,
  it comes out nowhere (`traffic_delivers`).  So every sequence of tests that expect this
  passes (`runs_tests`), and with it the one that the program makes
  (`networkSimulator_passes`).
-/

import Mathlib.Data.Nat.Digits.Defs
import Sponge.Apps.NetworkSimulator.Layout

namespace Sponge

-- ============================================================================
-- Datagrams
-- ============================================================================

namespace IPv4Datagram

variable {d : IPv4Datagram}

theorem Encodable.arrived (h : d.Encodable) : d.arrived.Encodable where
  header := h.header.setCksum _
  len_eq := by
    have hsize : BufferList.size [d.payload.flatten] = d.payload.size := by
      rw [← length_flatten_payload, ← length_flatten_payload, List.flatten_singleton]
    exact h.len_eq.trans (by rw [← hsize]; rfl)

theorem Encodable.decrementTtl (h : d.Encodable) : d.decrementTtl.Encodable where
  header := ⟨h.header.ver_eq, h.header.hlen_ge, h.header.hlen_le, h.header.offset_lt⟩
  len_eq := h.len_eq

/-- What comes out of the router has the bytes of what was sent, with a lower `ttl`. -/
theorem wire_forwarded (d : IPv4Datagram) :
    d.arrived.decrementTtl.arrived.wire = d.decrementTtl.wire := by
  have hheader : d.arrived.decrementTtl.arrived.headerOut = d.decrementTtl.headerOut := rfl
  have hpayload : d.arrived.decrementTtl.arrived.payload = [d.payload.flatten] := by
    show [([d.payload.flatten] : BufferList).flatten] = _
    rw [List.flatten_singleton]
  rw [wire, wire, hheader, hpayload, List.flatten_singleton]
  rfl

end IPv4Datagram

namespace Host

theorem sameBytes_of_wire {x y : IPv4Datagram} (hx : x.Encodable) (hy : y.Encodable)
    (h : x.wire = y.wire) : sameBytes x y = .ok true := by
  have hbytes : (x.headerOut.wire :: x.payload).flatten = (y.headerOut.wire :: y.payload).flatten := h
  simp only [sameBytes, IPv4Datagram.serialize_eq hx, IPv4Datagram.serialize_eq hy, bind,
    Except.bind, hbytes, decide_true]
  rfl

theorem randomPayload_length_le (rd : UInt32) : (randomPayload rd).length ≤ 28 := by
  have hdigits : (Nat.repr rd.toNat).length ≤ 10 :=
    Nat.repr_length _ 10 (by decide) (Nat.lt_trans rd.toNat_lt (by decide))
  unfold randomPayload textBytes
  rw [List.length_map, String.length_toList, String.length_append, String.length_append]
  show "random payload: \x7b".length + (Nat.repr rd.toNat).length + "\x7d".length ≤ 28
  have hopen : "random payload: \x7b".length = 17 := by decide
  have hclose : "\x7d".length = 1 := by decide
  omega

/-- The datagrams that a host sends can be sent. -/
theorem datagramTo_encodable (h : Host) (destination : Address) (rd : UInt32) (ttl : UInt8) :
    (h.datagramTo destination rd ttl).Encodable where
  header := ⟨rfl, Nat.le_refl 5, show 5 ≤ 15 by decide, show 0 < 2 ^ 13 by decide⟩
  len_eq := by
    have hle := randomPayload_length_le rd
    have hsize : BufferList.size [randomPayload rd] = (randomPayload rd).length := by
      rw [← IPv4Datagram.length_flatten_payload, List.flatten_singleton]
    show ((5 * 4 + BufferList.size [randomPayload rd]).toUInt16).toNat =
      4 * 5 + BufferList.size [randomPayload rd]
    rw [hsize, Nat.toUInt16_eq, UInt16.toNat_ofNat', Nat.mod_eq_of_lt (by omega)]

-- ============================================================================
-- The check of a host
-- ============================================================================

/-- What the host has received is what it expects. -/
def Matched (received expected : List IPv4Datagram) : Prop :=
  received = [] ∧ expected = [] ∨
    ∃ x y, received = [x] ∧ expected = [y] ∧ sameBytes y x = .ok true

theorem check_of_matched {h : Host}
    (hmatched : Matched h.interface.datagramsOut h.expectingToReceive) :
    h.check = .ok { h with
      expectingToReceive := [], interface := { h.interface with datagramsOut := [] } } := by
  unfold check
  rcases hmatched with ⟨hreceived, hexpected⟩ | ⟨x, y, hreceived, hexpected, hsame⟩
  · simp only [hreceived, receiveAll, bind, Except.bind, hexpected, pure, Except.pure]
  · simp only [hreceived, receiveAll, expecting, hexpected, hsame, removeExpectation, bind,
      Except.bind, if_true, pure, Except.pure]

end Host

namespace Network

open Host (Matched)

variable {W : Plan} {net₀ net : Network} {out : Place → List IPv4Datagram}
  {expected : String → List IPv4Datagram} {frames : Place → List EthernetFrame}
  {held : Place → Address → List IPv4Datagram} {t : Transfer} {c : Cable} {phase : Phase}

/-- A host is told what to expect. -/
theorem Snapshot.expect (h : Snapshot W net₀ frames held out expected net) {name : String}
    {host : Host} (hlookup : net.hosts.lookup name = some host) (dgram : IPv4Datagram) :
    Snapshot W net₀ frames held out
      (Function.update expected name (expected name ++ [dgram]))
      (net.setHost name (host.expect dgram)) := by
  refine ⟨h.alike.trans (alike_setHost hlookup rfl), fun p hp => ?_, fun name' l hl => ?_⟩
  · obtain ⟨a, hstation, ha⟩ := h.stations p hp
    refine ⟨a, ?_, ha⟩
    rw [station_setHost]
    split
    · next heq =>
        subst heq
        rw [station, hlookup] at hstation
        exact hstation
    · exact hstation
  · have hawaits : net.awaits name = some host.expectingToReceive := by
      rw [Network.awaits, hlookup]
      rfl
    rw [awaits_setHost] at hl
    split at hl
    · next heq =>
        subst heq
        rw [Function.update_self, ← h.awaits name' _ hawaits]
        exact (Option.some.inj hl).symm
    · next heq =>
        rw [Function.update_of_ne heq]
        exact h.awaits _ _ hl

/-- A host is checked. -/
theorem Rest.check (h : Rest W net₀ out expected net) {name : String} {host : Host} (hlookup : net.hosts.lookup name = some host)
    (hplace : .host name ∈ W.places) (hmatched : Matched (out (.host name)) (expected name)) :
    ∃ host', host.check = .ok host' ∧
      Rest W net₀ (Function.update out (.host name) []) (Function.update expected name [])
        (net.setHost name host') := by
  obtain ⟨a, hstation, ha⟩ := h.stations _ hplace
  obtain rfl : host.interface = a := by
    rw [station, hlookup] at hstation
    exact Option.some.inj hstation
  have hawaits : net.awaits name = some host.expectingToReceive := by
    rw [Network.awaits, hlookup]
    rfl
  rw [← ha.datagramsOut, ← h.awaits _ _ hawaits] at hmatched
  refine ⟨_, Host.check_of_matched hmatched, h.alike.trans (alike_setHost hlookup rfl),
    fun p hp => ?_, fun name' l hl => ?_⟩
  · rw [station_setHost]
    split
    · next heq =>
        subst heq
        rw [Function.update_self]
        exact ⟨_, rfl, ha.ethernetAddress, ha.ipAddress, ha.framesOut, ha.pending, ha.serializes, rfl,
          ha.truthful, ha.answered⟩
    · next heq =>
        rw [Function.update_of_ne heq]
        exact h.stations p hp
  · rw [awaits_setHost] at hl
    split at hl
    · next heq =>
        subst heq
        rw [Function.update_self]
        exact (Option.some.inj hl).symm
    · next heq =>
        rw [Function.update_of_ne heq]
        exact h.awaits _ _ hl

/-- All hosts of a list are checked. -/
theorem Rest.checkAll (hfits : Fits W net₀) {names : List String}
    (hnames : ∀ name ∈ names, ∃ host, net₀.hosts.lookup name = some host)
    (hmatched : ∀ name, Matched (out (.host name)) (expected name))
    (h : Rest W net₀ out expected net) :
    ∃ net' out' expected', net.checkAll names = .ok net' ∧ Rest W net₀ out' expected' net' ∧
      (∀ i, out' (.router i) = out (.router i)) ∧
      ∀ name, name ∈ names ∨ out (.host name) = [] ∧ expected name = [] →
        out' (.host name) = [] ∧ expected' name = [] := by
  induction names generalizing net out expected with
  | nil => exact ⟨net, out, expected, rfl, h, fun _ => rfl, by simp⟩
  | cons name names ih =>
      obtain ⟨⟨host₀, hlookup₀⟩, hnames⟩ := List.forall_mem_cons.mp hnames
      obtain ⟨host, hlookup, -⟩ : ∃ host, net.hosts.lookup name = some host ∧ _ := by
        have hsettings := h.alike.hosts name
        rw [hlookup₀, Option.map_some] at hsettings
        exact Option.map_eq_some_iff.mp hsettings
      obtain ⟨host', hcheck, h₁⟩ :=
        Rest.check h hlookup (hfits.hosts name host₀ hlookup₀) (hmatched name)
      have hmatched₁ : ∀ name', Matched (Function.update out (.host name) [] (.host name'))
          (Function.update expected name [] name') := by
        intro name'
        by_cases heq : name' = name
        · subst heq
          rw [Function.update_self, Function.update_self]
          exact Or.inl ⟨rfl, rfl⟩
        · rw [Function.update_of_ne heq, Function.update_of_ne (by simpa using heq)]
          exact hmatched name'
      obtain ⟨net', out', expected', hall, h', hrouters, hclear⟩ := ih hnames hmatched₁ h₁
      refine ⟨net', out', expected', ?_, h', ?_, ?_⟩
      · rw [Network.checkAll, hlookup]
        simp only [hcheck, bind, Except.bind]
        exact hall
      · intro i
        rw [hrouters, Function.update_of_ne (by simp)]
      · intro name' hname'
        by_cases heq : name' = name
        · subst heq
          exact hclear name' (Or.inr ⟨Function.update_self .., Function.update_self ..⟩)
        · refine hclear name' (hname'.imp (fun hmem => (List.mem_cons.mp hmem).resolve_left heq) ?_)
          rw [Function.update_of_ne heq, Function.update_of_ne (by simpa using heq)]
          exact id

/-- After the check of all hosts nothing is left. -/
theorem Rest.checked (hfits : Fits W net₀) (hquiet : ∀ i, out (.router i) = [])
    (hmatched : ∀ name, Matched (out (.host name)) (expected name))
    (h : Rest W net₀ out expected net) :
    ∃ net', net.checkAll net.hosts.keys = .ok net' ∧
      Rest W net₀ (fun _ => []) (fun _ => []) net' := by
  have hknown : ∀ {net : Network}, Alike net₀ net → ∀ name, name ∈ net.hosts.keys ↔
      ∃ host, net₀.hosts.lookup name = some host := by
    intro net halike name
    rw [← AList.mem_keys, ← AList.lookup_isSome, ← Option.isSome_map, halike.hosts name,
      Option.isSome_map, Option.isSome_iff_exists]
  obtain ⟨net', out', expected', hall, h', hrouters, hclear⟩ :=
    Rest.checkAll hfits (fun name hname => (hknown h.alike name).mp hname) hmatched h
  have hcleared : ∀ name, (∃ host, net'.hosts.lookup name = some host) →
      out' (.host name) = [] ∧ expected' name = [] := by
    rintro name ⟨host, hlookup⟩
    have hkey : name ∈ net'.hosts.keys :=
      AList.mem_keys.mp (AList.lookup_isSome.mp (by rw [hlookup]; rfl))
    exact hclear name (Or.inl ((hknown h.alike name).mpr ((hknown h'.alike name).mp hkey)))
  refine ⟨net', hall, h'.alike, fun p hp => ?_, fun name l hl => ?_⟩
  · obtain ⟨a, hstation, ha⟩ := h'.stations p hp
    have hout : out' p = [] := by
      cases p with
      | router i => rw [hrouters, hquiet]
      | host name =>
          obtain ⟨host, hlookup, -⟩ := Option.map_eq_some_iff.mp hstation
          exact (hcleared name ⟨host, hlookup⟩).1
    rw [hout] at ha
    exact ⟨a, hstation, ha⟩
  · obtain ⟨host, hlookup, -⟩ := Option.map_eq_some_iff.mp hl
    rw [h'.awaits name l hl]
    exact (hcleared name ⟨host, hlookup⟩).2

-- ============================================================================
-- Traffic
-- ============================================================================

/-- What the hosts expect of a datagram with this fate. -/
def expectedOf (dgram : IPv4Datagram) : Option String → String → List IPv4Datagram
  | none => fun _ => []
  | some receiver => Function.update (fun _ => []) receiver [dgram.decrementTtl]

/-- What is received of a datagram with this fate. -/
def receivedOf (dgram : IPv4Datagram) : Option String → Place → List IPv4Datagram
  | none => fun _ => []
  | some receiver =>
      Function.update (fun _ => []) (.host receiver) [dgram.arrived.decrementTtl.arrived]

theorem receivedOf_router (dgram : IPv4Datagram) (receiver : Option String) (i : Nat) :
    receivedOf dgram receiver (.router i) = [] := by
  cases receiver with
  | none => rfl
  | some receiver =>
      have hne : Place.router i ≠ .host receiver := by simp
      rw [receivedOf, Function.update_of_ne hne]

/-- Six passes are enough for a datagram that is on its way to the router. -/
theorem rounds_fate (hfits : Fits W net₀) (ht : t.On W c) {i : Nat} (hy : t.y = .router i)
    {receiver : Option String} (hphase : phase ≠ .done)
    (hfate : Fate W net₀ t.dgram.header.dst t.dgram.header.ttl receiver)
    (h : Underway W net₀ t phase (fun _ => []) expected net) {n : Nat} (hn : 6 ≤ n) :
    ∃ net', rounds W.cables n net = .ok net' ∧
      Rest W net₀ (receivedOf t.dgram receiver) expected net' := by
  have hi : i < net₀.router.interfaces.length := by
    obtain ⟨a, hstation, -⟩ := h.stations t.y (hfits.proper.placed c ht.cable _ ht.y_mem)
    rw [hy] at hstation
    rw [← h.alike.count]
    exact (List.getElem?_eq_some_iff.mp hstation).1
  have hleft : ∀ phase : Phase, phase.left ≤ 3 := by
    intro phase
    cases phase <;> decide
  have hleft₁ := hleft phase
  -- the first cable
  obtain ⟨net₁, hrounds₁, h₁⟩ := rounds_transfer hfits ht (fun _ => rfl) h hphase (n - phase.left)
  rw [Nat.sub_add_cancel (by omega)] at hrounds₁
  rw [hy, List.nil_append] at h₁
  generalize hout₁ : Function.update (fun _ => []) (Place.router i) [t.dgram.arrived] = out₁ at h₁
  have hout : out₁ (.router i) = [t.dgram.arrived] := by rw [← hout₁, Function.update_self]
  have hothers : ∀ p, p ≠ .router i → out₁ p = [] := by
    intro p hne
    rw [← hout₁, Function.update_of_ne hne]
  have hempty : Function.update out₁ (.router i) [] = fun _ => [] := by
    funext p
    by_cases heq : p = .router i
    · rw [heq, Function.update_self]
    · rw [Function.update_of_ne heq, hothers p heq]
  cases hfate with
  | dropped hdrop =>
      obtain ⟨net₂, hroute, h₂⟩ := Rest.route_drop h₁ hfits hi hout
        (fun j hne => hothers _ (by simpa using hne)) hdrop
      rw [hempty] at h₂
      obtain ⟨net', hrest, h'⟩ := rounds_rest hfits (fun _ => rfl) (n - phase.left) h₂
      refine ⟨net', ?_, h'⟩
      -- the next pass goes on as if there had been nothing
      rw [← hrest, hrounds₁, show n - phase.left = n - phase.left - 1 + 1 by omega, rounds, rounds,
        hroute, Snapshot.route_idle h₂ hfits fun _ => rfl]
  | @delivered found receiver httl hsearch hmates hhop =>
      -- the second cable
      obtain ⟨c₂, hc₂, hx₂, hy₂⟩ := hmates
      have ht₂ : Transfer.On W ⟨.router found.interfaceNum, .host receiver,
          t.dgram.arrived.decrementTtl⟩ c₂ :=
        ⟨hc₂, hx₂, hy₂, by simp, ht.encodable.arrived.decrementTtl⟩
      obtain ⟨net₂, phase₂, hroute, hphase₂, h₂⟩ := Rest.route_forward
        (t := ⟨.router found.interfaceNum, .host receiver, t.dgram.arrived.decrementTtl⟩) h₁ hfits hi
        hout (fun j hne => hothers _ (by simpa using hne)) httl hsearch rfl rfl hhop ht₂
      rw [hempty] at h₂
      have hleft₂ := hleft phase₂
      obtain ⟨net₃, hrounds₃, h₃⟩ := rounds_forward hfits ht₂ (fun _ => rfl) hroute h₂ hphase₂
        (n - phase.left - phase₂.left)
      rw [Nat.sub_add_cancel (by omega)] at hrounds₃
      obtain ⟨net', hrest, h'⟩ := rounds_rest hfits (receivedOf_router t.dgram (some receiver))
        (n - phase.left - phase₂.left) h₃
      exact ⟨net', hrounds₁.trans (hrounds₃.trans hrest), h'⟩

/-- What comes out is what is expected. -/
theorem matched_fate (h : t.dgram.Encodable) (receiver : Option String) (name : String) :
    Matched (receivedOf t.dgram receiver (.host name)) (expectedOf t.dgram receiver name) := by
  cases receiver with
  | none => exact Or.inl ⟨rfl, rfl⟩
  | some receiver =>
      rw [receivedOf, expectedOf]
      by_cases heq : name = receiver
      · subst heq
        rw [Function.update_self, Function.update_self]
        have hsame := Host.sameBytes_of_wire h.decrementTtl h.arrived.decrementTtl.arrived
          (IPv4Datagram.wire_forwarded _).symm
        exact Or.inr ⟨_, _, rfl, rfl, hsame⟩
      · rw [Function.update_of_ne heq, Function.update_of_ne (by simpa using heq)]
        exact Or.inl ⟨rfl, rfl⟩

theorem simulateOn_ok (hfits : Fits W net₀) (ht : t.On W c) {i : Nat} (hy : t.y = .router i)
    {receiver : Option String} (hphase : phase ≠ .done)
    (hfate : Fate W net₀ t.dgram.header.dst t.dgram.header.ttl receiver)
    (h : Underway W net₀ t phase (fun _ => []) (expectedOf t.dgram receiver) net) :
    ∃ net', net.simulateOn W.cables = .ok net' ∧
      Rest W net₀ (fun _ => []) (fun _ => []) net' := by
  obtain ⟨net₁, hrounds, h₁⟩ := rounds_fate hfits ht hy hphase hfate h (n := 256) (by decide)
  obtain ⟨net', hchecked, h'⟩ := Rest.checked hfits (receivedOf_router t.dgram receiver)
    (matched_fate ht.encodable receiver) h₁
  refine ⟨net', ?_, h'⟩
  rw [simulateOn, hrounds]
  exact hchecked

/-- A host behind the router sends a datagram. -/
theorem sendTo_underway (hfits : Fits W net₀) {source : String} (hsource : Behind W net₀ source)
    (destination : Address) (ttl : UInt8) (rd : UInt32) (h : Rest W net₀ out expected net) :
    ∃ host host' i c phase, net.host source = .ok host ∧
      host.sendTo destination rd ttl = .ok (host.datagramTo destination rd ttl, host') ∧
      Transfer.On W ⟨.host source, .router i, host.datagramTo destination rd ttl⟩ c ∧
      phase ≠ .done ∧
      Underway W net₀ ⟨.host source, .router i, host.datagramTo destination rd ttl⟩ phase out expected
        (net.setHost source host') := by
  obtain ⟨host₀, i, hlookup₀, hhop, c, hc, hx, hy⟩ := hsource
  obtain ⟨host, hlookup, hsettings⟩ : ∃ host, net.hosts.lookup source = some host ∧
      host.settings = host₀.settings := by
    have hsettings := h.alike.hosts source
    rw [hlookup₀, Option.map_some] at hsettings
    exact Option.map_eq_some_iff.mp hsettings
  have hnextHop : host.nextHop = W.ip (.router i) :=
    (Prod.mk.inj (Prod.mk.inj hsettings).2).2.trans hhop
  have ht : Transfer.On W ⟨.host source, .router i, host.datagramTo destination rd ttl⟩ c :=
    ⟨hc, hx, hy, by simp, host.datagramTo_encodable destination rd ttl⟩
  obtain ⟨a, n, phase, hstation, hsend, hphase, hunderway⟩ := Rest.starts h hfits ht
  obtain rfl : host.interface = a := by
    have hstation : (net.hosts.lookup source).map Host.interface = some a := hstation
    rw [hlookup] at hstation
    exact Option.some.inj hstation
  have hsent : host.sendTo destination rd ttl = .ok (host.datagramTo destination rd ttl,
      { host with interface := { host.interface with toNetworkInterface := n } }) := by
    rw [Host.sendTo, hnextHop]
    simp only [hsend, bind, Except.bind, pure, Except.pure]
  rw [setInterface, hlookup] at hunderway
  exact ⟨host, _, i, c, phase, host_eq (h.named hfits) hlookup, hsent, ht, hphase, hunderway⟩

/-- A host behind the router sends a datagram, and it comes out where it should. -/
theorem traffic_ok (hfits : Fits W net₀) {source : String} (hsource : Behind W net₀ source)
    {destination : Address} {ttl : UInt8} {receiver : Option String}
    (hfate : Fate W net₀ destination ttl receiver) (rd : UInt32)
    (h : Rest W net₀ (fun _ => []) (fun _ => []) net) :
    ∃ net', net.traffic W.cables source destination receiver rd ttl = .ok net' ∧
      Rest W net₀ (fun _ => []) (fun _ => []) net' := by
  obtain ⟨host, host', i, c, phase, hhost, hsent, ht, hphase, hunderway⟩ :=
    sendTo_underway hfits hsource destination ttl rd h
  unfold traffic
  simp only [hhost, bind, Except.bind, hsent]
  cases receiver with
  | none => exact simulateOn_ok hfits ht rfl hphase hfate hunderway
  | some receiver =>
      have hplace : Place.host receiver ∈ W.places := by
        cases hfate with
        | delivered _ _ hmates _ =>
            obtain ⟨c', hc', -, hy'⟩ := hmates
            exact hfits.proper.placed c' hc' _ hy'
      obtain ⟨b, hb, -⟩ := hunderway.stations _ hplace
      obtain ⟨host'', hlookup, -⟩ := Option.map_eq_some_iff.mp hb
      simp only [host_eq (Snapshot.named hunderway hfits) hlookup]
      exact simulateOn_ok hfits ht rfl hphase hfate (Snapshot.expect hunderway hlookup _)

/-- **Delivery.**  A network that fits a plan is at rest, and a host behind the router sends a
    datagram.  After six passes of `simulate()`, and after any larger number, the host to
    which the table of the router leads has received it and nobody else anything; its
    `ttl` is lowered by one, and nothing but that and the checksum has changed.  A datagram
    whose `ttl` runs out, or for which there is no route, is received by nobody.  The
    network is at rest again. -/
theorem traffic_delivers (hfits : Fits W net₀) (source : String) (hsource : Behind W net₀ source)
    (destination : Address) (ttl : UInt8) (receiver : Option String)
    (hfate : Fate W net₀ destination ttl receiver) (rd : UInt32)
    (h : Rest W net₀ (fun _ => []) (fun _ => []) net) (n : Nat) (hn : 6 ≤ n) :
    ∃ host host' dgram net', net.host source = .ok host ∧
      host.sendTo destination rd ttl = .ok (dgram, host') ∧
      rounds W.cables n (net.setHost source host') = .ok net' ∧
      Rest W net₀ (receivedOf dgram receiver) (fun _ => []) net' := by
  obtain ⟨host, host', i, c, phase, hhost, hsent, ht, hphase, hunderway⟩ :=
    sendTo_underway hfits hsource destination ttl rd h
  obtain ⟨net', hrounds, h'⟩ := rounds_fate hfits ht rfl hphase hfate hunderway hn
  exact ⟨host, host', _, net', hhost, hsent, hrounds, h'⟩

/-- In the network of the program a datagram of `applesauce` reaches `cherrypie`. -/
theorem traffic_delivers_cherrypie : DrawsApart numberedAddress ∧
    ∃ host host' dgram net',
      (simulatorNetwork (fun _ _ => 0) numberedAddress).host "applesauce" = .ok host ∧
      host.sendTo (dotted 192 168 0 2) 0 64 = .ok (dgram, host') ∧
      rounds simulatorCables 6
        ((simulatorNetwork (fun _ _ => 0) numberedAddress).setHost "applesauce" host') = .ok net' ∧
      Rest (simulatorPlan numberedAddress) (simulatorNetwork (fun _ _ => 0) numberedAddress)
        (receivedOf dgram (some "cherrypie")) (fun _ => []) net' :=
  ⟨by decide, traffic_delivers (fits_simulatorNetwork _ (by decide)) "applesauce"
    (behind_simulatorNetwork _ (by decide)) (dotted 192 168 0 2) 64 (some "cherrypie")
    (fate_delivered _ ⟨dotted 192 168 0 0, 24, none, 3⟩ (by decide +kernel) (by decide) rfl) 0
    (rest_simulatorNetwork _) 6 (Nat.le_refl 6)⟩

/-- Whatever hosts behind the router send to whomever, one test after the other: no call
    throws. -/
theorem runs_tests (hfits : Fits W net₀) (tests : List (SimulatorTest × UInt32))
    (hsource : ∀ test ∈ tests, Behind W net₀ test.1.source)
    (hfate : ∀ test ∈ tests, Fate W net₀ test.1.destination test.1.ttl test.1.receiver)
    (h : Rest W net₀ (fun _ => []) (fun _ => []) net) :
    ∃ net', net.runTests W.cables tests = .ok net' ∧
      Rest W net₀ (fun _ => []) (fun _ => []) net' := by
  induction tests generalizing net with
  | nil => exact ⟨net, rfl, h⟩
  | cons test tests ih =>
      obtain ⟨hsource₁, hsource⟩ := List.forall_mem_cons.mp hsource
      obtain ⟨hfate₁, hfate⟩ := List.forall_mem_cons.mp hfate
      obtain ⟨net₁, htraffic, h₁⟩ := traffic_ok hfits hsource₁ hfate₁ test.2 h
      obtain ⟨net', hrest, h'⟩ := ih hsource hfate h₁
      refine ⟨net', ?_, h'⟩
      rw [runTests, htraffic]
      exact hrest

end Network

-- ============================================================================
-- The program
-- ============================================================================

section

variable (undefinedShift : UInt32 → Int → UInt32) {rd : Place → EthernetAddress}

/-- The program runs its tests on the network that it has built. -/
theorem networkSimulator_of_new {net : Network} (hnew : Network.new undefinedShift rd = .ok net)
    {applesauce cherrypie dm43 : Host} (h₁ : net.host "applesauce" = .ok applesauce)
    (h₂ : net.host "cherrypie" = .ok cherrypie) (h₃ : net.host "dm43" = .ok dm43)
    (payload : Nat → UInt32) :
    networkSimulator undefinedShift rd payload =
      net.runTests net.physicalConnections
        ((simulatorTests applesauce.myAddress cherrypie.myAddress dm43.myAddress).mapIdx
          fun i test => (test, payload i)) := by
  unfold networkSimulator
  rw [hnew]
  simp only [bind, Except.bind, h₁, h₂, h₃]

theorem networkSimulator_eq (payload : Nat → UInt32) :
    networkSimulator undefinedShift rd payload =
      (simulatorNetwork undefinedShift rd).runTests simulatorCables
        ((simulatorTests (dotted 10 0 0 2) (dotted 192 168 0 2) (dotted 198 178 229 43)).mapIdx
          fun i test => (test, payload i)) :=
  networkSimulator_of_new undefinedShift (new_eq undefinedShift rd) rfl rfl rfl payload

/-- **The program passes.**  Whatever numbers are drawn, as long as no two interfaces on a
    cable draw the same Ethernet address, and whatever a shift by 32 yields, the program ends
    without an exception: all datagrams come out where they are expected. -/
theorem networkSimulator_passes (rd : Place → EthernetAddress) (payload : Nat → UInt32)
    (hapart : DrawsApart rd) : ∃ net, networkSimulator undefinedShift rd payload = .ok net := by
  rw [networkSimulator_eq]
  have hsources : ∀ test ∈ simulatorTests (dotted 10 0 0 2) (dotted 192 168 0 2)
      (dotted 198 178 229 43), test.source ∈ ["applesauce", "cherrypie", "dm42"] := by
    simp [simulatorTests]
  have htests : ∀ test ∈ (simulatorTests (dotted 10 0 0 2) (dotted 192 168 0 2)
      (dotted 198 178 229 43)).mapIdx (fun i test => (test, payload i)),
      test.1 ∈ simulatorTests (dotted 10 0 0 2) (dotted 192 168 0 2) (dotted 198 178 229 43) := by
    intro test htest
    obtain ⟨i, hi, rfl⟩ := List.mem_mapIdx.mp htest
    exact List.getElem_mem hi
  obtain ⟨net, hruns, -⟩ := Network.runs_tests (fits_simulatorNetwork undefinedShift hapart) _
    (fun test htest => behind_simulatorNetwork undefinedShift (hsources _ (htests test htest)))
    (fun test htest => fate_simulatorTests undefinedShift _ (htests test htest))
    (rest_simulatorNetwork undefinedShift)
  exact ⟨net, hruns⟩

theorem networkSimulator_passes_numbered : DrawsApart numberedAddress ∧
    ∃ net, networkSimulator (fun _ _ => 0) numberedAddress Nat.toUInt32 = .ok net :=
  ⟨by decide, networkSimulator_passes _ _ _ (by decide)⟩

end

end Sponge
