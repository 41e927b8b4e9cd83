/-
  Sponge.NetworkInterface.Timing

  What the clock guarantees at an interface, over whole runs and with any ticks.

  `TimedTrace` keeps, beside the interface, the sum of all ticks, who was last heard from
  each IP address and when, and every ARP request that was pushed, as whoever parses the
  frame sees it.  Both kinds of entries are stopwatches: as long as less time than the
  limit has passed since an event, the 16-bit age of its entry has not wrapped, and is at
  most the time that has passed (`age_elapsed`).

  For requests this is the rate limit (`rateLimited_run`): the timer of an address outlives
  5000 ms since the last request for it.  For mappings it is not enough: an ARP message
  from an address that is in the cache leaves the age of the entry as it was, so the entry
  expires 30 seconds after it was first learned.  `usable_iff_keepsAge` says that this is
  the only thing that goes wrong.
-/

import Sponge.NetworkInterface.Aging

namespace Sponge

open Lib (Map Run Guarded exec)

-- ============================================================================
-- ARP requests on the wire
-- ============================================================================

namespace EthernetFrame

/-- The ARP request that a frame carries. -/
def arpRequest (frame : EthernetFrame) : Option ARPMessage :=
  frame.arp.filter fun arp => arp.opcode = ARPMessage.opcodeRequest

theorem arpRequest_of_ipv4 {frame : EthernetFrame}
    (h : frame.header.type = EthernetHeader.typeIPv4) : frame.arpRequest = none := by
  have harp : frame.arp = none := by
    rw [EthernetFrame.arp, h, if_neg (by decide)]
  rw [arpRequest, harp]
  rfl

end EthernetFrame

/-- An ARP request that an interface pushed: the frame and the message in it, the time,
    and whether the address it asks for was in the cache. -/
structure ArpRequest where
  frame : EthernetFrame
  message : ARPMessage
  time : Nat
  cached : Bool

namespace NetworkInterface

variable {n : NetworkInterface}

/-- The messages the interface constructs are read back from their frames. -/
theorem arp_arpFrame (n : NetworkInterface) {opcode : UInt16}
    (hopcode : opcode = ARPMessage.opcodeRequest ∨ opcode = ARPMessage.opcodeReply)
    (target : EthernetAddress) (ip : Address) (address : EthernetAddress) :
    (n.arpFrame (n.constructArpMessage opcode target ip).wireBytes address).arp =
      some (n.constructArpMessage opcode target ip) := by
  have hsupported : (n.constructArpMessage opcode target ip).supported = true := by
    simp [ARPMessage.supported, constructArpMessage, hopcode, ARPMessage.typeEthernet]
  have hparse := ARPMessage.parse_wireBytes hsupported {}
  simp [EthernetFrame.arp, arpFrame, BufferList.toBuffer, hparse]

theorem arpRequest_request (n : NetworkInterface) (nextHop : Address) :
    (n.request nextHop).arpRequest =
      some (n.constructArpMessage ARPMessage.opcodeRequest .zero nextHop) := by
  rw [EthernetFrame.arpRequest, request, arp_arpFrame n (Or.inl rfl)]
  rfl

theorem arpRequest_replies (n : NetworkInterface) (header : EthernetHeader) (arp : ARPMessage) :
    ∀ f ∈ n.replies header arp, f.arpRequest = none := by
  intro f hf
  rw [replies] at hf
  split at hf
  · obtain rfl := List.mem_singleton.mp hf
    rw [EthernetFrame.arpRequest, arp_arpFrame n (Or.inr rfl)]
    rfl
  · cases hf

/-- The requests that an operation pushes at time `clock`. -/
def requestsIn (n : NetworkInterface) (clock : Nat) (op : InterfaceOp) : List ArpRequest :=
  (n.newFrames op).filterMap fun frame => frame.arpRequest.map fun message =>
    { frame, message, time := clock,
      cached := decide (message.targetIpAddress ∈ n.cachedEthernetAddresses) }

/-- The request that goes out when the interface asks. -/
def asking (n : NetworkInterface) (clock : Nat) (nextHop : Address) : ArpRequest where
  frame := n.request nextHop
  message := n.constructArpMessage ARPMessage.opcodeRequest .zero nextHop
  time := clock
  cached := false

theorem requestsIn_eq_nil {clock : Nat} {op : InterfaceOp}
    (h : ∀ f ∈ n.newFrames op, f.arpRequest = none) : n.requestsIn clock op = [] := by
  rw [requestsIn, List.filterMap_eq_nil_iff]
  intro f hf
  rw [h f hf]
  rfl

theorem requestsIn_learn {clock : Nat} {frame : EthernetFrame} {arp : ARPMessage}
    {frames : List EthernetFrame} {queue : Map Address (List IPv4Datagram)}
    (heq : n.step (.recvFrame frame) = { (n.learn arp).push frames with datagramQueue := queue })
    (hframes : ∀ f ∈ frames,
      f.header.type = EthernetHeader.typeIPv4 ∨ f ∈ n.replies frame.header arp) :
    n.requestsIn clock (.recvFrame frame) = [] := by
  apply requestsIn_eq_nil
  rw [newFrames, heq]
  show ∀ f ∈ (n.framesOut ++ frames).drop n.framesOut.length, f.arpRequest = none
  rw [List.drop_left]
  intro f hf
  obtain htype | hreply := hframes f hf
  · exact EthernetFrame.arpRequest_of_ipv4 htype
  · exact arpRequest_replies n frame.header arp f hreply

theorem requestsIn_tick (n : NetworkInterface) (clock ms : Nat) :
    n.requestsIn clock (.tick ms) = [] := by
  apply requestsIn_eq_nil
  simp [newFrames, step, tick]

theorem requestsIn_frames {clock : Nat} {op : InterfaceOp} {out : List EthernetFrame}
    (heq : n.step op = { n with framesOut := out })
    (hout : ∀ f ∈ out.drop n.framesOut.length, f.header.type = EthernetHeader.typeIPv4) :
    n.requestsIn clock op = [] := by
  apply requestsIn_eq_nil
  rw [newFrames, heq]
  exact fun f hf => EthernetFrame.arpRequest_of_ipv4 (hout f hf)

/-- Asking pushes one request. -/
theorem requestsIn_asking (clock : Nat) (dgram : IPv4Datagram) {nextHop : Address}
    (h : n.Asking nextHop) :
    n.requestsIn clock (.sendDatagram dgram nextHop) = [n.asking clock nextHop] := by
  have hframes : n.newFrames (.sendDatagram dgram nextHop) = [n.request nextHop] := by
    rw [newFrames, step_sendDatagram_asking h]
    exact List.drop_left
  have hcached : decide (nextHop ∈ n.cachedEthernetAddresses) = false := decide_eq_false h.1
  rw [requestsIn, hframes]
  simp only [List.filterMap_cons, arpRequest_request, Option.map_some, List.filterMap_nil]
  show [(⟨_, _, clock, decide (nextHop ∈ n.cachedEthernetAddresses)⟩ : ArpRequest)] = _
  rw [hcached]
  rfl

-- ============================================================================
-- Ages as stopwatches
-- ============================================================================

/-- While no more than the limit has passed since `since`, an entry stays, and its age is
    at most the time that has passed. -/
theorem age_elapsed {limit time : UInt16} {ms since clock : Nat}
    (htime : time.toNat + since ≤ clock) (hle : clock + ms ≤ since + limit.toNat) :
    ∃ time', age limit ms time = some time' ∧ time'.toNat + since ≤ clock + ms := by
  have hlt := limit.toNat_lt
  have hmod : (time.toNat + ms) % 2 ^ 16 = time.toNat + ms := Nat.mod_eq_of_lt (by omega)
  refine ⟨(time.toNat + ms).toUInt16, ?_, ?_⟩
  · rw [age_eq, hmod, if_neg (by omega)]
  · show (time.toNat + ms) % 2 ^ 16 + since ≤ clock + ms
    omega

/-- A datagram for `nextHop` goes out at once, in one IPv4 frame to `address`, and
    nothing else happens. -/
def Reaches (n : NetworkInterface) (nextHop : Address) (address : EthernetAddress) : Prop :=
  ∀ dgram payload, dgram.serialize = .ok payload →
    n.sendDatagram dgram nextHop = .ok (n.push [n.datagramFrame payload address])

theorem reaches_of_lookup {nextHop : Address} {cached : CachedEthernetAddress}
    (h : n.cachedEthernetAddresses.lookup nextHop = some cached) :
    n.Reaches nextHop cached.address := by
  intro dgram payload hpayload
  rw [sendDatagram, h]
  simp only [sendTo, hpayload]
  rfl

/-- Without an entry in the cache nothing is sent, or a request. -/
theorem not_reaches_of_lookup {nextHop : Address} {address : EthernetAddress}
    (h : n.cachedEthernetAddresses.lookup nextHop = none) : ¬ n.Reaches nextHop address := by
  intro hreaches
  have hpayload : (InterfaceTrace.bareDatagram 0).serialize =
      .ok (InterfaceTrace.bareDatagram 0).wireBytes := by decide
  have hsend := hreaches _ _ hpayload
  rw [sendDatagram, h] at hsend
  by_cases htimer : nextHop ∈ n.arpMessageTimers
  · simp only [if_pos htimer] at hsend
    have hlength := congrArg (fun n => n.framesOut.length) (Except.ok.inj hsend)
    simp [push] at hlength
  · simp only [if_neg htimer, n.sendArpMessage_eq (Or.inl rfl)] at hsend
    have hout := congrArg NetworkInterface.framesOut (Except.ok.inj hsend)
    have htype := congrArg (List.map fun f => f.header.type) (List.append_cancel_left hout)
    have hne : EthernetHeader.typeARP ≠ EthernetHeader.typeIPv4 := by decide
    exact hne (List.cons.inj htype).1

end NetworkInterface

-- ============================================================================
-- Runs with a clock
-- ============================================================================

/-- The time an operation takes. -/
def InterfaceOp.elapsed : InterfaceOp → Nat
  | .tick ms => ms
  | _ => 0

theorem InterfaceOp.Silent.elapsed_eq {op : InterfaceOp} (h : op.Silent) : op.elapsed = 0 := by
  cases op with
  | tick ms => exact h.elim
  | _ => rfl

/-- An interface with a clock, the last ARP message heard from each IP address (its
    Ethernet address and the time), and all ARP requests pushed, oldest first. -/
structure TimedTrace where
  iface : NetworkInterface
  clock : Nat := 0
  heard : Map Address (EthernetAddress × Nat) := ∅
  requests : List ArpRequest := []

namespace TimedTrace

open NetworkInterface

/-- What is heard in an operation. -/
def hear (t : TimedTrace) : InterfaceOp → Map Address (EthernetAddress × Nat)
  | .recvFrame frame =>
      match frame.arp with
      | some arp => t.heard.insert arp.senderIpAddress (arp.senderEthernetAddress, t.clock)
      | none => t.heard
  | _ => t.heard

def step (t : TimedTrace) (op : InterfaceOp) : TimedTrace where
  iface := t.iface.step op
  clock := t.clock + op.elapsed
  heard := t.hear op
  requests := t.requests ++ t.iface.requestsIn t.clock op

/-- A new interface, at time 0. -/
def start (ethernetAddress : EthernetAddress) (ipAddress : Address) : TimedTrace where
  iface := .new ethernetAddress ipAddress

-- ============================================================================
-- The rate limit
-- ============================================================================

/-- Requests for one address are more than 5000 ms apart; each is broadcast, names the
    interface as its sender, and asks for an address that is not in the cache. -/
structure RateLimited (t : TimedTrace) : Prop where
  spaced : t.requests.Pairwise fun r r' =>
    r.message.targetIpAddress = r'.message.targetIpAddress → r.time + 5000 < r'.time
  broadcast : ∀ r ∈ t.requests, r.frame.header.dst = .broadcast
  own : ∀ r ∈ t.requests, r.message.senderEthernetAddress = t.iface.ethernetAddress ∧
    r.message.senderIpAddress = t.iface.ipAddressRaw
  uncached : ∀ r ∈ t.requests, r.cached = false

/-- The rate limit, with what keeps it up: 5000 ms after a request the timer for its
    address still runs, and shows no more than the time since then. -/
structure RequestInv (t : TimedTrace) : Prop where
  limited : t.RateLimited
  timers : ∀ r ∈ t.requests, t.clock ≤ r.time + 5000 →
    ∃ timer, t.iface.arpMessageTimers.lookup r.message.targetIpAddress = some timer ∧
      timer.toNat + r.time ≤ t.clock

theorem requestInv_start (ethernetAddress : EthernetAddress) (ipAddress : Address) :
    (start ethernetAddress ipAddress).RequestInv where
  limited := ⟨.nil, by simp [start], by simp [start], by simp [start]⟩
  timers := by simp [start]

/-- A step that pushes no request keeps the limit. -/
theorem RateLimited.step {t : TimedTrace} (h : t.RateLimited) {op : InterfaceOp}
    (hnone : t.iface.requestsIn t.clock op = []) : (t.step op).RateLimited := by
  have hrequests : (t.step op).requests = t.requests := by
    rw [TimedTrace.step, hnone, List.append_nil]
  obtain ⟨heth, hip⟩ := step_addresses t.iface op
  constructor
  · rw [hrequests]
    exact h.spaced
  · rw [hrequests]
    exact h.broadcast
  · rw [hrequests]
    show ∀ r ∈ t.requests, _ = (t.iface.step op).ethernetAddress ∧
      _ = (t.iface.step op).ipAddressRaw
    rw [heth, hip]
    exact h.own
  · rw [hrequests]
    exact h.uncached

/-- A step that pushes no request and leaves the timers alone, or moves them on. -/
theorem RequestInv.quiet {t : TimedTrace} (h : t.RequestInv) {op : InterfaceOp}
    (hnone : t.iface.requestsIn t.clock op = [])
    (htimers : (t.iface.step op).arpMessageTimers =
      Map.sweep (ageTimer op.elapsed) t.iface.arpMessageTimers ∨
      op.elapsed = 0 ∧ (t.iface.step op).arpMessageTimers = t.iface.arpMessageTimers) :
    (t.step op).RequestInv where
  limited := h.limited.step hnone
  timers := by
    intro r hr hle
    rw [TimedTrace.step, hnone, List.append_nil] at hr
    have hle : t.clock + op.elapsed ≤ r.time + 5000 := hle
    obtain ⟨timer, hlookup, htimer⟩ := h.timers r hr (by omega)
    show ∃ timer, (t.iface.step op).arpMessageTimers.lookup _ = some timer ∧
      timer.toNat + r.time ≤ t.clock + op.elapsed
    obtain hsweep | ⟨hzero, hsame⟩ := htimers
    · obtain ⟨timer', hage, htimer'⟩ : ∃ timer', ageTimer op.elapsed timer = some timer' ∧
          timer'.toNat + r.time ≤ t.clock + op.elapsed := age_elapsed htimer hle
      refine ⟨timer', ?_, htimer'⟩
      rw [hsweep, Map.lookup_sweep, hlookup]
      exact hage
    · rw [hsame, hzero]
      exact ⟨timer, hlookup, htimer⟩

/-- A request is pushed only when no timer for its address runs, and starts one. -/
theorem RequestInv.ask {t : TimedTrace} (h : t.RequestInv) {dgram : IPv4Datagram}
    {nextHop : Address} (hask : t.iface.Asking nextHop) :
    (t.step (.sendDatagram dgram nextHop)).RequestInv := by
  have hrequests : (t.step (.sendDatagram dgram nextHop)).requests =
      t.requests ++ [t.iface.asking t.clock nextHop] := by
    rw [TimedTrace.step, requestsIn_asking _ _ hask]
  have hiface : (t.step (.sendDatagram dgram nextHop)).iface = t.iface.asked dgram nextHop :=
    step_sendDatagram_asking hask
  refine ⟨⟨?_, ?_, ?_, ?_⟩, ?_⟩
  · rw [hrequests, List.pairwise_append]
    refine ⟨h.limited.spaced, List.pairwise_singleton .., ?_⟩
    rintro r hr r' hr' heq
    obtain rfl := List.mem_singleton.mp hr'
    -- otherwise the timer that the earlier request started would still run
    by_contra hlt
    obtain ⟨timer, hlookup, -⟩ := h.timers r hr (by show t.clock ≤ _; exact Nat.not_lt.mp hlt)
    rw [show r.message.targetIpAddress = nextHop from heq] at hlookup
    exact hask.2 (Map.mem_of_lookup hlookup)
  · rw [hrequests]
    exact List.forall_mem_append.mpr ⟨h.limited.broadcast, by simp [asking, request, arpFrame]⟩
  · rw [hrequests, hiface]
    exact List.forall_mem_append.mpr
      ⟨h.limited.own, by simp [asking, constructArpMessage, asked, push]⟩
  · rw [hrequests]
    exact List.forall_mem_append.mpr ⟨h.limited.uncached, by simp [asking]⟩
  · rw [hrequests, hiface]
    intro r hr hle
    have hle : t.clock ≤ r.time + 5000 := hle
    show ∃ timer, (t.iface.arpMessageTimers.insert nextHop 0).lookup _ = some timer ∧
      timer.toNat + r.time ≤ t.clock
    rw [Map.lookup_insert_eq_ite]
    obtain hr | hr := List.mem_append.mp hr
    · obtain ⟨timer, hlookup, htimer⟩ := h.timers r hr hle
      split
      · exact ⟨0, rfl, by show 0 + r.time ≤ t.clock; omega⟩
      · exact ⟨timer, hlookup, htimer⟩
    · obtain rfl := List.mem_singleton.mp hr
      rw [if_pos (show (t.iface.asking t.clock nextHop).message.targetIpAddress = nextHop from rfl)]
      exact ⟨0, rfl, by show 0 + t.clock ≤ t.clock; omega⟩

theorem RequestInv.step {t : TimedTrace} (h : t.RequestInv) (op : InterfaceOp) :
    (t.step op).RequestInv := by
  cases t.iface.stepCase op with
  | ask hask _ => exact h.ask hask
  | learn _ frames queue heq hframes =>
      refine h.quiet (requestsIn_learn heq hframes) (Or.inr ⟨rfl, ?_⟩)
      rw [heq]
      rfl
  | tick ms => exact h.quiet (requestsIn_tick ..) (Or.inl rfl)
  | frames hop out heq hout =>
      refine h.quiet (requestsIn_frames heq hout) (Or.inr ⟨hop.elapsed_eq, ?_⟩)
      rw [heq]

/-- Whatever an interface is asked to do, and however long it takes, its ARP requests are
    rate limited. -/
theorem rateLimited_run (ethernetAddress : EthernetAddress) (ipAddress : Address)
    (ops : List InterfaceOp) : (ops.foldl step (start ethernetAddress ipAddress)).RateLimited := by
  have hinv : (ops.foldl step (start ethernetAddress ipAddress)).RequestInv :=
    List.foldlRecOn ops step (requestInv_start ethernetAddress ipAddress)
      fun _ ht op _ => ht.step op
  exact hinv.limited

/-- Two requests for one address, as close together as they can be. -/
example : ([.sendDatagram {} 2, .tick 5000, .sendDatagram {} 2, .tick 1, .sendDatagram {} 2].foldl
    step (start .zero 1)).requests.map (·.time) = [0, 5001] := by decide +kernel

-- ============================================================================
-- Fresh mappings
-- ============================================================================

/-- Up to 30 seconds after the last ARP message from an IP address its sender is
    reached. -/
def FreshUsable (t : TimedTrace) : Prop :=
  ∀ ip eth since, t.heard.lookup ip = some (eth, since) → t.clock ≤ since + 30000 →
    t.iface.Reaches ip eth

/-- An ARP message is from an address that is not in the cache, or whose entry has not
    aged yet. -/
def KeepsAge (t : TimedTrace) : InterfaceOp → Prop
  | .recvFrame frame =>
      match frame.arp with
      | some arp =>
          ((t.iface.cachedEthernetAddresses.lookup arp.senderIpAddress).getD {}).cacheTime = 0
      | none => True
  | _ => True

instance (t : TimedTrace) : (op : InterfaceOp) → Decidable (t.KeepsAge op)
  | .recvFrame frame =>
      match h : frame.arp with
      | some arp => decidable_of_iff
          (((t.iface.cachedEthernetAddresses.lookup arp.senderIpAddress).getD {}).cacheTime = 0)
          (by rw [KeepsAge, h])
      | none => isTrue (by rw [KeepsAge, h]; trivial)
  | .sendDatagram _ _ => isTrue trivial
  | .tick _ => isTrue trivial
  | .popFrame => isTrue trivial

/-- The age of the entry for an address that was heard is at most the time since then. -/
structure MappingInv (t : TimedTrace) : Prop where
  fresh : t.iface.Fresh
  cached : ∀ ip eth since, t.heard.lookup ip = some (eth, since) → t.clock ≤ since + 30000 →
    ∃ cacheTime, t.iface.cachedEthernetAddresses.lookup ip = some ⟨eth, cacheTime⟩ ∧
      cacheTime.toNat + since ≤ t.clock

theorem mappingInv_start (ethernetAddress : EthernetAddress) (ipAddress : Address) :
    (start ethernetAddress ipAddress).MappingInv where
  fresh := fresh_reached ethernetAddress ipAddress []
  cached := nofun

/-- What a tick leaves of the entry for an address that was heard. -/
theorem MappingInv.tick {t : TimedTrace} (h : t.MappingInv) {ip : Address}
    {eth : EthernetAddress} {since ms : Nat} (hheard : t.heard.lookup ip = some (eth, since))
    (hle : t.clock + ms ≤ since + 30000) :
    ∃ cacheTime, (t.iface.tick ms).cachedEthernetAddresses.lookup ip = some ⟨eth, cacheTime⟩ ∧
      cacheTime.toNat + since ≤ t.clock + ms := by
  obtain ⟨cacheTime, hlookup, htime⟩ := h.cached ip eth since hheard (by omega)
  obtain ⟨cacheTime', hage, htime'⟩ : ∃ time', age maxEthernetCacheTime ms cacheTime = some time' ∧
      time'.toNat + since ≤ t.clock + ms := age_elapsed htime hle
  refine ⟨cacheTime', ?_, htime'⟩
  show (Map.sweep (ageCached ms) t.iface.cachedEthernetAddresses).lookup ip = _
  rw [Map.lookup_sweep, hlookup, Option.bind_some, ageCached, hage]
  rfl

theorem MappingInv.freshUsable {t : TimedTrace} (h : t.MappingInv) : t.FreshUsable := by
  intro ip eth since hheard hle
  obtain ⟨cacheTime, hlookup, -⟩ := h.cached ip eth since hheard hle
  exact reaches_of_lookup hlookup

/-- A step that neither hears anything nor changes the cache. -/
theorem MappingInv.quiet {t : TimedTrace} (h : t.MappingInv) {op : InterfaceOp}
    (helapsed : op.elapsed = 0) (hheard : t.hear op = t.heard)
    (hcached : (t.iface.step op).cachedEthernetAddresses = t.iface.cachedEthernetAddresses) :
    (t.step op).MappingInv where
  fresh := h.fresh.step op
  cached := by
    show ∀ ip eth since, (t.hear op).lookup ip = some (eth, since) →
      t.clock + op.elapsed ≤ since + 30000 → ∃ cacheTime,
      (t.iface.step op).cachedEthernetAddresses.lookup ip = some ⟨eth, cacheTime⟩ ∧
      cacheTime.toNat + since ≤ t.clock + op.elapsed
    rw [hheard, hcached, helapsed]
    exact h.cached

theorem hear_of_arp (t : TimedTrace) {frame : EthernetFrame} {arp : ARPMessage}
    (harp : frame.arp = some arp) : t.hear (.recvFrame frame) =
      t.heard.insert arp.senderIpAddress (arp.senderEthernetAddress, t.clock) := by
  rw [hear, harp]

theorem hear_of_silent (t : TimedTrace) {op : InterfaceOp} (hop : op.Silent) :
    t.hear op = t.heard := by
  cases op with
  | recvFrame frame => rw [hear, show frame.arp = none from hop]
  | _ => rfl

/-- The entry for the sender of an ARP message gets the sender's address and keeps its
    age. -/
theorem cached_step_recvFrame (n : NetworkInterface) {frame : EthernetFrame} {arp : ARPMessage}
    (harp : frame.arp = some arp) : (n.step (.recvFrame frame)).cachedEthernetAddresses =
      n.cachedEthernetAddresses.insert arp.senderIpAddress ⟨arp.senderEthernetAddress,
        ((n.cachedEthernetAddresses.lookup arp.senderIpAddress).getD {}).cacheTime⟩ := by
  obtain ⟨frames, queue, heq, -⟩ := n.recvFrame_learns harp
  rw [NetworkInterface.step, heq]
  rfl

/-- Learning from an ARP message, as long as the entry has not aged. -/
theorem MappingInv.learn {t : TimedTrace} (h : t.MappingInv) {frame : EthernetFrame}
    {arp : ARPMessage} (harp : frame.arp = some arp)
    (hage : ((t.iface.cachedEthernetAddresses.lookup arp.senderIpAddress).getD {}).cacheTime = 0) :
    (t.step (.recvFrame frame)).MappingInv where
  fresh := h.fresh.step (.recvFrame frame)
  cached := by
    show ∀ ip eth since, (t.hear (.recvFrame frame)).lookup ip = some (eth, since) →
      t.clock ≤ since + 30000 → ∃ cacheTime,
      (t.iface.step (.recvFrame frame)).cachedEthernetAddresses.lookup ip = some ⟨eth, cacheTime⟩ ∧
      cacheTime.toNat + since ≤ t.clock
    rw [t.hear_of_arp harp, cached_step_recvFrame _ harp, hage]
    intro ip eth since hlookup hle
    rw [Map.lookup_insert_eq_ite] at hlookup ⊢
    split at hlookup
    · next hip =>
        obtain ⟨rfl, rfl⟩ := Prod.mk.inj (Option.some.inj hlookup)
        rw [if_pos hip]
        exact ⟨0, rfl, by show 0 + t.clock ≤ t.clock; omega⟩
    · next hip =>
        rw [if_neg hip]
        exact h.cached ip eth since hlookup hle

theorem MappingInv.step {t : TimedTrace} (h : t.MappingInv) {op : InterfaceOp}
    (hop : t.KeepsAge op) : (t.step op).MappingInv := by
  cases t.iface.stepCase op with
  | ask _ heq =>
      refine h.quiet rfl rfl ?_
      rw [heq]
      rfl
  | learn harp _ _ _ _ =>
      rw [KeepsAge, harp] at hop
      exact h.learn harp hop
  | tick ms => exact ⟨h.fresh.step (.tick ms), fun ip eth since hheard hle => h.tick hheard hle⟩
  | frames hsilent out heq _ =>
      refine h.quiet hsilent.elapsed_eq (t.hear_of_silent hsilent) ?_
      rw [heq]

/-- A mapping that is learned again with an age is gone within 30 seconds. -/
theorem MappingInv.not_freshUsable {t : TimedTrace} (h : t.MappingInv) {op : InterfaceOp}
    (hop : ¬ t.KeepsAge op) : ¬ ((t.step op).step (.tick 30000)).FreshUsable := by
  cases op with
  | recvFrame frame =>
      cases harp : frame.arp with
      | none => exact absurd (by rw [KeepsAge, harp]; trivial) hop
      | some arp =>
          intro husable
          have hheard : (t.step (.recvFrame frame)).heard.lookup arp.senderIpAddress =
              some (arp.senderEthernetAddress, t.clock) := by
            show (t.hear (.recvFrame frame)).lookup arp.senderIpAddress = _
            rw [t.hear_of_arp harp, AList.lookup_insert]
          have hcached := congrArg (AList.lookup arp.senderIpAddress)
            (cached_step_recvFrame t.iface harp)
          rw [AList.lookup_insert] at hcached
          simp only [KeepsAge, harp] at hop
          generalize (t.iface.cachedEthernetAddresses.lookup arp.senderIpAddress).getD {} = old
            at hop hcached
          refine not_reaches_of_lookup ?_
            (husable arp.senderIpAddress arp.senderEthernetAddress t.clock hheard
              (by show t.clock + 0 + 30000 ≤ t.clock + 30000; omega))
          -- the age is positive and at most 30000, so 30000 ms later it is over the limit
          have hle : old.cacheTime.toNat ≤ 30000 := by
            have hfresh := (h.fresh.step (.recvFrame frame)).cached _ _ hcached
            exact UInt16.le_iff_toNat_le.mp hfresh
          have hpos : old.cacheTime.toNat ≠ 0 := fun hzero => hop (UInt16.toNat_inj.mp hzero)
          show (Map.sweep (ageCached 30000)
            (t.iface.step (.recvFrame frame)).cachedEthernetAddresses).lookup _ = none
          rw [Map.lookup_sweep, hcached, Option.bind_some, ageCached, age_eq, if_pos]
          · rfl
          · show 30000 < (old.cacheTime.toNat + 30000) % 2 ^ 16
            omega
  | sendDatagram dgram nextHop => exact absurd trivial hop
  | tick ms => exact absurd trivial hop
  | popFrame => exact absurd trivial hop

/-- The runs of an interface, whatever it is given. -/
abbrev RunsTo (ethernetAddress : EthernetAddress) (ipAddress : Address) (ops : List InterfaceOp)
    (t : TimedTrace) : Prop :=
  Run (Guarded (fun _ _ => True) fun t op => some (t.step op)) (start ethernetAddress ipAddress)
    ops t

/-- Along any run a fresh mapping is usable in every state reached, and however long the
    clock runs on from there, exactly if no ARP message finds an entry that has aged. -/
theorem usable_iff_keepsAge (ethernetAddress : EthernetAddress) (ipAddress : Address)
    (ops : List InterfaceOp) (t : TimedTrace) (hrun : RunsTo ethernetAddress ipAddress ops t) :
    (∀ pre u, pre <+: ops → RunsTo ethernetAddress ipAddress pre u →
      u.FreshUsable ∧ ∀ ms, (u.step (.tick ms)).FreshUsable) ↔
      Run (Guarded KeepsAge fun t op => some (t.step op)) (start ethernetAddress ipAddress)
        ops t := by
  have hinv : ∀ es u, Run (Guarded KeepsAge fun t op => some (t.step op))
      (start ethernetAddress ipAddress) es u → u.MappingInv := by
    intro es u h
    refine h.invariant (I := MappingInv) (mappingInv_start ethernetAddress ipAddress) ?_
    rintro t op v ht ⟨hop, hs⟩
    obtain rfl := Option.some.inj hs
    exact ht.step hop
  refine Run.always_iff_of_true
    (P := fun _ u => u.FreshUsable ∧ ∀ ms, (u.step (.tick ms)).FreshUsable) ?_ ?_ hrun
  · intro es u h
    refine ⟨(hinv es u h).freshUsable, fun ms => ?_⟩
    have hop : KeepsAge u (.tick ms) := trivial
    exact ((hinv es u h).step hop).freshUsable
  · intro es u op v h hop hs husable
    obtain rfl := Option.some.inj hs
    exact (hinv es u h).not_freshUsable hop (husable.2 30000)

/-- A mapping that is learned, used for a while and learned again once it has expired. -/
def relearned : List InterfaceOp :=
  [.recvFrame InterfaceTrace.replyFrame, .tick 30001, .recvFrame InterfaceTrace.replyFrame,
   .tick 30000]

theorem usable_iff_keepsAge_relearned :
    ∃ t, RunsTo .zero 1 relearned t ∧
      ∀ pre u, pre <+: relearned → RunsTo .zero 1 pre u →
        u.FreshUsable ∧ ∀ ms, (u.step (.tick ms)).FreshUsable :=
  have hkeeps := Run.of_exec KeepsAge (fun t op => some (step t op)) (start .zero 1)
    relearned (by decide +kernel)
  have hrun := hkeeps.mono fun _ _ _ hs => ⟨trivial, hs.2⟩
  ⟨_, hrun, (usable_iff_keepsAge .zero 1 relearned _ hrun).mpr hkeeps⟩

/-- The mapping is confirmed 20 seconds after it was learned, and gone 20 seconds later. -/
def confirmed : List InterfaceOp :=
  [.recvFrame InterfaceTrace.replyFrame, .tick 20000, .recvFrame InterfaceTrace.replyFrame,
   .tick 20000]

theorem usable_fails :
    ¬ ∀ (ethernetAddress : EthernetAddress) (ipAddress : Address) (ops : List InterfaceOp)
      (t : TimedTrace), RunsTo ethernetAddress ipAddress ops t → t.FreshUsable := by
  intro h
  have hrun := Run.of_exec (fun _ _ => True) (fun t op => some (step t op)) (start .zero 1)
    confirmed (by decide +kernel)
  have hreaches := h _ _ _ _ hrun 2 (List.Vector.replicate 6 7) 20000 (by decide +kernel)
    (by decide +kernel)
  exact not_reaches_of_lookup (by decide +kernel) hreaches

end TimedTrace

end Sponge
