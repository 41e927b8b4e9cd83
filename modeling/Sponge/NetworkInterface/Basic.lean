/-
  Sponge.NetworkInterface.Basic

  The network interface (`network_interface.hh`, `network_interface.cc`): datagrams
  out over Ethernet with ARP, frames in, and the passage of time.

  The three hash maps are finite maps.  The ages of cached addresses and of ARP requests
  are 16-bit words, advanced modulo 2^16.  An `Address` is the IPv4 number that
  `ipv4_numeric()` gives.  A datagram whose `serialize()` throws takes the call down
  with it; the state at the throw is kept, since the flush of a queue may have sent some
  of its datagrams by then.

  `Acts` lists what one operation can do as long as every datagram serializes, and
  `StepCase` what it does in any case; the properties of runs are derived from them.
-/

import Sponge.Lib.Run
import Sponge.Lib.Sweep
import Sponge.Ethernet
import Sponge.Ipv4.Basic

namespace Sponge

open Lib (Map)

/-- `Address`, by its `ipv4_numeric()` -/
abbrev Address := UInt32

/-- `NetworkInterface::CachedEthernetAddress` -/
structure CachedEthernetAddress where
  address : EthernetAddress := .zero
  cacheTime : UInt16 := 0
deriving DecidableEq

/-- `NetworkInterface` -/
structure NetworkInterface where
  ethernetAddress : EthernetAddress
  ipAddressRaw : Address
  framesOut : List EthernetFrame := []
  cachedEthernetAddresses : Map Address CachedEthernetAddress := ∅
  datagramQueue : Map Address (List IPv4Datagram) := ∅
  arpMessageTimers : Map Address UInt16 := ∅

namespace NetworkInterface

/-- `RESEND_ARP_MESSAGE_TIME` -/
def resendArpMessageTime : UInt16 := 5000

/-- `MAX_ETHERNET_CACHE_TIME` -/
def maxEthernetCacheTime : UInt16 := 30000

/-- `NetworkInterface(ethernet_address, ip_address)` -/
def new (ethernetAddress : EthernetAddress) (ipAddress : Address) : NetworkInterface :=
  { ethernetAddress, ipAddressRaw := ipAddress }

/-- `_frames_out.push(frame)` for each of the frames. -/
def push (n : NetworkInterface) (frames : List EthernetFrame) : NetworkInterface :=
  { n with framesOut := n.framesOut ++ frames }

/-- The frame that the private `send_datagram(dgram, address)` builds. -/
def datagramFrame (n : NetworkInterface) (payload : BufferList) (address : EthernetAddress) :
    EthernetFrame :=
  { header := { dst := address, src := n.ethernetAddress, type := EthernetHeader.typeIPv4 }
    payload }

/-- `send_datagram(dgram, address)`, the private one; a throw changes nothing. -/
def sendTo (n : NetworkInterface) (dgram : IPv4Datagram) (address : EthernetAddress) :
    Except Exn NetworkInterface := do
  let payload ← dgram.serialize
  return n.push [n.datagramFrame payload address]

/-- `construct_arp_message(opcode, target_ethernet_address, target_ip_address)` -/
def constructArpMessage (n : NetworkInterface) (opcode : UInt16)
    (targetEthernetAddress : EthernetAddress) (targetIpAddress : Address) : ARPMessage :=
  { opcode, senderEthernetAddress := n.ethernetAddress, senderIpAddress := n.ipAddressRaw,
    targetEthernetAddress, targetIpAddress }

/-- The frame that `send_arp_message(arp, address)` builds. -/
def arpFrame (n : NetworkInterface) (payload : Buffer) (address : EthernetAddress) :
    EthernetFrame :=
  { header := { dst := address, src := n.ethernetAddress, type := EthernetHeader.typeARP }
    payload := [payload] }

/-- `send_arp_message(arp, address)`; a throw changes nothing. -/
def sendArpMessage (n : NetworkInterface) (arp : ARPMessage) (address : EthernetAddress) :
    Except Exn NetworkInterface := do
  let payload ← arp.serialize
  return n.push [n.arpFrame payload address]

/-- `send_datagram(dgram, next_hop)`; a throw changes nothing. -/
def sendDatagram (n : NetworkInterface) (dgram : IPv4Datagram) (nextHop : Address) :
    Except Exn NetworkInterface :=
  match n.cachedEthernetAddresses.lookup nextHop with
  | some cached => n.sendTo dgram cached.address
  | none =>
      if nextHop ∈ n.arpMessageTimers then .ok n
      else do
        let arp := n.constructArpMessage ARPMessage.opcodeRequest .zero nextHop
        let n ← n.sendArpMessage arp .broadcast
        return { n with
          datagramQueue := n.datagramQueue.insert nextHop
            ((n.datagramQueue.lookup nextHop).getD [] ++ [dgram])
          arpMessageTimers := n.arpMessageTimers.insert nextHop 0 }

/-- The loop of `recv_frame` that sends what was queued. -/
def sendQueued (address : EthernetAddress) :
    List IPv4Datagram → NetworkInterface → Except Exn Unit × NetworkInterface
  | [], n => (.ok (), n)
  | dgram :: dgrams, n =>
      match n.sendTo dgram address with
      | .error e => (.error e, n)
      | .ok n => sendQueued address dgrams n

/-- The mapping that `recv_frame` learns from an ARP message; the age of an entry that is
    there already stays as it is. -/
def learn (n : NetworkInterface) (arp : ARPMessage) : NetworkInterface :=
  { n with
    cachedEthernetAddresses := n.cachedEthernetAddresses.insert arp.senderIpAddress
      { (n.cachedEthernetAddresses.lookup arp.senderIpAddress).getD {} with
        address := arp.senderEthernetAddress } }

/-- What `recv_frame` does about the datagrams that wait for the mapping. -/
def flush (n : NetworkInterface) (arp : ARPMessage) : Except Exn Unit × NetworkInterface :=
  match n.datagramQueue.lookup arp.senderIpAddress with
  | none => (.ok (), n)
  | some dgrams =>
      match sendQueued arp.senderEthernetAddress dgrams n with
      | (.error e, n) => (.error e, n)
      | (.ok (), n) => (.ok (), { n with datagramQueue := n.datagramQueue.erase arp.senderIpAddress })

/-- The message asks for the address of this interface. -/
def Asks (n : NetworkInterface) (header : EthernetHeader) (arp : ARPMessage) : Prop :=
  header.dst = .broadcast ∧ arp.opcode = ARPMessage.opcodeRequest ∧
    arp.targetIpAddress = n.ipAddressRaw

instance (n : NetworkInterface) (header : EthernetHeader) (arp : ARPMessage) :
    Decidable (n.Asks header arp) :=
  inferInstanceAs (Decidable (_ ∧ _ ∧ _))

/-- The answer to a message that asks. -/
def reply (n : NetworkInterface) (header : EthernetHeader) (arp : ARPMessage) :
    Except Exn NetworkInterface :=
  if n.Asks header arp then
    n.sendArpMessage
      (n.constructArpMessage ARPMessage.opcodeReply arp.senderEthernetAddress arp.senderIpAddress)
      arp.senderEthernetAddress
  else .ok n

/-- `recv_frame` on a frame that carries an ARP message. -/
def recvArp (n : NetworkInterface) (header : EthernetHeader) (arp : ARPMessage) :
    Except Exn Unit × NetworkInterface :=
  match (n.learn arp).flush arp with
  | (.error e, n) => (.error e, n)
  | (.ok (), n) =>
      match n.reply header arp with
      | .error e => (.error e, n)
      | .ok n => (.ok (), n)

/-- `recv_frame(frame)` -/
def recvFrame (n : NetworkInterface) (frame : EthernetFrame) :
    Except Exn (Option IPv4Datagram) × NetworkInterface :=
  if frame.header.type = EthernetHeader.typeIPv4 then
    if frame.header.dst = n.ethernetAddress then
      match frame.payload.toBuffer with
      | .error e => (.error e, n)
      | .ok buffer =>
          let (result, datagram) := IPv4Datagram.parse {} buffer
          if result = .noError then (.ok (some datagram), n) else (.ok none, n)
    else (.ok none, n)
  else if frame.header.type = EthernetHeader.typeARP then
    match frame.payload.toBuffer with
    | .error e => (.error e, n)
    | .ok buffer =>
        let (result, arp) := ARPMessage.parse {} buffer
        if result ≠ .noError then (.ok none, n) else
        let (result, n) := n.recvArp frame.header arp
        (result.map fun _ => none, n)
  else (.ok none, n)

/-- An age that `tick` has moved on, unless it is over the limit. -/
def age (limit : UInt16) (ms : Nat) (time : UInt16) : Option UInt16 :=
  let time := (time.toNat + ms).toUInt16
  if time > limit then none else some time

/-- The pass of `tick` over an entry of `_arp_message_timers`. -/
def ageTimer (ms : Nat) (timer : UInt16) : Option UInt16 := age resendArpMessageTime ms timer

/-- The pass of `tick` over an entry of `_cached_ethernet_addresses`. -/
def ageCached (ms : Nat) (cached : CachedEthernetAddress) : Option CachedEthernetAddress :=
  (age maxEthernetCacheTime ms cached.cacheTime).map fun cacheTime => { cached with cacheTime }

/-- `tick(ms_since_last_tick)` -/
def tick (n : NetworkInterface) (ms : Nat) : NetworkInterface :=
  { n with
    arpMessageTimers := Map.sweep (ageTimer ms) n.arpMessageTimers
    cachedEthernetAddresses := Map.sweep (ageCached ms) n.cachedEthernetAddresses }

/-- The datagrams held back for a next hop. -/
def pending (n : NetworkInterface) (nextHop : Address) : List IPv4Datagram :=
  (n.datagramQueue.lookup nextHop).getD []

end NetworkInterface

/-- What the owner of an interface does with it; `popFrame` takes the oldest frame off
    `frames_out()`. -/
inductive InterfaceOp
  | sendDatagram (dgram : IPv4Datagram) (nextHop : Address)
  | recvFrame (frame : EthernetFrame)
  | tick (ms : Nat)
  | popFrame

/-- The interface after an operation, whether it threw or not. -/
def NetworkInterface.step (n : NetworkInterface) : InterfaceOp → NetworkInterface
  | .sendDatagram dgram nextHop =>
      match n.sendDatagram dgram nextHop with
      | .error _ => n
      | .ok n => n
  | .recvFrame frame => (n.recvFrame frame).2
  | .tick ms => n.tick ms
  | .popFrame => { n with framesOut := n.framesOut.tail }

-- ============================================================================
-- Datagrams that serialize
-- ============================================================================

/-- The operation does not hand over a datagram whose `serialize()` throws. -/
def InterfaceOp.Sound : InterfaceOp → Prop
  | .sendDatagram dgram _ => dgram.Serializes
  | _ => True

/-- The ARP message that an interface takes from a frame. -/
def EthernetFrame.arp (frame : EthernetFrame) : Option ARPMessage :=
  if frame.header.type = EthernetHeader.typeARP then
    match frame.payload.toBuffer with
    | .error _ => none
    | .ok buffer =>
        if (ARPMessage.parse {} buffer).1 = .noError then some (ARPMessage.parse {} buffer).2
        else none
  else none

/-- An operation that neither brings an ARP message nor lets time pass. -/
def InterfaceOp.Silent : InterfaceOp → Prop
  | .recvFrame frame => frame.arp = none
  | .tick _ => False
  | _ => True

namespace NetworkInterface

variable {n : NetworkInterface}

theorem sendTo_of_serializes {dgram : IPv4Datagram} (h : dgram.Serializes)
    (address : EthernetAddress) :
    n.sendTo dgram address = .ok (n.push [n.datagramFrame dgram.wireBytes address]) := by
  unfold sendTo
  rw [h]
  rfl

/-- The messages the interface constructs are never refused. -/
theorem sendArpMessage_eq (n : NetworkInterface) {opcode : UInt16}
    (hopcode : opcode = ARPMessage.opcodeRequest ∨ opcode = ARPMessage.opcodeReply)
    (target : EthernetAddress) (ip : Address) (address : EthernetAddress) :
    n.sendArpMessage (n.constructArpMessage opcode target ip) address =
      .ok (n.push [n.arpFrame (n.constructArpMessage opcode target ip).wireBytes address]) := by
  have hsupported : (n.constructArpMessage opcode target ip).supported = true := by
    simp [ARPMessage.supported, constructArpMessage, hopcode, ARPMessage.typeEthernet]
  unfold sendArpMessage
  rw [ARPMessage.serialize_of_supported hsupported]
  rfl

theorem sendQueued_of_serializes (address : EthernetAddress) {dgrams : List IPv4Datagram}
    (h : ∀ d ∈ dgrams, d.Serializes) (n : NetworkInterface) :
    sendQueued address dgrams n =
      (.ok (), n.push (dgrams.map fun d => n.datagramFrame d.wireBytes address)) := by
  induction dgrams generalizing n with
  | nil => simp [sendQueued, push]
  | cons d dgrams ih =>
      have hd := h d (List.mem_cons_self ..)
      have hrest := ih (fun d' hd' => h d' (List.mem_cons_of_mem _ hd'))
        (n.push [n.datagramFrame d.wireBytes address])
      rw [sendQueued, sendTo_of_serializes hd]
      simp only [hrest]
      simp [push, datagramFrame]

-- ============================================================================
-- What an operation does
-- ============================================================================

/-- Every datagram that is held back serializes. -/
def QueueSound (n : NetworkInterface) : Prop := ∀ nextHop, ∀ d ∈ n.pending nextHop, d.Serializes

/-- The request for the address of a next hop. -/
def request (n : NetworkInterface) (nextHop : Address) : EthernetFrame :=
  n.arpFrame (n.constructArpMessage ARPMessage.opcodeRequest .zero nextHop).wireBytes .broadcast

/-- The answers to an ARP message: one if it asks for this interface. -/
def replies (n : NetworkInterface) (header : EthernetHeader) (arp : ARPMessage) :
    List EthernetFrame :=
  if n.Asks header arp then
    [n.arpFrame (n.constructArpMessage ARPMessage.opcodeReply arp.senderEthernetAddress
      arp.senderIpAddress).wireBytes arp.senderEthernetAddress]
  else []

/-- What an operation does to an interface whose datagrams all serialize. -/
inductive Acts (n : NetworkInterface) : InterfaceOp → NetworkInterface → Prop
  | forward {dgram : IPv4Datagram} {nextHop : Address} {cached : CachedEthernetAddress}
      (hcached : n.cachedEthernetAddresses.lookup nextHop = some cached) :
      Acts n (.sendDatagram dgram nextHop)
        (n.push [n.datagramFrame dgram.wireBytes cached.address])
  | ignore {dgram : IPv4Datagram} {nextHop : Address}
      (hcached : nextHop ∉ n.cachedEthernetAddresses) (htimer : nextHop ∈ n.arpMessageTimers) :
      Acts n (.sendDatagram dgram nextHop) n
  | ask {dgram : IPv4Datagram} {nextHop : Address}
      (hcached : nextHop ∉ n.cachedEthernetAddresses) (htimer : nextHop ∉ n.arpMessageTimers) :
      Acts n (.sendDatagram dgram nextHop)
        { n.push [n.request nextHop] with
          datagramQueue := n.datagramQueue.insert nextHop (n.pending nextHop ++ [dgram])
          arpMessageTimers := n.arpMessageTimers.insert nextHop 0 }
  | pass {frame : EthernetFrame} (harp : frame.arp = none) : Acts n (.recvFrame frame) n
  | learn {frame : EthernetFrame} {arp : ARPMessage} (harp : frame.arp = some arp) :
      Acts n (.recvFrame frame)
        { (n.learn arp).push
            ((n.pending arp.senderIpAddress).map
                (fun d => n.datagramFrame d.wireBytes arp.senderEthernetAddress) ++
              n.replies frame.header arp) with
          datagramQueue := n.datagramQueue.erase arp.senderIpAddress }
  | tick (ms : Nat) : Acts n (.tick ms) (n.tick ms)
  | popFrame : Acts n .popFrame { n with framesOut := n.framesOut.tail }

/-- `send_datagram` does not throw on a datagram that serializes. -/
theorem sendDatagram_ok {dgram : IPv4Datagram} (hdgram : dgram.Serializes) (nextHop : Address) :
    ∃ n', n.sendDatagram dgram nextHop = .ok n' := by
  unfold sendDatagram
  split
  · exact ⟨_, sendTo_of_serializes hdgram _⟩
  · split
    · exact ⟨n, rfl⟩
    · simp only [n.sendArpMessage_eq (Or.inl rfl)]
      exact ⟨_, rfl⟩

/-- What `send_datagram` does if it returns. -/
theorem acts_of_sendDatagram {n' : NetworkInterface} {dgram : IPv4Datagram} {nextHop : Address}
    (h : n.sendDatagram dgram nextHop = .ok n') : Acts n (.sendDatagram dgram nextHop) n' := by
  unfold sendDatagram at h
  cases hcached : n.cachedEthernetAddresses.lookup nextHop with
  | some cached =>
      simp only [hcached] at h
      cases hbytes : dgram.serialize with
      | error e =>
          rw [sendTo, hbytes] at h
          cases h
      | ok bytes =>
          rw [sendTo_of_serializes (IPv4Datagram.serializes_of_eq_ok hbytes)] at h
          obtain rfl := Except.ok.inj h
          exact .forward hcached
  | none =>
      simp only [hcached] at h
      have hcached := AList.lookup_eq_none.mp hcached
      by_cases htimer : nextHop ∈ n.arpMessageTimers
      · rw [if_pos htimer] at h
        obtain rfl := Except.ok.inj h
        exact .ignore hcached htimer
      · rw [if_neg htimer, n.sendArpMessage_eq (Or.inl rfl)] at h
        obtain rfl := Except.ok.inj h
        exact .ask hcached htimer

theorem flush_eq (hqueue : n.QueueSound) (arp : ARPMessage) :
    n.flush arp =
      (.ok (), { n.push ((n.pending arp.senderIpAddress).map
          fun d => n.datagramFrame d.wireBytes arp.senderEthernetAddress) with
        datagramQueue := n.datagramQueue.erase arp.senderIpAddress }) := by
  have hsound := hqueue arp.senderIpAddress
  unfold flush
  unfold pending at hsound ⊢
  cases hlookup : n.datagramQueue.lookup arp.senderIpAddress with
  | none =>
      -- nothing is queued, so erasing the entry would change nothing
      have herase : n.datagramQueue.erase arp.senderIpAddress = n.datagramQueue := by
        apply AList.ext
        exact List.kerase_of_notMem_keys (AList.lookup_eq_none.mp hlookup)
      simp [push, herase]
  | some dgrams =>
      have hsound : ∀ d ∈ dgrams, d.Serializes := by rwa [hlookup] at hsound
      simp only [sendQueued_of_serializes _ hsound, Option.getD_some]
      rfl

theorem reply_eq (n : NetworkInterface) (header : EthernetHeader) (arp : ARPMessage) :
    n.reply header arp = .ok (n.push (n.replies header arp)) := by
  unfold reply replies
  split
  · exact n.sendArpMessage_eq (Or.inr rfl) ..
  · simp [push]

theorem recvArp_eq (hqueue : n.QueueSound) (header : EthernetHeader) (arp : ARPMessage) :
    n.recvArp header arp =
      (.ok (), { (n.learn arp).push
            ((n.pending arp.senderIpAddress).map
                (fun d => n.datagramFrame d.wireBytes arp.senderEthernetAddress) ++
              n.replies header arp) with
          datagramQueue := n.datagramQueue.erase arp.senderIpAddress }) := by
  have hlearn : (n.learn arp).QueueSound := hqueue
  unfold recvArp
  simp only [flush_eq hlearn, reply_eq]
  simp [push, learn]
  rfl

/-- What `recv_frame` returns for a frame without an ARP message. -/
def answer (address : EthernetAddress) (frame : EthernetFrame) :
    Except Exn (Option IPv4Datagram) :=
  if frame.header.type = EthernetHeader.typeIPv4 then
    if frame.header.dst = address then
      frame.payload.toBuffer.map fun buffer =>
        let (result, datagram) := IPv4Datagram.parse {} buffer
        if result = .noError then some datagram else none
    else .ok none
  else if frame.header.type = EthernetHeader.typeARP then frame.payload.toBuffer.map fun _ => none
  else .ok none

/-- A frame that carries no ARP message changes nothing. -/
theorem recvFrame_of_not_arp {frame : EthernetFrame} (h : frame.arp = none) :
    n.recvFrame frame = (answer n.ethernetAddress frame, n) := by
  unfold recvFrame answer
  split
  · split
    · cases frame.payload.toBuffer with
      | error e => rfl
      | ok buffer =>
          simp only [Except.map]
          split <;> rfl
    · rfl
  split
  · rename_i htype
    rw [EthernetFrame.arp, if_pos htype] at h
    cases hbuffer : frame.payload.toBuffer with
    | error e => rfl
    | ok buffer =>
        simp only [hbuffer] at h ⊢
        rw [if_pos]
        · rfl
        intro hok
        rw [if_pos hok] at h
        cases h
  · rfl

/-- A frame that carries one is handled by `recvArp`. -/
theorem recvFrame_of_arp {frame : EthernetFrame} {arp : ARPMessage} (h : frame.arp = some arp) :
    n.recvFrame frame =
      ((n.recvArp frame.header arp).1.map fun _ => none, (n.recvArp frame.header arp).2) := by
  unfold EthernetFrame.arp at h
  split at h
  · rename_i htype
    have hne : frame.header.type ≠ EthernetHeader.typeIPv4 := by
      rw [htype]
      decide
    cases hbuffer : frame.payload.toBuffer with
    | error e =>
        rw [hbuffer] at h
        cases h
    | ok buffer =>
        simp only [hbuffer] at h
        split at h
        · rename_i hok
          obtain rfl := Option.some.inj h
          simp only [recvFrame, if_neg hne, if_pos htype, hbuffer]
          rw [if_neg (not_not.mpr hok)]
        · cases h
  · cases h

/-- `recv_frame` returns on a frame with a single buffer, and what it returns is what the
    datagram parser accepted. -/
theorem recvFrame_returns (hqueue : n.QueueSound) {frame : EthernetFrame} {buffer : Buffer}
    (hpayload : frame.payload = [buffer]) :
    ∃ out, (n.recvFrame frame).1 = .ok out ∧ ∀ dgram, out = some dgram →
      frame.header.type = EthernetHeader.typeIPv4 ∧ frame.header.dst = n.ethernetAddress ∧
        IPv4Datagram.parse {} buffer = (.noError, dgram) := by
  cases harp : frame.arp with
  | some arp =>
      rw [recvFrame_of_arp harp, recvArp_eq hqueue]
      exact ⟨none, rfl, by simp⟩
  | none =>
      have hbuffer : frame.payload.toBuffer = .ok buffer := by rw [hpayload]; rfl
      by_cases htype : frame.header.type = EthernetHeader.typeIPv4
      · by_cases hdst : frame.header.dst = n.ethernetAddress
        · by_cases hok : (IPv4Datagram.parse {} buffer).1 = .noError
          · refine ⟨some (IPv4Datagram.parse {} buffer).2, ?_, ?_⟩
            · simp only [recvFrame, if_pos htype, if_pos hdst, hbuffer, if_pos hok]
            · intro dgram hdgram
              obtain rfl := Option.some.inj hdgram
              exact ⟨htype, hdst, Prod.ext hok rfl⟩
          · refine ⟨none, ?_, by simp⟩
            simp only [recvFrame, if_pos htype, if_pos hdst, hbuffer, if_neg hok]
        · refine ⟨none, ?_, by simp⟩
          simp only [recvFrame, if_pos htype, if_neg hdst]
      · refine ⟨none, ?_, by simp⟩
        simp only [recvFrame, if_neg htype, hbuffer]
        split
        · rename_i harpType
          rw [EthernetFrame.arp, if_pos harpType, hbuffer] at harp
          rw [if_pos]
          intro hok
          simp only [if_pos hok] at harp
          cases harp
        · rfl

theorem recvFrame_acts (hqueue : n.QueueSound) (frame : EthernetFrame) :
    Acts n (.recvFrame frame) (n.recvFrame frame).2 := by
  cases harp : frame.arp with
  | none =>
      rw [recvFrame_of_not_arp harp]
      exact .pass harp
  | some arp =>
      rw [recvFrame_of_arp harp, recvArp_eq hqueue]
      exact .learn harp

/-- What an operation does, as long as every datagram serializes. -/
theorem acts_step {op : InterfaceOp} (hop : op.Sound) (hqueue : n.QueueSound) :
    Acts n op (n.step op) := by
  cases op with
  | sendDatagram dgram nextHop =>
      obtain ⟨n', hsend⟩ := sendDatagram_ok (n := n) hop nextHop
      rw [step, hsend]
      exact acts_of_sendDatagram hsend
  | recvFrame frame => exact recvFrame_acts hqueue frame
  | tick ms => exact .tick ms
  | popFrame => exact .popFrame

-- ============================================================================
-- What an operation does, even if it throws
-- ============================================================================

/-- `send_datagram` asks for the address of the next hop. -/
def Asking (n : NetworkInterface) (nextHop : Address) : Prop :=
  nextHop ∉ n.cachedEthernetAddresses ∧ nextHop ∉ n.arpMessageTimers

instance (n : NetworkInterface) (nextHop : Address) : Decidable (n.Asking nextHop) :=
  inferInstanceAs (Decidable (_ ∧ _))

/-- The interface after it has asked, with the datagram held back. -/
def asked (n : NetworkInterface) (dgram : IPv4Datagram) (nextHop : Address) : NetworkInterface :=
  { n.push [n.request nextHop] with
    datagramQueue := n.datagramQueue.insert nextHop (n.pending nextHop ++ [dgram])
    arpMessageTimers := n.arpMessageTimers.insert nextHop 0 }

/-- Asking does not serialize the datagram, so it cannot throw. -/
theorem step_sendDatagram_asking {dgram : IPv4Datagram} {nextHop : Address}
    (h : n.Asking nextHop) : n.step (.sendDatagram dgram nextHop) = n.asked dgram nextHop := by
  have hsend : n.sendDatagram dgram nextHop = .ok (n.asked dgram nextHop) := by
    unfold sendDatagram
    rw [AList.lookup_eq_none.mpr h.1]
    simp only [if_neg h.2, n.sendArpMessage_eq (Or.inl rfl)]
    rfl
  rw [step, hsend]

/-- Otherwise at most an IPv4 frame is pushed. -/
theorem step_sendDatagram_not_asking (dgram : IPv4Datagram) {nextHop : Address}
    (h : ¬ n.Asking nextHop) : ∃ frames, n.step (.sendDatagram dgram nextHop) = n.push frames ∧
      ∀ f ∈ frames, f.header.type = EthernetHeader.typeIPv4 := by
  rw [step]
  split
  · exact ⟨[], by simp [push], by simp⟩
  · next hsend =>
      cases acts_of_sendDatagram hsend with
      | forward _ => exact ⟨_, rfl, by simp [datagramFrame]⟩
      | ignore _ _ => exact ⟨[], by simp [push], by simp⟩
      | ask hcached htimer => exact absurd ⟨hcached, htimer⟩ h

/-- Sending what was queued only pushes IPv4 frames, even if it throws on the way. -/
theorem sendQueued_push (address : EthernetAddress) (dgrams : List IPv4Datagram)
    (n : NetworkInterface) : ∃ frames, (sendQueued address dgrams n).2 = n.push frames ∧
      ∀ f ∈ frames, f.header.type = EthernetHeader.typeIPv4 := by
  induction dgrams generalizing n with
  | nil => exact ⟨[], by simp [sendQueued, push], by simp⟩
  | cons d dgrams ih =>
      rw [sendQueued]
      unfold sendTo
      cases d.serialize with
      | error e => exact ⟨[], by simp [bind, Except.bind, push], by simp⟩
      | ok payload =>
          obtain ⟨frames, hframes, htype⟩ := ih (n.push [n.datagramFrame payload address])
          refine ⟨n.datagramFrame payload address :: frames, ?_, ?_⟩
          · show (sendQueued address dgrams (n.push _)).2 = _
            rw [hframes]
            simp [push]
          · exact List.forall_mem_cons.mpr ⟨rfl, htype⟩

theorem flush_push (n : NetworkInterface) (arp : ARPMessage) :
    ∃ frames queue, (n.flush arp).2 = { n.push frames with datagramQueue := queue } ∧
      ∀ f ∈ frames, f.header.type = EthernetHeader.typeIPv4 := by
  unfold flush
  split
  · exact ⟨[], n.datagramQueue, by simp [push], by simp⟩
  · next dgrams _ =>
      obtain ⟨frames, hframes, htype⟩ := sendQueued_push arp.senderEthernetAddress dgrams n
      split
      · next hsent =>
          rw [hsent] at hframes
          exact ⟨frames, n.datagramQueue, hframes, htype⟩
      · next hsent =>
          rw [hsent] at hframes
          obtain rfl := hframes
          exact ⟨frames, _, rfl, htype⟩

/-- An ARP message is learned from first; what is pushed after that are IPv4 frames and
    the reply, as far as it gets. -/
theorem recvFrame_learns (n : NetworkInterface) {frame : EthernetFrame} {arp : ARPMessage}
    (h : frame.arp = some arp) :
    ∃ frames queue,
      (n.recvFrame frame).2 = { (n.learn arp).push frames with datagramQueue := queue } ∧
      ∀ f ∈ frames, f.header.type = EthernetHeader.typeIPv4 ∨ f ∈ n.replies frame.header arp := by
  obtain ⟨frames, queue, heq, htype⟩ := (n.learn arp).flush_push arp
  rw [recvFrame_of_arp h, recvArp]
  rcases hflush : (n.learn arp).flush arp with ⟨result, n'⟩
  rw [hflush] at heq
  obtain rfl : n' = _ := heq
  cases result with
  | error e => exact ⟨frames, queue, rfl, fun f hf => Or.inl (htype f hf)⟩
  | ok _ =>
      simp only [reply_eq]
      refine ⟨frames ++ n.replies frame.header arp, queue, ?_, ?_⟩
      · simp only [push, List.append_assoc]
        rfl
      · intro f hf
        obtain hf | hf := List.mem_append.mp hf
        · exact Or.inl (htype f hf)
        · exact Or.inr hf

/-- What any operation does, also one that throws: it asks, learns from an ARP message,
    lets time pass, or does nothing but push IPv4 frames or take a frame off. -/
inductive StepCase (n : NetworkInterface) : InterfaceOp → Prop
  | ask {dgram : IPv4Datagram} {nextHop : Address} (hask : n.Asking nextHop)
      (heq : n.step (.sendDatagram dgram nextHop) = n.asked dgram nextHop) :
      StepCase n (.sendDatagram dgram nextHop)
  | learn {frame : EthernetFrame} {arp : ARPMessage} (harp : frame.arp = some arp)
      (frames : List EthernetFrame) (queue : Map Address (List IPv4Datagram))
      (heq : n.step (.recvFrame frame) = { (n.learn arp).push frames with datagramQueue := queue })
      (hframes : ∀ f ∈ frames,
        f.header.type = EthernetHeader.typeIPv4 ∨ f ∈ n.replies frame.header arp) :
      StepCase n (.recvFrame frame)
  | tick (ms : Nat) : StepCase n (.tick ms)
  | frames {op : InterfaceOp} (hop : op.Silent) (out : List EthernetFrame)
      (heq : n.step op = { n with framesOut := out })
      (hout : ∀ f ∈ out.drop n.framesOut.length, f.header.type = EthernetHeader.typeIPv4) :
      StepCase n op

theorem stepCase (n : NetworkInterface) (op : InterfaceOp) : n.StepCase op := by
  cases op with
  | sendDatagram dgram nextHop =>
      by_cases hask : n.Asking nextHop
      · exact .ask hask (step_sendDatagram_asking hask)
      · obtain ⟨frames, heq, htype⟩ := step_sendDatagram_not_asking dgram hask
        refine .frames trivial (n.framesOut ++ frames) heq ?_
        rwa [List.drop_left]
  | recvFrame frame =>
      cases harp : frame.arp with
      | none =>
          refine .frames harp n.framesOut ?_ ?_
          · rw [step, recvFrame_of_not_arp harp]
          · rw [List.drop_length]
            exact fun f hf => absurd hf List.not_mem_nil
      | some arp =>
          obtain ⟨frames, queue, heq, hframes⟩ := n.recvFrame_learns harp
          exact .learn harp frames queue heq hframes
  | tick ms => exact .tick ms
  | popFrame =>
      refine .frames trivial n.framesOut.tail rfl ?_
      rw [List.drop_eq_nil_of_le (by rw [List.length_tail]; omega)]
      exact fun f hf => absurd hf List.not_mem_nil

/-- No operation changes the interface's own addresses. -/
theorem step_addresses (n : NetworkInterface) (op : InterfaceOp) :
    (n.step op).ethernetAddress = n.ethernetAddress ∧
      (n.step op).ipAddressRaw = n.ipAddressRaw := by
  cases n.stepCase op with
  | ask _ heq | learn _ _ _ heq _ | frames _ _ heq _ =>
      rw [heq]
      exact ⟨rfl, rfl⟩
  | tick ms => exact ⟨rfl, rfl⟩

end NetworkInterface

end Sponge
