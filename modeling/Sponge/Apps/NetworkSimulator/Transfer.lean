/-
  Sponge.Apps.NetworkSimulator.Transfer

  How one datagram crosses one cable.

  A `Plan` says which addresses the interfaces have and which of them are connected.  The
  cache of a `Station` is truthful to it, and nobody waits for an answer for ever.  A
  datagram that is sent to an unknown neighbour takes three exchanges of frames: the
  request, the reply, and the frame with the datagram; to a known one it takes one.  In
  each `Phase` there is one frame on the cable, and `hears` says what an interface on the
  cable makes of it.
-/

import Sponge.Apps.NetworkSimulator.Basic
import Sponge.Ipv4.Codec
import Sponge.NetworkInterface.Delivery

namespace Sponge

/-- What a datagram is to the one who has received it. -/
def IPv4Datagram.arrived (d : IPv4Datagram) : IPv4Datagram := ⟨d.headerOut, [d.payload.flatten]⟩

/-- The interfaces that a cable connects. -/
def Cable.places : Cable → List Place
  | .two x y => [x, y]
  | .three x y z => [x, y, z]

/-- The addresses of the interfaces of a network, and its cables. -/
structure Plan where
  ip : Place → Address
  eth : Place → EthernetAddress
  places : List Place
  cables : List Cable

namespace Plan

variable (W : Plan)

/-- The two are on the same cable. -/
def Mates (p q : Place) : Prop := ∃ c ∈ W.cables, p ∈ c.places ∧ q ∈ c.places

/-- Each interface is on at most one cable, and those on a cable can be told apart. -/
structure Proper : Prop where
  placed : ∀ c ∈ W.cables, ∀ p ∈ c.places, p ∈ W.places
  cables_nodup : W.cables.Nodup
  nodup : ∀ c ∈ W.cables, c.places.Nodup
  single : ∀ c ∈ W.cables, ∀ c' ∈ W.cables, ∀ p ∈ c.places, p ∈ c'.places → c = c'
  ip_inj : ∀ c ∈ W.cables, ∀ p ∈ c.places, ∀ q ∈ c.places, W.ip p = W.ip q → p = q
  eth_inj : ∀ c ∈ W.cables, ∀ p ∈ c.places, ∀ q ∈ c.places, W.eth p = W.eth q → p = q

/-- The neighbours with an address are one. -/
theorem Proper.mate_eq {W : Plan} (h : W.Proper) {p q q' : Place} (hq : W.Mates p q)
    (hq' : W.Mates p q') (hip : W.ip q = W.ip q') : q = q' := by
  obtain ⟨c, hc, hpc, hqc⟩ := hq
  obtain ⟨c', hc', hpc', hqc'⟩ := hq'
  obtain rfl := h.single c hc c' hc' p hpc hpc'
  exact h.ip_inj c hc q hqc q' hqc' hip

/-- An ARP message from an interface. -/
def message (p : Place) (opcode : UInt16) (target : EthernetAddress) (ip : Address) : ARPMessage :=
  { opcode, senderEthernetAddress := W.eth p, senderIpAddress := W.ip p
    targetEthernetAddress := target, targetIpAddress := ip }

/-- The frame with an ARP message. -/
def arpFrame (p : Place) (arp : ARPMessage) (address : EthernetAddress) : EthernetFrame :=
  { header := { dst := address, src := W.eth p, type := EthernetHeader.typeARP }
    payload := [arp.wireBytes] }

/-- The interface `x` asks for `y`. -/
def request (x y : Place) : EthernetFrame :=
  W.arpFrame x (W.message x ARPMessage.opcodeRequest .zero (W.ip y)) .broadcast

/-- The interface `y` answers `x`. -/
def reply (y x : Place) : EthernetFrame :=
  W.arpFrame y (W.message y ARPMessage.opcodeReply (W.eth x) (W.ip x)) (W.eth x)

/-- The interface `x` sends a datagram to `y`. -/
def datagramFrame (x y : Place) (d : IPv4Datagram) : EthernetFrame :=
  { header := { dst := W.eth y, src := W.eth x, type := EthernetHeader.typeIPv4 }
    payload := d.wireBytes }

end Plan

/-- The state of an interface: the frames and the datagrams that it holds, a cache that is
    truthful, and no request that is neither answered nor waited for. -/
structure Station (W : Plan) (p : Place) (frames : List EthernetFrame)
    (held : Address → List IPv4Datagram) (out : List IPv4Datagram) (a : AsyncNetworkInterface) :
    Prop where
  ethernetAddress : a.ethernetAddress = W.eth p
  ipAddress : a.ipAddressRaw = W.ip p
  framesOut : a.framesOut = frames
  pending : ∀ ip, a.pending ip = held ip
  serializes : ∀ ip, ∀ d ∈ held ip, d.Serializes
  datagramsOut : a.datagramsOut = out
  truthful : ∀ ip cached, a.cachedEthernetAddresses.lookup ip = some cached →
    ∃ q, W.Mates p q ∧ W.ip q = ip ∧ W.eth q = cached.address
  answered : ∀ ip ∈ a.arpMessageTimers, ip ∈ a.cachedEthernetAddresses ∨ held ip ≠ []

namespace Station

variable {W : Plan} {p q : Place} {frames : List EthernetFrame}
  {held : Address → List IPv4Datagram} {out : List IPv4Datagram} {a : AsyncNetworkInterface}

theorem queueSound (h : Station W p frames held out a) : a.QueueSound := by
  intro ip d hd
  rw [h.pending] at hd
  exact h.serializes ip d hd

/-- What was sent is taken off the queue. -/
theorem clear {sent : List EthernetFrame} (h : Station W p (sent ++ frames) held out a) :
    Station W p frames held out (a.clear sent) where
  ethernetAddress := h.ethernetAddress
  ipAddress := h.ipAddress
  framesOut := by
    show a.framesOut.drop sent.length = frames
    rw [h.framesOut, List.drop_left]
  pending := h.pending
  serializes := h.serializes
  datagramsOut := h.datagramsOut
  truthful := h.truthful
  answered := h.answered

-- ============================================================================
-- Hearing one frame
-- ============================================================================

/-- A frame with an ARP message of a neighbour: its address is learned, what waits for it
    is sent, and a request is answered. -/
theorem recvArp (h : Station W p frames held out a) {frame : EthernetFrame} {arp : ARPMessage}
    (harp : frame.arp = some arp) (hq : W.Mates p q) (hip : arp.senderIpAddress = W.ip q)
    (heth : arp.senderEthernetAddress = W.eth q) :
    ∃ a', a.recvFrameAsync frame = (.ok (), a') ∧
      Station W p
        (frames ++ ((held (W.ip q)).map (W.datagramFrame p q) ++ a.replies frame.header arp))
        (fun ip => if ip = W.ip q then [] else held ip) out a' := by
  have hrecv := NetworkInterface.recvFrame_of_arp (n := a.toNetworkInterface) harp
  rw [NetworkInterface.recvArp_eq h.queueSound] at hrecv
  unfold AsyncNetworkInterface.recvFrameAsync
  rw [hrecv]
  refine ⟨_, rfl, h.ethernetAddress, h.ipAddress, ?_, fun ip => ?_, fun ip d hd => ?_,
    h.datagramsOut, fun ip cached hcached => ?_, fun ip htimer => ?_⟩
  · show a.framesOut ++ _ = _
    rw [h.framesOut, hip, h.pending, heth]
    have hframe : (fun d => a.datagramFrame d.wireBytes (W.eth q)) = W.datagramFrame p q := by
      funext d
      rw [NetworkInterface.datagramFrame, h.ethernetAddress, Plan.datagramFrame]
    rw [hframe]
  · show ((a.datagramQueue.erase arp.senderIpAddress).lookup ip).getD [] = _
    rw [NetworkInterface.getD_lookup_erase, hip]
    split
    · rfl
    · exact h.pending ip
  · split at hd
    · cases hd
    · exact h.serializes ip d hd
  · have hcached : (a.cachedEthernetAddresses.insert arp.senderIpAddress _).lookup ip =
        some cached := hcached
    rw [Lib.Map.lookup_insert_eq_ite] at hcached
    split at hcached
    · next heq =>
        refine ⟨q, hq, by rw [heq, hip], ?_⟩
        rw [← Option.some.inj hcached, ← heth]
    · exact h.truthful ip cached hcached
  · show ip ∈ a.cachedEthernetAddresses.insert _ _ ∨ _
    rw [AList.mem_insert, hip]
    by_cases heq : ip = W.ip q
    · exact Or.inl (Or.inl heq)
    · rw [if_neg heq]
      exact (h.answered ip htimer).imp Or.inr id

/-- A frame with a datagram: it is for the interface with the address, and nothing to the
    others. -/
theorem recvDatagram (h : Station W p frames held out a) (x y : Place) {d : IPv4Datagram}
    (hd : d.Encodable) :
    ∃ a', a.recvFrameAsync
          { W.datagramFrame x y d with payload := [(W.datagramFrame x y d).payload.flatten] } =
        (.ok (), a') ∧
      Station W p frames held (out ++ if W.eth y = W.eth p then [d.arrived] else []) a' := by
  have hbytes : (W.datagramFrame x y d).payload.flatten = d.wire := by
    have hserializes := IPv4Datagram.serializes_of_eq_ok (IPv4Datagram.serialize_eq hd)
    have hwire := Except.ok.inj (hserializes.symm.trans (IPv4Datagram.serialize_eq hd))
    rw [Plan.datagramFrame, hwire, IPv4Datagram.wire, List.flatten_cons]
  rw [hbytes]
  set frame : EthernetFrame := { W.datagramFrame x y d with payload := [d.wire] } with hframe
  have htype : frame.header.type = EthernetHeader.typeIPv4 := rfl
  have harp : frame.arp = none := by
    rw [EthernetFrame.arp, htype, if_neg (by decide)]
  have hanswer : NetworkInterface.answer a.ethernetAddress frame =
      .ok (if W.eth y = W.eth p then some d.arrived else none) := by
    have hdst : frame.header.dst = W.eth y := rfl
    have hpayload : frame.payload.toBuffer = .ok d.wire := rfl
    unfold NetworkInterface.answer
    rw [if_pos htype, hdst, h.ethernetAddress]
    split
    · rw [hpayload]
      simp only [Except.map, IPv4Datagram.parse_wire {} hd, if_true]
      rfl
    · rfl
  have hrecv := NetworkInterface.recvFrame_of_not_arp (n := a.toNetworkInterface) harp
  rw [hanswer] at hrecv
  unfold AsyncNetworkInterface.recvFrameAsync
  rw [hrecv]
  by_cases heq : W.eth y = W.eth p
  · simp only [if_pos heq]
    exact ⟨_, rfl, h.ethernetAddress, h.ipAddress, h.framesOut, h.pending, h.serializes,
      by rw [← h.datagramsOut], h.truthful, h.answered⟩
  · simp only [if_neg heq]
    exact ⟨_, rfl, h.ethernetAddress, h.ipAddress, h.framesOut, h.pending, h.serializes,
      by rw [List.append_nil]; exact h.datagramsOut, h.truthful, h.answered⟩

end Station

-- ============================================================================
-- Phases
-- ============================================================================

/-- How far a datagram has come. -/
inductive Phase
  | asking
  | answered
  | sending
  | done
deriving DecidableEq, Repr

namespace Phase

/-- The phase after an exchange of frames. -/
def next : Phase → Phase
  | .asking => .answered
  | .answered => .sending
  | .sending => .done
  | .done => .done

/-- The exchanges that are left. -/
def left : Phase → Nat
  | .asking => 3
  | .answered => 2
  | .sending => 1
  | .done => 0

theorem eq_done_of_left {phase : Phase} (h : phase.left = 0) : phase = .done := by
  cases phase <;> first | rfl | cases h

end Phase

/-- A datagram on its way from one interface to another. -/
structure Transfer where
  x : Place
  y : Place
  dgram : IPv4Datagram

namespace Transfer

variable (W : Plan) (t : Transfer)

/-- The frame that is on the cable, and who sends it. -/
def frame : Phase → Option (Place × EthernetFrame)
  | .asking => some (t.x, W.request t.x t.y)
  | .answered => some (t.y, W.reply t.y t.x)
  | .sending => some (t.x, W.datagramFrame t.x t.y t.dgram)
  | .done => none

/-- The frames that an interface has to send. -/
def framesAt (phase : Phase) (p : Place) : List EthernetFrame :=
  match t.frame W phase with
  | some (sender, f) => if p = sender then [f] else []
  | none => []

/-- The datagrams that an interface holds back. -/
def heldAt (phase : Phase) (p : Place) (ip : Address) : List IPv4Datagram :=
  if (phase = .asking ∨ phase = .answered) ∧ p = t.x ∧ ip = W.ip t.y then [t.dgram] else []

/-- What has been received after an exchange. -/
def outAfter (phase : Phase) (out : Place → List IPv4Datagram) : Place → List IPv4Datagram :=
  if phase = .sending then Function.update out t.y (out t.y ++ [t.dgram.arrived]) else out

/-- The transfer is between two interfaces on the cable, and its datagram can be sent. -/
structure On (c : Cable) : Prop where
  cable : c ∈ W.cables
  x_mem : t.x ∈ c.places
  y_mem : t.y ∈ c.places
  ne : t.x ≠ t.y
  encodable : t.dgram.Encodable

variable {W t}

theorem On.serializes {c : Cable} (h : t.On W c) : t.dgram.Serializes :=
  IPv4Datagram.serializes_of_eq_ok (IPv4Datagram.serialize_eq h.encodable)

theorem frame_sender_mem {c : Cable} (h : t.On W c) {phase : Phase} {sender : Place}
    {f : EthernetFrame} (hframe : t.frame W phase = some (sender, f)) : sender ∈ c.places := by
  cases phase with
  | asking | sending => exact (Prod.mk.inj (Option.some.inj hframe)).1 ▸ h.x_mem
  | answered => exact (Prod.mk.inj (Option.some.inj hframe)).1 ▸ h.y_mem
  | done => cases hframe

/-- What the others on the cable send is the one frame. -/
theorem framesAt_others {c : Cable} (hnodup : c.places.Nodup) (h : t.On W c) (phase : Phase)
    (p : Place) :
    (c.places.filter (· ≠ p)).flatMap (t.framesAt W phase) =
      match t.frame W phase with
      | some (sender, f) => if p = sender then [] else [f]
      | none => [] := by
  cases hframe : t.frame W phase with
  | none => simp [framesAt, hframe]
  | some sent =>
      obtain ⟨sender, f⟩ := sent
      have hmem := frame_sender_mem h hframe
      have hsingle : ∀ l : List Place, l.Nodup →
          l.flatMap (t.framesAt W phase) = if sender ∈ l then [f] else [] := by
        intro l hl
        induction l with
        | nil => rfl
        | cons q l ih =>
            obtain ⟨hq, hl⟩ := List.nodup_cons.mp hl
            rw [List.flatMap_cons, ih hl, framesAt, hframe]
            by_cases heq : q = sender
            · subst heq
              simp [hq]
            · simp [heq, Ne.symm heq]
      rw [hsingle _ (hnodup.filter _)]
      simp only [List.mem_filter, hmem, true_and, decide_eq_true_eq, ne_eq]
      by_cases heq : p = sender
      · simp [heq]
      · simp [heq, Ne.symm heq]

/-- Nothing is done on the other cables. -/
theorem framesAt_of_notMem {c : Cable} (h : t.On W c) (phase : Phase) {p : Place}
    (hp : p ∉ c.places) : t.framesAt W phase p = [] := by
  unfold framesAt
  split
  · next sender f hframe =>
      rw [if_neg]
      rintro rfl
      exact hp (frame_sender_mem h hframe)
  · rfl

theorem heldAt_of_notMem {c : Cable} (h : t.On W c) (phase : Phase) {p : Place}
    (hp : p ∉ c.places) : t.heldAt W phase p = fun _ => [] := by
  funext ip
  rw [heldAt, if_neg]
  rintro ⟨-, rfl, -⟩
  exact hp h.x_mem

theorem outAfter_of_ne (phase : Phase) (out : Place → List IPv4Datagram) {p : Place}
    (hp : p ≠ t.y) : t.outAfter phase out p = out p := by
  unfold outAfter
  split
  · exact Function.update_of_ne hp ..
  · rfl

-- ============================================================================
-- One exchange
-- ============================================================================

/-- An ARP message is read from the frame that carries it. -/
theorem arp_arpFrame (p : Place) {opcode : UInt16}
    (hopcode : opcode = ARPMessage.opcodeRequest ∨ opcode = ARPMessage.opcodeReply)
    (target : EthernetAddress) (ip : Address) (address : EthernetAddress) :
    (W.arpFrame p (W.message p opcode target ip) address).arp =
      some (W.message p opcode target ip) := by
  have hsupported : (W.message p opcode target ip).supported = true := by
    simp [ARPMessage.supported, Plan.message, hopcode, ARPMessage.typeEthernet]
  have hbuffer : (W.arpFrame p (W.message p opcode target ip) address).payload.toBuffer =
      .ok (W.message p opcode target ip).wireBytes := rfl
  have htype : (W.arpFrame p (W.message p opcode target ip) address).header.type =
      EthernetHeader.typeARP := rfl
  rw [EthernetFrame.arp, if_pos htype, hbuffer]
  simp only [ARPMessage.parse_wireBytes hsupported, if_true]

/-- The payload of such a frame is one buffer. -/
theorem concatenate_arpFrame (p : Place) (arp : ARPMessage) (address : EthernetAddress) :
    ({ W.arpFrame p arp address with
      payload := [(W.arpFrame p arp address).payload.flatten] } : EthernetFrame) =
      W.arpFrame p arp address := by
  rw [Plan.arpFrame, List.flatten_singleton]

theorem deliver_singleton {a a' : AsyncNetworkInterface} {f : EthernetFrame}
    (h : a.recvFrameAsync { f with payload := [f.payload.flatten] } = (.ok (), a')) :
    AsyncNetworkInterface.deliver [f] a = .ok a' := by
  rw [AsyncNetworkInterface.deliver, h]
  rfl

variable {c : Cable} {p : Place} {out : Place → List IPv4Datagram} {a : AsyncNetworkInterface}

/-- The frames that the interface answers an ARP message with, by the plan. -/
theorem replies_request (hW : W.Proper) (h : t.On W c) (hp : p ∈ c.places) {frames held out'}
    (ha : Station W p frames held out' a) :
    a.replies (W.request t.x t.y).header (W.message t.x ARPMessage.opcodeRequest .zero (W.ip t.y)) =
      if p = t.y then [W.reply t.y t.x] else [] := by
  unfold NetworkInterface.replies
  by_cases hy : p = t.y
  · subst hy
    have hasks : a.Asks (W.request t.x t.y).header
        (W.message t.x ARPMessage.opcodeRequest .zero (W.ip t.y)) := ⟨rfl, rfl, ha.ipAddress.symm⟩
    rw [if_pos hasks, if_pos rfl, NetworkInterface.arpFrame, NetworkInterface.constructArpMessage,
      ha.ethernetAddress, ha.ipAddress]
    rfl
  · rw [if_neg hy, if_neg]
    rintro ⟨-, -, htarget⟩
    have hip : W.ip t.y = W.ip p := htarget.trans ha.ipAddress
    exact hy (hW.ip_inj c h.cable p hp t.y h.y_mem hip.symm)

theorem replies_reply (a : AsyncNetworkInterface) :
    a.replies (W.reply t.y t.x).header
      (W.message t.y ARPMessage.opcodeReply (W.eth t.x) (W.ip t.x)) = [] := by
  unfold NetworkInterface.replies
  rw [if_neg]
  rintro ⟨-, hopcode, -⟩
  exact absurd hopcode (show ARPMessage.opcodeReply ≠ ARPMessage.opcodeRequest by decide)

/-- The one who sends the frame hears nothing. -/
theorem hears_own (h : t.On W c) {phase : Phase} {f : EthernetFrame}
    (hframe : t.frame W phase = some (p, f))
    (ha : Station W p (t.framesAt W phase p) (t.heldAt W phase p) (out p) a) :
    Station W p (t.framesAt W phase.next p) (t.heldAt W phase.next p) (t.outAfter phase out p)
      (a.clear (t.framesAt W phase p)) := by
  have hnext : t.framesAt W phase.next p = [] ∧ t.heldAt W phase.next p = t.heldAt W phase p ∧
      t.outAfter phase out p = out p := by
    cases phase with
    | asking =>
        obtain ⟨rfl, -⟩ := Prod.mk.inj (Option.some.inj hframe)
        exact ⟨if_neg h.ne, funext fun ip => by simp [heldAt, Phase.next], rfl⟩
    | answered =>
        obtain ⟨rfl, -⟩ := Prod.mk.inj (Option.some.inj hframe)
        exact ⟨if_neg h.ne.symm, funext fun ip => by simp [heldAt, h.ne.symm], rfl⟩
    | sending =>
        obtain ⟨rfl, -⟩ := Prod.mk.inj (Option.some.inj hframe)
        exact ⟨rfl, funext fun ip => by simp [heldAt, Phase.next], outAfter_of_ne _ _ h.ne⟩
    | done => cases hframe
  rw [hnext.1, hnext.2.1, hnext.2.2]
  exact Station.clear (by rwa [List.append_nil])

/-- The others hear the request, and the one who is asked answers. -/
theorem hears_request (hW : W.Proper) (h : t.On W c) (hp : p ∈ c.places) (hx : p ≠ t.x)
    (ha : Station W p (t.framesAt W .asking p) (t.heldAt W .asking p) (out p) a) :
    ∃ a', AsyncNetworkInterface.deliver [W.request t.x t.y] a = .ok a' ∧
      Station W p (t.framesAt W .asking p ++ t.framesAt W .answered p) (t.heldAt W .answered p)
        (out p) a' := by
  obtain ⟨a', hrecv, ha'⟩ := ha.recvArp (arp_arpFrame t.x (Or.inl rfl) .zero (W.ip t.y) .broadcast)
    ⟨c, h.cable, hp, h.x_mem⟩ rfl rfl
  refine ⟨a', deliver_singleton (by rw [Plan.request, concatenate_arpFrame]; exact hrecv), ?_⟩
  have hheld : ∀ phase, t.heldAt W phase p = fun _ => [] := by
    intro phase
    funext ip
    simp [heldAt, hx]
  rw [show W.arpFrame t.x _ _ = W.request t.x t.y from rfl, replies_request hW h hp ha] at ha'
  simp only [hheld, List.map_nil, List.nil_append, ite_self] at ha' ⊢
  exact ha'

/-- The others hear the reply, and the one who asked sends what was held back. -/
theorem hears_reply (h : t.On W c) (hp : p ∈ c.places)
    (ha : Station W p (t.framesAt W .answered p) (t.heldAt W .answered p) (out p) a) :
    ∃ a', AsyncNetworkInterface.deliver [W.reply t.y t.x] a = .ok a' ∧
      Station W p (t.framesAt W .answered p ++ t.framesAt W .sending p) (t.heldAt W .sending p)
        (out p) a' := by
  obtain ⟨a', hrecv, ha'⟩ := ha.recvArp
    (arp_arpFrame t.y (Or.inr rfl) (W.eth t.x) (W.ip t.x) (W.eth t.x))
    ⟨c, h.cable, hp, h.y_mem⟩ rfl rfl
  refine ⟨a', deliver_singleton (by rw [Plan.reply, concatenate_arpFrame]; exact hrecv), ?_⟩
  have hframes : (t.heldAt W .answered p (W.ip t.y)).map (W.datagramFrame p t.y) =
      t.framesAt W .sending p := by
    by_cases hx : p = t.x <;> simp [heldAt, framesAt, frame, hx]
  have hheld : (fun ip => if ip = W.ip t.y then [] else t.heldAt W .answered p ip) =
      t.heldAt W .sending p := by
    funext ip
    by_cases hip : ip = W.ip t.y <;> simp [heldAt, hip]
  rw [show W.arpFrame t.y _ _ = W.reply t.y t.x from rfl, replies_reply, hframes,
    List.append_nil, hheld] at ha'
  exact ha'

/-- The others hear the datagram, and the one it is for receives it. -/
theorem hears_datagram (hW : W.Proper) (h : t.On W c) (hp : p ∈ c.places)
    (ha : Station W p (t.framesAt W .sending p) (t.heldAt W .sending p) (out p) a) :
    ∃ a', AsyncNetworkInterface.deliver [W.datagramFrame t.x t.y t.dgram] a = .ok a' ∧
      Station W p (t.framesAt W .sending p) (t.heldAt W .sending p) (t.outAfter .sending out p)
        a' := by
  obtain ⟨a', hrecv, ha'⟩ := ha.recvDatagram t.x t.y h.encodable
  refine ⟨a', deliver_singleton hrecv, ?_⟩
  have hout : (out p ++ if W.eth t.y = W.eth p then [t.dgram.arrived] else []) =
      t.outAfter .sending out p := by
    by_cases hy : p = t.y
    · simp [outAfter, hy]
    · rw [outAfter_of_ne _ _ hy, if_neg, List.append_nil]
      exact fun heth => hy (hW.eth_inj c h.cable p hp t.y h.y_mem heth.symm)
  rwa [hout] at ha'

/-- What an interface on the cable makes of what it hears in an exchange. -/
theorem hears (hW : W.Proper) (h : t.On W c) (hp : p ∈ c.places) (phase : Phase)
    (ha : Station W p (t.framesAt W phase p) (t.heldAt W phase p) (out p) a) :
    ∃ a', AsyncNetworkInterface.deliver
          ((c.places.filter (· ≠ p)).flatMap (t.framesAt W phase)) a = .ok a' ∧
      Station W p (t.framesAt W phase.next p) (t.heldAt W phase.next p)
        (t.outAfter phase out p) (a'.clear (t.framesAt W phase p)) := by
  rw [framesAt_others (hW.nodup c h.cable) h]
  by_cases hown : ∃ f, t.frame W phase = some (p, f)
  · obtain ⟨f, hframe⟩ := hown
    refine ⟨a, ?_, hears_own h hframe ha⟩
    simp only [hframe, if_true]
    rfl
  · cases phase with
    | asking =>
        have hx : p ≠ t.x := by
          rintro rfl
          exact hown ⟨_, rfl⟩
        simp only [frame, if_neg hx]
        exact (hears_request hW h hp hx ha).imp fun a' ha' => ⟨ha'.1, Station.clear ha'.2⟩
    | answered =>
        have hy : p ≠ t.y := by
          rintro rfl
          exact hown ⟨_, rfl⟩
        simp only [frame, if_neg hy]
        exact (hears_reply h hp ha).imp fun a' ha' => ⟨ha'.1, Station.clear ha'.2⟩
    | sending =>
        have hx : p ≠ t.x := by
          rintro rfl
          exact hown ⟨_, rfl⟩
        have hheld : t.heldAt W .done p = t.heldAt W .sending p := by
          funext ip
          simp [heldAt]
        simp only [frame, if_neg hx, Phase.next, hheld]
        exact (hears_datagram hW h hp ha).imp fun a' ha' =>
          ⟨ha'.1, Station.clear (by rw [framesAt, frame]; exact (List.append_nil _).symm ▸ ha'.2)⟩
    | done => exact ⟨a, rfl, Station.clear ha⟩

-- ============================================================================
-- The start
-- ============================================================================

/-- An interface at rest sends a datagram to a neighbour: it asks for the address, or knows
    it and sends the frame. -/
theorem starts (hW : W.Proper) (h : t.On W c) {out : List IPv4Datagram}
    (ha : Station W t.x [] (fun _ => []) out a) :
    ∃ n phase, a.sendDatagram t.dgram (W.ip t.y) = .ok n ∧ (phase = .asking ∨ phase = .sending) ∧
      Station W t.x (t.framesAt W phase t.x) (t.heldAt W phase t.x) out
        { a with toNetworkInterface := n } := by
  obtain ⟨n, hn⟩ := NetworkInterface.sendDatagram_ok (n := a.toNetworkInterface) h.serializes
    (W.ip t.y)
  refine ⟨n, ?_⟩
  cases NetworkInterface.acts_of_sendDatagram hn with
  | @forward _ _ cached hcached =>
      obtain ⟨q, hq, hip, heth⟩ := ha.truthful _ cached hcached
      obtain rfl := hW.mate_eq hq ⟨c, h.cable, h.x_mem, h.y_mem⟩ hip
      have hheld : t.heldAt W .sending t.x = fun _ => [] := by
        funext ip
        simp [heldAt]
      refine ⟨.sending, hn, Or.inr rfl, ha.ethernetAddress, ha.ipAddress, ?_, ?_, ?_,
        ha.datagramsOut, ha.truthful, ?_⟩
      · show a.framesOut ++ [a.datagramFrame t.dgram.wireBytes cached.address] = _
        rw [ha.framesOut, NetworkInterface.datagramFrame, ha.ethernetAddress, ← heth]
        simp [framesAt, frame, Plan.datagramFrame]
      · rw [hheld]
        exact ha.pending
      · rw [hheld]
        exact ha.serializes
      · rw [hheld]
        exact ha.answered
  | ignore hcached htimer => exact absurd ((ha.answered _ htimer).resolve_right (by simp)) hcached
  | ask hcached htimer =>
      refine ⟨.asking, hn, Or.inl rfl, ha.ethernetAddress, ha.ipAddress, ?_, fun ip => ?_,
        fun ip d hd => ?_, ha.datagramsOut, ha.truthful, fun ip htimer' => ?_⟩
      · show a.framesOut ++ [a.request (W.ip t.y)] = _
        rw [ha.framesOut, NetworkInterface.request, NetworkInterface.arpFrame,
          NetworkInterface.constructArpMessage, ha.ethernetAddress, ha.ipAddress]
        simp [framesAt, frame, Plan.request, Plan.arpFrame, Plan.message]
      · show ((a.datagramQueue.insert (W.ip t.y) _).lookup ip).getD [] = _
        rw [NetworkInterface.getD_lookup_insert, ha.pending]
        by_cases hip : ip = W.ip t.y
        · simp [heldAt, hip]
        · rw [if_neg hip]
          exact (ha.pending ip).trans (by simp [heldAt, hip])
      · unfold heldAt at hd
        split at hd
        · obtain rfl := List.mem_singleton.mp hd
          exact h.serializes
        · cases hd
      · rcases (AList.mem_insert _).mp htimer' with rfl | htimer'
        · exact Or.inr (by simp [heldAt])
        · exact (ha.answered ip htimer').imp id fun hne => absurd rfl hne

end Transfer

end Sponge
