/-
  Sponge.NetworkInterface.Delivery

  What becomes of the datagrams handed to an interface, over whole runs.

  `InterfaceTrace` records, beside the interface, the frames it has pushed, the
  datagrams it was handed, the Ethernet address of the last ARP message heard from each
  IP address, and for each IPv4 frame the datagram and next hop it was sent for.
  Every operation balances the books of each next hop (`balance`): what it releases
  and what is held back afterwards are what was held back before and what it accepts.
  The order, single delivery and addressing of datagrams follow.

  What an operation accepts is where the source loses datagrams: one that is handed over
  while a request for its next hop is still recent is neither sent nor queued.
-/

import Sponge.NetworkInterface.Basic

namespace Sponge

open Lib (Map Run Guarded)

/-- The datagrams of a list that are meant for a next hop. -/
def towards (nextHop : Address) (dgrams : List (Address × IPv4Datagram)) : List IPv4Datagram :=
  (dgrams.filter fun d => d.1 = nextHop).map Prod.snd

@[simp] theorem towards_nil (nextHop : Address) : towards nextHop [] = [] := rfl

@[simp] theorem towards_append (nextHop : Address) (l l' : List (Address × IPv4Datagram)) :
    towards nextHop (l ++ l') = towards nextHop l ++ towards nextHop l' := by
  simp [towards]

theorem towards_map (nextHop ip : Address) (dgrams : List IPv4Datagram) :
    towards nextHop (dgrams.map (ip, ·)) = if nextHop = ip then dgrams else [] := by
  split
  · rename_i heq
    induction dgrams with
    | nil => rfl
    | cons d dgrams ih => simpa [towards, heq] using ih
  · rename_i hne
    simp [towards, Ne.symm hne]

theorem towards_singleton (nextHop ip : Address) (dgram : IPv4Datagram) :
    towards nextHop [(ip, dgram)] = if nextHop = ip then [dgram] else [] :=
  towards_map nextHop ip [dgram]

/-- The datagram an operation hands over. -/
def InterfaceOp.handed : InterfaceOp → List (Address × IPv4Datagram)
  | .sendDatagram dgram nextHop => [(nextHop, dgram)]
  | _ => []

/-- The addresses heard so far, after an operation. -/
def InterfaceOp.heard (heard : Map Address EthernetAddress) :
    InterfaceOp → Map Address EthernetAddress
  | .recvFrame frame =>
      match frame.arp with
      | some arp => heard.insert arp.senderIpAddress arp.senderEthernetAddress
      | none => heard
  | _ => heard

/-- `type == TYPE_IPv4` -/
def EthernetFrame.isIPv4 (frame : EthernetFrame) : Bool :=
  frame.header.type = EthernetHeader.typeIPv4

namespace NetworkInterface

/-- The frames an operation pushes. -/
def newFrames (n : NetworkInterface) (op : InterfaceOp) : List EthernetFrame :=
  (n.step op).framesOut.drop n.framesOut.length

/-- The datagrams an operation sends, with their next hops. -/
def releases (n : NetworkInterface) : InterfaceOp → List (Address × IPv4Datagram)
  | .sendDatagram dgram nextHop =>
      if nextHop ∈ n.cachedEthernetAddresses then [(nextHop, dgram)] else []
  | .recvFrame frame =>
      match frame.arp with
      | some arp => (n.pending arp.senderIpAddress).map (arp.senderIpAddress, ·)
      | none => []
  | _ => []

/-- A datagram that is handed over is sent or queued: its next hop is known, or no
    request for it is recent. -/
def Accepts (n : NetworkInterface) : InterfaceOp → Prop
  | .sendDatagram _ nextHop =>
      nextHop ∈ n.cachedEthernetAddresses ∨ nextHop ∉ n.arpMessageTimers
  | _ => True

instance (n : NetworkInterface) : (op : InterfaceOp) → Decidable (n.Accepts op)
  | .sendDatagram _ nextHop =>
      inferInstanceAs (Decidable (nextHop ∈ n.cachedEthernetAddresses ∨ nextHop ∉ n.arpMessageTimers))
  | .recvFrame _ => isTrue trivial
  | .tick _ => isTrue trivial
  | .popFrame => isTrue trivial

/-- No IP address has both a cached address and a queue. -/
def Separate (n : NetworkInterface) : Prop :=
  ∀ ip, ¬ (ip ∈ n.cachedEthernetAddresses ∧ ip ∈ n.datagramQueue)

variable {n n' : NetworkInterface} {op : InterfaceOp}

-- ============================================================================
-- One operation
-- ============================================================================

theorem Acts.ethernetAddress_eq (h : Acts n op n') : n'.ethernetAddress = n.ethernetAddress := by
  cases h <;> rfl

theorem pending_of_notMem {nextHop : Address} (h : nextHop ∉ n.datagramQueue) :
    n.pending nextHop = [] := by
  rw [pending, AList.lookup_eq_none.mpr h]
  rfl

/-- What the queues hold after `ask`. -/
theorem getD_lookup_insert (queue : Map Address (List IPv4Datagram)) (nextHop ip : Address)
    (dgrams : List IPv4Datagram) :
    ((queue.insert nextHop dgrams).lookup ip).getD [] =
      if ip = nextHop then dgrams else (queue.lookup ip).getD [] := by
  rw [Map.lookup_insert_eq_ite]
  split <;> rfl

/-- What the queues hold after `learn`. -/
theorem getD_lookup_erase (queue : Map Address (List IPv4Datagram)) (nextHop ip : Address) :
    ((queue.erase nextHop).lookup ip).getD [] =
      if ip = nextHop then [] else (queue.lookup ip).getD [] := by
  rw [Map.lookup_erase_eq_ite]
  split <;> rfl

/-- The books of a next hop: what is released and what is held back afterwards are what
    was held back before and what is accepted. -/
theorem Acts.balance (h : Acts n op n') (hsep : n.Separate) (nextHop : Address) :
    towards nextHop (n.releases op) ++ n'.pending nextHop =
      n.pending nextHop ++ if n.Accepts op then towards nextHop op.handed else [] := by
  cases h with
  | @forward dgram ip cached hcached =>
      have hmem : ip ∈ n.cachedEthernetAddresses := Map.mem_of_lookup hcached
      have haccepts : n.Accepts (.sendDatagram dgram ip) := Or.inl hmem
      rw [if_pos haccepts, releases, if_pos hmem]
      show towards nextHop [(ip, dgram)] ++ n.pending nextHop =
        n.pending nextHop ++ towards nextHop [(ip, dgram)]
      rw [towards_singleton]
      split
      · -- a cached address has nothing held back
        rename_i heq
        subst heq
        rw [pending_of_notMem fun hqueue => hsep nextHop ⟨hmem, hqueue⟩]
        simp
      · simp
  | @ignore dgram ip hcached htimer =>
      have hrefuses : ¬ n.Accepts (.sendDatagram dgram ip) := by
        rintro (hcached' | htimer')
        · exact hcached hcached'
        · exact htimer' htimer
      rw [if_neg hrefuses, releases, if_neg hcached, List.append_nil]
      rfl
  | @ask dgram ip hcached htimer =>
      have haccepts : n.Accepts (.sendDatagram dgram ip) := Or.inr htimer
      rw [if_pos haccepts, releases, if_neg hcached, towards_nil, List.nil_append]
      show ((n.datagramQueue.insert ip _).lookup nextHop).getD [] = _ ++ towards nextHop [(ip, dgram)]
      rw [getD_lookup_insert, towards_singleton]
      split
      · rename_i heq
        rw [heq]
      · rw [List.append_nil]
        rfl
  | @pass frame harp =>
      simp [releases, harp, InterfaceOp.handed]
  | @learn frame arp harp =>
      simp only [releases, harp]
      show _ ++ ((n.datagramQueue.erase _).lookup nextHop).getD [] = _ ++ if True then [] else []
      rw [if_pos trivial, List.append_nil, getD_lookup_erase, towards_map]
      split
      · rename_i heq
        rw [heq, List.append_nil]
      · rw [List.nil_append]
        rfl
  | tick ms =>
      show [] ++ n.pending nextHop = n.pending nextHop ++ if True then [] else []
      simp
  | popFrame =>
      show [] ++ n.pending nextHop = n.pending nextHop ++ if True then [] else []
      simp

/-- Cache and queue stay separate. -/
theorem Acts.separate (h : Acts n op n') (hsep : n.Separate) : n'.Separate := by
  cases h with
  | @ask dgram ip hcached htimer =>
      rintro ip' ⟨hcached', hqueue'⟩
      rcases (AList.mem_insert _).mp hqueue' with rfl | hqueue
      · exact hcached hcached'
      · exact hsep ip' ⟨hcached', hqueue⟩
  | @learn frame arp harp =>
      rintro ip' ⟨hcached', hqueue'⟩
      obtain ⟨hne, hqueue⟩ := AList.mem_erase.mp hqueue'
      rcases (AList.mem_insert _).mp hcached' with heq | hcached
      · exact hne heq
      · exact hsep ip' ⟨hcached, hqueue⟩
  | tick ms =>
      rintro ip' ⟨hcached', hqueue'⟩
      exact hsep ip' ⟨Map.mem_of_mem_sweep hcached', hqueue'⟩
  | _ => exact hsep

/-- What is queued goes on serializing. -/
theorem Acts.queueSound (h : Acts n op n') (hop : op.Sound) (hqueue : n.QueueSound) :
    n'.QueueSound := by
  cases h with
  | @ask dgram ip hcached htimer =>
      intro nextHop d hd
      have hd : d ∈ ((n.datagramQueue.insert ip _).lookup nextHop).getD [] := hd
      rw [getD_lookup_insert] at hd
      split at hd
      · rcases List.mem_append.mp hd with hd | hd
        · exact hqueue ip d hd
        · obtain rfl := List.mem_singleton.mp hd
          exact hop
      · exact hqueue nextHop d hd
  | @learn frame arp harp =>
      intro nextHop d hd
      have hd : d ∈ ((n.datagramQueue.erase _).lookup nextHop).getD [] := hd
      rw [getD_lookup_erase] at hd
      split at hd
      · cases hd
      · exact hqueue nextHop d hd
  | _ => exact hqueue

/-- The cache holds what was heard last. -/
def CacheHeard (n : NetworkInterface) (heard : Map Address EthernetAddress) : Prop :=
  ∀ ip cached, n.cachedEthernetAddresses.lookup ip = some cached →
    heard.lookup ip = some cached.address

theorem Acts.cacheHeard (h : Acts n op n') {heard : Map Address EthernetAddress}
    (hheard : n.CacheHeard heard) : n'.CacheHeard (op.heard heard) := by
  cases h with
  | @pass frame harp =>
      simp only [InterfaceOp.heard, harp]
      exact hheard
  | @learn frame arp harp =>
      intro ip cached hcached
      have hcached : (n.cachedEthernetAddresses.insert arp.senderIpAddress _).lookup ip =
        some cached := hcached
      simp only [InterfaceOp.heard, harp]
      rw [Map.lookup_insert_eq_ite] at hcached ⊢
      split at hcached
      · rename_i hip
        rw [if_pos hip, ← Option.some.inj hcached]
      · rename_i hip
        rw [if_neg hip]
        exact hheard ip cached hcached
  | tick ms =>
      intro ip cached hcached
      have hcached : (Map.sweep _ n.cachedEthernetAddresses).lookup ip = some cached := hcached
      rw [Map.lookup_sweep] at hcached
      obtain ⟨cached', hlookup, hage⟩ := Option.bind_eq_some_iff.mp hcached
      -- ageing leaves the address alone
      have haddress : cached.address = cached'.address := by
        obtain ⟨cacheTime, -, rfl⟩ := Option.map_eq_some_iff.mp hage
        rfl
      rw [haddress]
      exact hheard ip cached' hlookup
  | _ => exact hheard

/-- The frame that carries a datagram to where its next hop was heard last. -/
def deliveryFrame (n : NetworkInterface) (heard : Map Address EthernetAddress)
    (d : Address × IPv4Datagram) : EthernetFrame :=
  n.datagramFrame d.2.wireBytes ((heard.lookup d.1).getD .zero)

theorem isIPv4_datagramFrame (n : NetworkInterface) (payload : BufferList)
    (address : EthernetAddress) : (n.datagramFrame payload address).isIPv4 = true := rfl

theorem isIPv4_arpFrame (n : NetworkInterface) (payload : Buffer) (address : EthernetAddress) :
    (n.arpFrame payload address).isIPv4 = false := by
  rw [EthernetFrame.isIPv4, decide_eq_false_iff_not]
  show EthernetHeader.typeARP ≠ EthernetHeader.typeIPv4
  decide

theorem filter_replies (n : NetworkInterface) (header : EthernetHeader) (arp : ARPMessage) :
    (n.replies header arp).filter (·.isIPv4) = [] := by
  unfold replies
  split
  · simp [isIPv4_arpFrame]
  · rfl

/-- The IPv4 frames an operation pushes carry the datagrams it releases, each to where
    its next hop was heard last. -/
theorem Acts.frames (h : Acts n op n') {heard : Map Address EthernetAddress}
    (hheard : n.CacheHeard heard) :
    (n'.framesOut.drop n.framesOut.length).filter (·.isIPv4) =
        (n.releases op).map (n.deliveryFrame (op.heard heard)) ∧
      ∀ d ∈ n.releases op, ((op.heard heard).lookup d.1).isSome := by
  cases h with
  | @forward dgram ip cached hcached =>
      have hmem : ip ∈ n.cachedEthernetAddresses := Map.mem_of_lookup hcached
      have hlookup := hheard ip cached hcached
      rw [releases, if_pos hmem]
      simp only [push, List.drop_left, InterfaceOp.heard]
      constructor
      · simp [isIPv4_datagramFrame, deliveryFrame, hlookup]
      · simp [hlookup]
  | ignore hcached htimer =>
      rw [releases, if_neg hcached, List.drop_length]
      simp
  | ask hcached htimer =>
      rw [releases, if_neg hcached]
      simp [push, request, isIPv4_arpFrame]
  | pass harp =>
      simp only [releases, harp]
      simp
  | @learn frame arp harp =>
      have hlookup : ((InterfaceOp.recvFrame frame).heard heard).lookup arp.senderIpAddress =
          some arp.senderEthernetAddress := by
        simp only [InterfaceOp.heard, harp]
        exact AList.lookup_insert _
      simp only [releases, harp]
      constructor
      · show ((n.framesOut ++ (_ ++ _)).drop _).filter _ = _
        rw [List.drop_left, List.filter_append, filter_replies, List.append_nil, List.map_map,
          List.filter_eq_self.mpr]
        · apply List.map_congr_left
          intro d _
          simp [deliveryFrame, hlookup]
        · intro frame hframe
          obtain ⟨d, -, rfl⟩ := List.mem_map.mp hframe
          exact isIPv4_datagramFrame ..
      · intro d hd
        obtain ⟨dgram, -, rfl⟩ := List.mem_map.mp hd
        rw [hlookup]
        rfl
  | tick ms =>
      show (n.framesOut.drop _).filter _ = [] ∧ _
      simp [releases]
  | popFrame =>
      show (n.framesOut.tail.drop _).filter _ = [] ∧ _
      rw [List.drop_eq_nil_of_le (by simp)]
      simp [releases]

end NetworkInterface

-- ============================================================================
-- Runs
-- ============================================================================

/-- An IPv4 frame, what it was sent for, and the Ethernet address that was heard last
    from the next hop when it was. -/
structure Delivery where
  nextHop : Address
  dgram : IPv4Datagram
  frame : EthernetFrame
  heard : Option EthernetAddress

/-- An interface with the history of what went in and out. -/
structure InterfaceTrace where
  iface : NetworkInterface
  pushed : List EthernetFrame := []
  handed : List (Address × IPv4Datagram) := []
  sent : List Delivery := []
  heard : Map Address EthernetAddress := ∅

namespace InterfaceTrace

/-- A fresh interface. -/
def new (ethernetAddress : EthernetAddress) (ipAddress : Address) : InterfaceTrace :=
  { iface := .new ethernetAddress ipAddress }

/-- An operation, with the IPv4 frames it pushes matched to the datagrams it sends. -/
def step (t : InterfaceTrace) (op : InterfaceOp) : InterfaceTrace :=
  let frames := t.iface.newFrames op
  let heard := op.heard t.heard
  { iface := t.iface.step op
    pushed := t.pushed ++ frames
    handed := t.handed ++ op.handed
    sent := t.sent ++ List.zipWith
      (fun d frame => ⟨d.1, d.2, frame, heard.lookup d.1⟩)
      (t.iface.releases op) (frames.filter (·.isIPv4))
    heard }

/-- The datagrams handed over for a next hop, in order. -/
def handedTo (t : InterfaceTrace) (nextHop : Address) : List IPv4Datagram :=
  towards nextHop t.handed

/-- The datagrams sent to a next hop, in order. -/
def sentTo (t : InterfaceTrace) (nextHop : Address) : List IPv4Datagram :=
  towards nextHop (t.sent.map fun s => (s.nextHop, s.dgram))

/-- What a run knows about its deliveries. -/
structure DeliveryInv (t : InterfaceTrace) : Prop where
  queue_sound : t.iface.QueueSound
  separate : t.iface.Separate
  cache_heard : t.iface.CacheHeard t.heard
  frames_eq : t.pushed.filter (·.isIPv4) = t.sent.map (·.frame)
  addressed : ∀ s ∈ t.sent, s.frame.header.src = t.iface.ethernetAddress ∧
    s.heard = some s.frame.header.dst ∧ s.dgram.serialize = .ok s.frame.payload
  accounted : ∀ nextHop,
    (t.sentTo nextHop ++ t.iface.pending nextHop).Sublist (t.handedTo nextHop)

theorem deliveryInv_new (ethernetAddress : EthernetAddress) (ipAddress : Address) :
    (new ethernetAddress ipAddress).DeliveryInv where
  queue_sound := by
    intro nextHop d hd
    cases hd
  separate := fun ip h => AList.notMem_empty ip h.1
  cache_heard := by
    intro ip cached hcached
    cases hcached
  frames_eq := rfl
  addressed := by
    intro s hs
    cases hs
  accounted := fun _ => List.Sublist.refl _

variable {t : InterfaceTrace} {op : InterfaceOp}

/-- The deliveries of one operation. -/
theorem DeliveryInv.sent_step (h : t.DeliveryInv) (hop : op.Sound) :
    (t.step op).sent = t.sent ++ (t.iface.releases op).map fun d =>
      ⟨d.1, d.2, t.iface.deliveryFrame (op.heard t.heard) d, (op.heard t.heard).lookup d.1⟩ := by
  have hacts := NetworkInterface.acts_step hop h.queue_sound
  obtain ⟨hframes, -⟩ := hacts.frames h.cache_heard
  show t.sent ++ List.zipWith _ _ (((t.iface.step op).framesOut.drop _).filter _) = _
  rw [hframes, List.zipWith_map_right, List.zipWith_self]

theorem releases_serialize {n : NetworkInterface} (hop : op.Sound) (hqueue : n.QueueSound) :
    ∀ d ∈ n.releases op, d.2.Serializes := by
  intro d hd
  cases op with
  | sendDatagram dgram nextHop =>
      rw [NetworkInterface.releases] at hd
      split at hd
      · obtain rfl := List.mem_singleton.mp hd
        exact hop
      · cases hd
  | recvFrame frame =>
      rw [NetworkInterface.releases] at hd
      split at hd
      · obtain ⟨dgram, hdgram, rfl⟩ := List.mem_map.mp hd
        exact hqueue _ dgram hdgram
      · cases hd
  | tick ms => cases hd
  | popFrame => cases hd

/-- The books of a next hop over one operation. -/
theorem DeliveryInv.books (h : t.DeliveryInv) (hop : op.Sound) (nextHop : Address) :
    (t.step op).sentTo nextHop ++ (t.step op).iface.pending nextHop =
      t.sentTo nextHop ++ t.iface.pending nextHop ++
        if t.iface.Accepts op then towards nextHop op.handed else [] := by
  have hacts := NetworkInterface.acts_step hop h.queue_sound
  have hsent : (t.step op).sentTo nextHop =
      t.sentTo nextHop ++ towards nextHop (t.iface.releases op) := by
    rw [sentTo, h.sent_step hop, List.map_append, List.map_map, towards_append]
    congr 2
    exact List.map_id _
  rw [hsent, List.append_assoc, List.append_assoc]
  exact congrArg _ (hacts.balance h.separate nextHop)

theorem DeliveryInv.step (h : t.DeliveryInv) (hop : op.Sound) : (t.step op).DeliveryInv := by
  have hacts := NetworkInterface.acts_step hop h.queue_sound
  obtain ⟨hframes, hheard⟩ := hacts.frames h.cache_heard
  refine
    { queue_sound := hacts.queueSound hop h.queue_sound
      separate := hacts.separate h.separate
      cache_heard := hacts.cacheHeard h.cache_heard
      frames_eq := ?_
      addressed := ?_
      accounted := ?_ }
  · show (t.pushed ++ (t.iface.step op).framesOut.drop _).filter _ = _
    rw [List.filter_append, hframes, h.frames_eq, h.sent_step hop, List.map_append, List.map_map]
    rfl
  · intro s hs
    have hown : (t.step op).iface.ethernetAddress = t.iface.ethernetAddress :=
      hacts.ethernetAddress_eq
    rw [hown]
    rw [h.sent_step hop] at hs
    rcases List.mem_append.mp hs with hs | hs
    · exact h.addressed s hs
    · obtain ⟨d, hd, rfl⟩ := List.mem_map.mp hs
      obtain ⟨address, haddress⟩ := Option.isSome_iff_exists.mp (hheard d hd)
      refine ⟨rfl, ?_, releases_serialize hop h.queue_sound d hd⟩
      show _ = some (((op.heard t.heard).lookup d.1).getD _)
      rw [haddress]
      rfl
  · intro nextHop
    rw [h.books hop nextHop]
    show List.Sublist _ (towards nextHop (t.handed ++ op.handed))
    rw [towards_append]
    refine (h.accounted nextHop).append ?_
    split
    · exact List.Sublist.refl _
    · exact List.nil_sublist _

/-- The operations of a run, each of which hands over only what serializes. -/
abbrev SoundRun (ethernetAddress : EthernetAddress) (ipAddress : Address) :
    List InterfaceOp → InterfaceTrace → Prop :=
  Run (Guarded (fun _ op => op.Sound) fun t op => some (t.step op)) (new ethernetAddress ipAddress)

theorem deliveryInv_run {ethernetAddress : EthernetAddress} {ipAddress : Address}
    {ops : List InterfaceOp} (h : SoundRun ethernetAddress ipAddress ops t) : t.DeliveryInv := by
  refine h.invariant (deliveryInv_new ..) ?_
  rintro t op u ht ⟨hop, hstep⟩
  obtain rfl := Option.some.inj hstep
  exact ht.step hop

-- ============================================================================
-- Order, single delivery and addressing
-- ============================================================================

/-- Delivery through ARP is ordered, single and correctly addressed: the IPv4 frames
    are those of `sent`, one each; the datagrams sent to a next hop are some of those
    handed over for it, each at most once and in order. -/
structure OrderedDelivery (t : InterfaceTrace) : Prop where
  separate : ∀ ip, ¬ (ip ∈ t.iface.cachedEthernetAddresses ∧ ip ∈ t.iface.datagramQueue)
  frames_eq : t.pushed.filter (·.isIPv4) = t.sent.map (·.frame)
  carried : ∀ s ∈ t.sent, s.dgram.serialize = .ok s.frame.payload
  ordered : ∀ nextHop, (t.sentTo nextHop).Sublist (t.handedTo nextHop)
  source : ∀ s ∈ t.sent, s.frame.header.src = t.iface.ethernetAddress
  destination : ∀ s ∈ t.sent, s.heard = some s.frame.header.dst

/-- Every run delivers in this way. -/
theorem orderedDelivery_run {ethernetAddress : EthernetAddress} {ipAddress : Address}
    {ops : List InterfaceOp} (h : SoundRun ethernetAddress ipAddress ops t) :
    t.OrderedDelivery := by
  have hinv := deliveryInv_run h
  refine
    { separate := hinv.separate
      frames_eq := hinv.frames_eq
      carried := fun s hs => (hinv.addressed s hs).2.2
      ordered := fun nextHop => ?_
      source := fun s hs => (hinv.addressed s hs).1
      destination := fun s hs => (hinv.addressed s hs).2.1 }
  exact (List.sublist_append_left ..).trans (hinv.accounted nextHop)

/-- A datagram without payload. -/
def bareDatagram (id : UInt16) : IPv4Datagram := { header := { len := 20, id } }

/-- A frame with an ARP reply from the IP address 2. -/
def replyFrame : EthernetFrame :=
  { header := { type := EthernetHeader.typeARP }
    payload := [ARPMessage.wireBytes
      { opcode := ARPMessage.opcodeReply, senderEthernetAddress := List.Vector.replicate 6 7,
        senderIpAddress := 2 }] }

instance : (op : InterfaceOp) → Decidable op.Sound
  | .sendDatagram dgram _ => inferInstanceAs (Decidable dgram.Serializes)
  | .recvFrame _ => isTrue trivial
  | .tick _ => isTrue trivial
  | .popFrame => isTrue trivial

/-- One datagram waits for the reply and another follows it. -/
theorem orderedDelivery_run_resolved :
    ∃ t, SoundRun .zero 1
        [.sendDatagram (bareDatagram 0) 2, .recvFrame replyFrame, .sendDatagram (bareDatagram 1) 2] t ∧
      t.sentTo 2 = [bareDatagram 0, bareDatagram 1] ∧ t.OrderedDelivery := by
  have hrun := Run.of_exec (fun _ op => op.Sound) (fun t op => some (step t op)) (new .zero 1)
    [.sendDatagram (bareDatagram 0) 2, .recvFrame replyFrame, .sendDatagram (bareDatagram 1) 2]
    (by decide)
  exact ⟨_, hrun, by decide +kernel, orderedDelivery_run hrun⟩

-- ============================================================================
-- No datagram is lost
-- ============================================================================

/-- Every datagram handed over has been pushed in an IPv4 frame or is held back for its
    next hop, and the next ARP message from there sends what is held back. -/
structure NoLoss (t : InterfaceTrace) : Prop where
  frames_eq : t.pushed.filter (·.isIPv4) = t.sent.map (·.frame)
  carried : ∀ s ∈ t.sent, s.dgram.serialize = .ok s.frame.payload
  accounted : ∀ nextHop, t.handedTo nextHop = t.sentTo nextHop ++ t.iface.pending nextHop
  released : ∀ frame arp, frame.arp = some arp →
    (t.iface.recvFrame frame).1 = .ok none ∧
    (t.iface.recvFrame frame).2.pending arp.senderIpAddress = [] ∧
    ∃ others, (t.iface.recvFrame frame).2.framesOut = t.iface.framesOut ++
      ((t.iface.pending arp.senderIpAddress).map
        (fun d => t.iface.datagramFrame d.wireBytes arp.senderEthernetAddress) ++ others)
  held : ∀ nextHop, ∀ d ∈ t.iface.pending nextHop, d.serialize = .ok d.wireBytes

theorem DeliveryInv.noLoss (h : t.DeliveryInv)
    (haccounted : ∀ nextHop, t.handedTo nextHop = t.sentTo nextHop ++ t.iface.pending nextHop) :
    t.NoLoss := by
  refine
    { frames_eq := h.frames_eq
      carried := fun s hs => (h.addressed s hs).2.2
      accounted := haccounted
      released := ?_
      held := h.queue_sound }
  intro frame arp harp
  rw [NetworkInterface.recvFrame_of_arp harp, NetworkInterface.recvArp_eq h.queue_sound]
  refine ⟨rfl, ?_, _, rfl⟩
  show ((t.iface.datagramQueue.erase _).lookup _).getD [] = []
  rw [NetworkInterface.getD_lookup_erase, if_pos rfl]

/-- Along every run nothing is lost exactly if every datagram is handed over when its next
    hop is known or no request for it is recent. -/
theorem noLoss_iff_accepts (ethernetAddress : EthernetAddress) (ipAddress : Address)
    (ops : List InterfaceOp) (t : InterfaceTrace) (h : SoundRun ethernetAddress ipAddress ops t) :
    (∀ ops' u, ops' <+: ops → SoundRun ethernetAddress ipAddress ops' u → u.NoLoss) ↔
      Run (Guarded (fun t op => op.Sound ∧ t.iface.Accepts op) fun t op => some (t.step op))
        (new ethernetAddress ipAddress) ops t := by
  have hinv : ∀ ops t,
      Run (Guarded (fun t op => op.Sound ∧ t.iface.Accepts op) fun t op => some (t.step op))
        (new ethernetAddress ipAddress) ops t →
      t.DeliveryInv ∧
        ∀ nextHop, t.handedTo nextHop = t.sentTo nextHop ++ t.iface.pending nextHop := by
    intro ops t hrun
    refine hrun.invariant (I := fun t => t.DeliveryInv ∧
      ∀ nextHop, t.handedTo nextHop = t.sentTo nextHop ++ t.iface.pending nextHop)
      ⟨deliveryInv_new .., fun _ => rfl⟩ ?_
    rintro t op u ⟨ht, haccounted⟩ ⟨⟨hop, haccepts⟩, hstep⟩
    obtain rfl := Option.some.inj hstep
    refine ⟨ht.step hop, fun nextHop => ?_⟩
    rw [ht.books hop, if_pos haccepts, ← haccounted]
    exact towards_append ..
  refine Run.always_iff (P := fun _ u => u.NoLoss) ?_ ?_ h
  · intro ops t hrun
    exact (hinv ops t hrun).1.noLoss (hinv ops t hrun).2
  · intro ops t op u hrun hop hrefuses hstep hnoLoss
    obtain rfl := Option.some.inj hstep
    obtain ⟨ht, haccounted⟩ := hinv ops t hrun
    cases op with
    | sendDatagram dgram nextHop =>
        -- the books show one datagram more handed over than sent or held back
        have hbooks := ht.books hop nextHop
        rw [if_neg hrefuses, List.append_nil, ← haccounted, ← hnoLoss.accounted] at hbooks
        have hhanded : (t.step (.sendDatagram dgram nextHop)).handedTo nextHop =
            t.handedTo nextHop ++ towards nextHop [(nextHop, dgram)] :=
          towards_append ..
        rw [hhanded, towards_singleton, if_pos rfl] at hbooks
        simpa using congrArg List.length hbooks
    | recvFrame frame => exact hrefuses trivial
    | tick ms => exact hrefuses trivial
    | popFrame => exact hrefuses trivial

/-- A datagram that waits for its reply is not lost. -/
theorem noLoss_iff_accepts_resolved :
    ∃ t, SoundRun .zero 1 [.sendDatagram (bareDatagram 0) 2, .tick 1000, .recvFrame replyFrame] t ∧
      t.sentTo 2 = [bareDatagram 0] ∧ t.NoLoss := by
  have hrun := Run.of_exec (fun t op => op.Sound ∧ t.iface.Accepts op)
    (fun t op => some (step t op)) (new .zero 1)
    [.sendDatagram (bareDatagram 0) 2, .tick 1000, .recvFrame replyFrame] (by decide)
  have hsound := hrun.mono fun _ _ _ h => And.intro h.1.1 h.2
  exact ⟨_, hsound, by decide +kernel,
    (noLoss_iff_accepts _ _ _ _ hsound).mpr hrun _ _ (List.prefix_refl _) hsound⟩

/-- The second of two datagrams that are handed over for the same unknown next hop is
    neither sent nor held back. -/
theorem noLoss_fails :
    ∃ t, SoundRun .zero 1
        [.sendDatagram (bareDatagram 0) 2, .sendDatagram (bareDatagram 1) 2, .recvFrame replyFrame]
        t ∧
      t.handedTo 2 = [bareDatagram 0, bareDatagram 1] ∧ t.sentTo 2 = [bareDatagram 0] ∧
      t.iface.pending 2 = [] ∧ ¬ t.NoLoss := by
  have hrun := Run.of_exec (fun _ op => op.Sound) (fun t op => some (step t op)) (new .zero 1)
    [.sendDatagram (bareDatagram 0) 2, .sendDatagram (bareDatagram 1) 2, .recvFrame replyFrame]
    (by decide)
  refine ⟨_, hrun, by decide +kernel, by decide +kernel, by decide +kernel, fun h => ?_⟩
  have haccounted := h.accounted 2
  revert haccounted
  decide +kernel

end InterfaceTrace

end Sponge
