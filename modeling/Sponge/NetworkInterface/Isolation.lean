/-
  Sponge.NetworkInterface.Isolation

  Frames that are for somebody else.

  `recv_frame` looks at the destination where it hands out a datagram and where it
  answers a request, but not where it learns: a valid ARP message is learned from, and the
  datagrams that wait for its sender are sent, whoever the frame was for.  Such a frame
  has no effect only if it tells nothing new, that is, if the sender's address is cached
  as it says and nothing waits for it (`Harmless`).

  States are compared by what the maps hold (`Alike`), and no operation tells states that
  are alike apart (`unwinding`).  So runs that differ in harmless frames for others behave
  identically, and there are no further cases (`isolated_iff_harmless`).
-/

import Sponge.Lib.Purge
import Sponge.NetworkInterface.Delivery

namespace Sponge

open Lib (Map)
open Lib.Purge (Along Unwinding Quiet)

/-- The operation brings a frame, with its payload in one buffer, that is neither for the
    address nor for everyone. -/
def InterfaceOp.Foreign (address : EthernetAddress) : InterfaceOp → Prop
  | .recvFrame frame =>
      frame.header.dst ≠ address ∧ frame.header.dst ≠ .broadcast ∧ frame.payload.length = 1
  | _ => False

instance (address : EthernetAddress) : (op : InterfaceOp) → Decidable (op.Foreign address)
  | .recvFrame _ => inferInstanceAs (Decidable (_ ∧ _ ∧ _))
  | .sendDatagram _ _ | .tick _ | .popFrame => isFalse id

/-- The other operations. -/
def InterfaceOp.own (address : EthernetAddress) (op : InterfaceOp) : Bool :=
  !decide (op.Foreign address)

namespace NetworkInterface

/-- What the owner of an interface gets back from an operation. -/
inductive Output
  | sent (result : Except Exn Unit)
  | received (result : Except Exn (Option IPv4Datagram))
  | ticked
  | popped (frame : Option EthernetFrame)

/-- What an operation gives back. -/
def output (n : NetworkInterface) : InterfaceOp → Output
  | .sendDatagram dgram nextHop => .sent ((n.sendDatagram dgram nextHop).map fun _ => ())
  | .recvFrame frame => .received (n.recvFrame frame).1
  | .tick _ => .ticked
  | .popFrame => .popped n.framesOut.head?

-- ============================================================================
-- States that are alike
-- ============================================================================

/-- The same frames, and the same entries in the three maps. -/
structure Alike (n n' : NetworkInterface) : Prop where
  ethernetAddress : n.ethernetAddress = n'.ethernetAddress
  ipAddressRaw : n.ipAddressRaw = n'.ipAddressRaw
  framesOut : n.framesOut = n'.framesOut
  cached : ∀ ip, n.cachedEthernetAddresses.lookup ip = n'.cachedEthernetAddresses.lookup ip
  queue : ∀ ip, n.datagramQueue.lookup ip = n'.datagramQueue.lookup ip
  timers : ∀ ip, n.arpMessageTimers.lookup ip = n'.arpMessageTimers.lookup ip

theorem alike_equivalence : Equivalence Alike where
  refl _ := ⟨rfl, rfl, rfl, fun _ => rfl, fun _ => rfl, fun _ => rfl⟩
  symm h := ⟨h.ethernetAddress.symm, h.ipAddressRaw.symm, h.framesOut.symm,
    fun ip => (h.cached ip).symm, fun ip => (h.queue ip).symm, fun ip => (h.timers ip).symm⟩
  trans h h' := ⟨h.ethernetAddress.trans h'.ethernetAddress,
    h.ipAddressRaw.trans h'.ipAddressRaw, h.framesOut.trans h'.framesOut,
    fun ip => (h.cached ip).trans (h'.cached ip), fun ip => (h.queue ip).trans (h'.queue ip),
    fun ip => (h.timers ip).trans (h'.timers ip)⟩

section Congruence

variable {n n' : NetworkInterface}

theorem Alike.push (h : Alike n n') (frames : List EthernetFrame) :
    Alike (n.push frames) (n'.push frames) :=
  ⟨h.ethernetAddress, h.ipAddressRaw, congrArg (· ++ frames) h.framesOut, h.cached, h.queue,
    h.timers⟩

/-- The frames that an interface builds depend on its two addresses alone. -/
theorem Alike.builds (h : Alike n n') :
    n.datagramFrame = n'.datagramFrame ∧ n.request = n'.request ∧ n.replies = n'.replies := by
  obtain ⟨ethernetAddress, ipAddressRaw, _, _, _, _⟩ := n
  obtain ⟨ethernetAddress', ipAddressRaw', _, _, _, _⟩ := n'
  obtain rfl : ethernetAddress = ethernetAddress' := h.ethernetAddress
  obtain rfl : ipAddressRaw = ipAddressRaw' := h.ipAddressRaw
  exact ⟨rfl, rfl, rfl⟩

theorem Alike.asked (h : Alike n n') (dgram : IPv4Datagram) (nextHop : Address) :
    Alike (n.asked dgram nextHop) (n'.asked dgram nextHop) := by
  obtain ⟨-, hrequest, -⟩ := h.builds
  refine ⟨h.ethernetAddress, h.ipAddressRaw, ?_, h.cached, fun ip => ?_, fun ip => ?_⟩
  · show n.framesOut ++ [n.request nextHop] = n'.framesOut ++ [n'.request nextHop]
    rw [h.framesOut, hrequest]
  · simp only [NetworkInterface.asked, Map.lookup_insert_eq_ite, pending, h.queue]
  · simp only [NetworkInterface.asked, Map.lookup_insert_eq_ite, h.timers]

/-- `send_datagram` throws the same, or leaves states that are alike. -/
theorem Alike.sendDatagram (h : Alike n n') (dgram : IPv4Datagram) (nextHop : Address) :
    (∃ e, n.sendDatagram dgram nextHop = .error e ∧ n'.sendDatagram dgram nextHop = .error e) ∨
      ∃ m m', n.sendDatagram dgram nextHop = .ok m ∧ n'.sendDatagram dgram nextHop = .ok m' ∧
        Alike m m' := by
  cases hcached' : n'.cachedEthernetAddresses.lookup nextHop with
  | some cached =>
      have hcached := (h.cached nextHop).trans hcached'
      obtain ⟨hframe, -, -⟩ := h.builds
      simp only [NetworkInterface.sendDatagram, hcached, hcached', sendTo, hframe]
      cases dgram.serialize with
      | error e => exact Or.inl ⟨e, rfl, rfl⟩
      | ok payload => exact Or.inr ⟨_, _, rfl, rfl, h.push _⟩
  | none =>
      have hcached := (h.cached nextHop).trans hcached'
      have htimer : nextHop ∈ n.arpMessageTimers ↔ nextHop ∈ n'.arpMessageTimers := by
        rw [← AList.lookup_isSome, ← AList.lookup_isSome, h.timers]
      simp only [NetworkInterface.sendDatagram, hcached, hcached', htimer,
        sendArpMessage_eq _ (Or.inl rfl)]
      split
      · exact Or.inr ⟨_, _, rfl, rfl, h⟩
      · exact Or.inr ⟨_, _, rfl, rfl, h.asked dgram nextHop⟩

theorem Alike.learn (h : Alike n n') (arp : ARPMessage) : Alike (n.learn arp) (n'.learn arp) := by
  refine ⟨h.ethernetAddress, h.ipAddressRaw, h.framesOut, fun ip => ?_, h.queue, h.timers⟩
  simp only [NetworkInterface.learn, Map.lookup_insert_eq_ite, h.cached]

theorem Alike.sendQueued (h : Alike n n') (address : EthernetAddress)
    (dgrams : List IPv4Datagram) :
    (NetworkInterface.sendQueued address dgrams n).1 =
        (NetworkInterface.sendQueued address dgrams n').1 ∧
      Alike (NetworkInterface.sendQueued address dgrams n).2
        (NetworkInterface.sendQueued address dgrams n').2 := by
  induction dgrams generalizing n n' with
  | nil => exact ⟨rfl, h⟩
  | cons dgram dgrams ih =>
      obtain ⟨hframe, -, -⟩ := h.builds
      unfold NetworkInterface.sendQueued sendTo
      rw [hframe]
      cases dgram.serialize with
      | error e => exact ⟨rfl, h⟩
      | ok payload => exact ih (h.push _)

theorem Alike.flush (h : Alike n n') (arp : ARPMessage) :
    (n.flush arp).1 = (n'.flush arp).1 ∧ Alike (n.flush arp).2 (n'.flush arp).2 := by
  unfold NetworkInterface.flush
  rw [h.queue]
  cases n'.datagramQueue.lookup arp.senderIpAddress with
  | none => exact ⟨rfl, h⟩
  | some dgrams =>
      obtain ⟨hresult, hafter⟩ := h.sendQueued arp.senderEthernetAddress dgrams
      rcases hs : NetworkInterface.sendQueued arp.senderEthernetAddress dgrams n with ⟨result, m⟩
      rcases hs' : NetworkInterface.sendQueued arp.senderEthernetAddress dgrams n' with
        ⟨result', m'⟩
      rw [hs, hs'] at hresult hafter
      obtain rfl : result = result' := hresult
      simp only [hs, hs']
      cases result with
      | error e => exact ⟨rfl, hafter⟩
      | ok _ =>
          refine ⟨rfl, hafter.ethernetAddress, hafter.ipAddressRaw, hafter.framesOut,
            hafter.cached, fun ip => ?_, hafter.timers⟩
          simp only [Map.lookup_erase_eq_ite, hafter.queue]

theorem Alike.recvArp (h : Alike n n') (header : EthernetHeader) (arp : ARPMessage) :
    (n.recvArp header arp).1 = (n'.recvArp header arp).1 ∧
      Alike (n.recvArp header arp).2 (n'.recvArp header arp).2 := by
  obtain ⟨hresult, hafter⟩ := (h.learn arp).flush arp
  unfold NetworkInterface.recvArp
  rcases hs : (n.learn arp).flush arp with ⟨result, m⟩
  rcases hs' : (n'.learn arp).flush arp with ⟨result', m'⟩
  rw [hs, hs'] at hresult hafter
  obtain rfl : result = result' := hresult
  cases result with
  | error e => exact ⟨rfl, hafter⟩
  | ok _ =>
      obtain ⟨-, -, hreplies⟩ := hafter.builds
      simp only [reply_eq, hreplies, true_and]
      exact hafter.push _

theorem Alike.recvFrame (h : Alike n n') (frame : EthernetFrame) :
    (n.recvFrame frame).1 = (n'.recvFrame frame).1 ∧
      Alike (n.recvFrame frame).2 (n'.recvFrame frame).2 := by
  cases harp : frame.arp with
  | none =>
      rw [recvFrame_of_not_arp harp, recvFrame_of_not_arp harp, h.ethernetAddress]
      exact ⟨rfl, h⟩
  | some arp =>
      obtain ⟨hresult, hafter⟩ := h.recvArp frame.header arp
      rw [recvFrame_of_arp harp, recvFrame_of_arp harp, hresult]
      exact ⟨rfl, hafter⟩

theorem Alike.tick (h : Alike n n') (ms : Nat) : Alike (n.tick ms) (n'.tick ms) := by
  refine ⟨h.ethernetAddress, h.ipAddressRaw, h.framesOut, fun ip => ?_, h.queue, fun ip => ?_⟩
  · simp only [NetworkInterface.tick, Map.lookup_sweep, h.cached]
  · simp only [NetworkInterface.tick, Map.lookup_sweep, h.timers]

end Congruence

/-- No operation tells states that are alike apart. -/
theorem unwinding : Unwinding step output Alike where
  equivalence := alike_equivalence
  step := by
    intro n n' op h
    cases op with
    | sendDatagram dgram nextHop =>
        unfold step
        obtain ⟨e, hn, hn'⟩ | ⟨m, m', hn, hn', hm⟩ := h.sendDatagram dgram nextHop
        · simp only [hn, hn']
          exact h
        · simp only [hn, hn']
          exact hm
    | recvFrame frame => exact (h.recvFrame frame).2
    | tick ms => exact h.tick ms
    | popFrame =>
        exact ⟨h.ethernetAddress, h.ipAddressRaw, congrArg List.tail h.framesOut, h.cached,
          h.queue, h.timers⟩
  out := by
    intro n n' op h
    cases op with
    | sendDatagram dgram nextHop =>
        obtain ⟨e, hn, hn'⟩ | ⟨m, m', hn, hn', -⟩ := h.sendDatagram dgram nextHop
        · rw [output, output, hn, hn']
        · rw [output, output, hn, hn']
          rfl
    | recvFrame frame => exact congrArg Output.received (h.recvFrame frame).1
    | tick ms => rfl
    | popFrame => exact congrArg (Output.popped ·.head?) h.framesOut

-- ============================================================================
-- One frame for others
-- ============================================================================

/-- The frame is not an ARP message, or one that tells nothing new: the address of its
    sender is cached as it says, and nothing waits for it. -/
def Harmless (n : NetworkInterface) (frame : EthernetFrame) : Prop :=
  ∀ arp ∈ frame.arp,
    (n.cachedEthernetAddresses.lookup arp.senderIpAddress).map (·.address) =
        some arp.senderEthernetAddress ∧
      n.datagramQueue.lookup arp.senderIpAddress = none

instance (n : NetworkInterface) (frame : EthernetFrame) : Decidable (n.Harmless frame) :=
  inferInstanceAs (Decidable (∀ arp ∈ frame.arp, _))

/-- The frame is not answered by a datagram, and nothing changes. -/
def Unaffected (n : NetworkInterface) (frame : EthernetFrame) : Prop :=
  (n.recvFrame frame).1 = .ok none ∧ Alike n (n.recvFrame frame).2

section Foreign

variable {n : NetworkInterface} {frame : EthernetFrame}

/-- Without an ARP message nothing is returned and nothing changes. -/
theorem unaffected_of_not_arp (h : (InterfaceOp.recvFrame frame).Foreign n.ethernetAddress)
    (harp : frame.arp = none) : n.Unaffected frame := by
  obtain ⟨hdst, -, hpayload⟩ := h
  obtain ⟨buffer, hbuffer⟩ := List.length_eq_one_iff.mp hpayload
  rw [Unaffected, recvFrame_of_not_arp harp]
  refine ⟨?_, alike_equivalence.refl n⟩
  rw [answer, if_neg hdst, hbuffer]
  split
  · rfl
  · split <;> rfl

/-- Learning changes nothing exactly if the address was known. -/
theorem alike_learn_iff (n : NetworkInterface) (arp : ARPMessage) :
    Alike n (n.learn arp) ↔
      (n.cachedEthernetAddresses.lookup arp.senderIpAddress).map (·.address) =
        some arp.senderEthernetAddress := by
  have hlookup : ∀ ip, (n.learn arp).cachedEthernetAddresses.lookup ip =
      if ip = arp.senderIpAddress then
        some { (n.cachedEthernetAddresses.lookup arp.senderIpAddress).getD {} with
          address := arp.senderEthernetAddress }
      else n.cachedEthernetAddresses.lookup ip := fun ip => Map.lookup_insert_eq_ite ..
  constructor
  · intro h
    rw [h.cached, hlookup, if_pos rfl]
    rfl
  · intro h
    refine ⟨rfl, rfl, rfl, fun ip => ?_, fun _ => rfl, fun _ => rfl⟩
    obtain ⟨cached, hcached, haddress⟩ := Option.map_eq_some_iff.mp h
    rw [hlookup]
    split
    · rename_i heq
      rw [heq, hcached, Option.getD_some, ← haddress]
    · rfl

/-- A message that is not sent to everyone is learned from, and what waits for its sender
    is sent; it is not answered. -/
theorem recvArp_of_not_broadcast (n : NetworkInterface) {header : EthernetHeader}
    (h : header.dst ≠ .broadcast) (arp : ARPMessage) :
    n.recvArp header arp = (n.learn arp).flush arp := by
  have hasks : ∀ m : NetworkInterface, ¬ m.Asks header arp := fun m hm => h hm.1
  unfold NetworkInterface.recvArp reply
  rcases (n.learn arp).flush arp with ⟨result, m⟩
  cases result with
  | error e => rfl
  | ok _ => simp only [if_neg (hasks m)]

/-- Once the datagrams for the sender of a message are sent, none waits for it. -/
theorem lookup_flush_of_ok {arp : ARPMessage} (h : (n.flush arp).1 = .ok ()) :
    (n.flush arp).2.datagramQueue.lookup arp.senderIpAddress = none := by
  unfold NetworkInterface.flush at h ⊢
  cases hqueue : n.datagramQueue.lookup arp.senderIpAddress with
  | none => exact hqueue
  | some dgrams =>
      rw [hqueue] at h
      rcases hs : NetworkInterface.sendQueued arp.senderEthernetAddress dgrams n with ⟨result, m⟩
      cases result with
      | error e =>
          simp only [hs] at h
          cases h
      | ok _ => simp only [hs, Map.lookup_erase_eq_ite, if_true]

/-- A frame for others has no effect exactly if it is harmless. -/
theorem unaffected_iff_harmless (h : (InterfaceOp.recvFrame frame).Foreign n.ethernetAddress) :
    n.Unaffected frame ↔ n.Harmless frame := by
  cases harp : frame.arp with
  | none =>
      refine iff_of_true (unaffected_of_not_arp h harp) ?_
      intro arp hsome
      rw [harp] at hsome
      cases hsome
  | some arp =>
      have hharmless : n.Harmless frame ↔
          (n.cachedEthernetAddresses.lookup arp.senderIpAddress).map (·.address) =
              some arp.senderEthernetAddress ∧
            n.datagramQueue.lookup arp.senderIpAddress = none := by
        simp only [Harmless, harp, Option.mem_def, Option.some.injEq, forall_eq']
      rw [hharmless, Unaffected, recvFrame_of_arp harp, recvArp_of_not_broadcast n h.2.1]
      cases hqueue : n.datagramQueue.lookup arp.senderIpAddress with
      | none =>
          have hflush : (n.learn arp).flush arp = (.ok (), n.learn arp) := by
            have hsame : (n.learn arp).datagramQueue.lookup arp.senderIpAddress = none := hqueue
            rw [NetworkInterface.flush, hsame]
          rw [hflush, ← alike_learn_iff]
          exact ⟨fun hun => ⟨hun.2, rfl⟩, fun hal => ⟨rfl, hal.1⟩⟩
      | some dgrams =>
          refine iff_of_false ?_ (by simp)
          rintro ⟨hresult, halike⟩
          have hflush : ((n.learn arp).flush arp).1 = .ok () := by
            cases hok : ((n.learn arp).flush arp).1 with
            | error e =>
                rw [hok] at hresult
                cases hresult
            | ok _ => rfl
          have hgone := halike.queue arp.senderIpAddress
          rw [hqueue, lookup_flush_of_ok hflush] at hgone
          cases hgone

end Foreign

-- ============================================================================
-- Whole runs
-- ============================================================================

/-- What holds of every frame for others, in the state in which it comes. -/
def ForOthers (address : EthernetAddress) (P : NetworkInterface → EthernetFrame → Prop)
    (n : NetworkInterface) : InterfaceOp → Prop
  | .recvFrame frame => (InterfaceOp.recvFrame frame).Foreign address → P n frame
  | _ => True

instance (address : EthernetAddress) (P : NetworkInterface → EthernetFrame → Prop)
    [∀ n frame, Decidable (P n frame)] (n : NetworkInterface) :
    (op : InterfaceOp) → Decidable (ForOthers address P n op)
  | .recvFrame _ => inferInstanceAs (Decidable (_ → _))
  | .sendDatagram _ _ | .tick _ | .popFrame => isTrue trivial

/-- No frame for others has an effect. -/
def AllUnaffected (address : EthernetAddress) (ip : Address) (ops : List InterfaceOp) : Prop :=
  Along step (ForOthers address Unaffected) (new address ip) ops

/-- Every frame for others is harmless when it comes. -/
def AllHarmless (address : EthernetAddress) (ip : Address) (ops : List InterfaceOp) : Prop :=
  Along step (ForOthers address Harmless) (new address ip) ops

instance (address : EthernetAddress) (ip : Address) (ops : List InterfaceOp) :
    Decidable (AllHarmless address ip ops) :=
  inferInstanceAs (Decidable (Along ..))

theorem allUnaffected_iff_allHarmless (address : EthernetAddress) (ip : Address)
    (ops : List InterfaceOp) : AllUnaffected address ip ops ↔ AllHarmless address ip ops := by
  -- the interface keeps its address, so a frame for others stays one
  have hstep : ∀ (n : NetworkInterface) (op : InterfaceOp), n.ethernetAddress = address →
      (n.step op).ethernetAddress = address :=
    fun n op hn => (n.step_addresses op).1.trans hn
  have hiff : ∀ (n : NetworkInterface) (op : InterfaceOp), n.ethernetAddress = address →
      (ForOthers address Unaffected n op ↔ ForOthers address Harmless n op) := by
    rintro n op rfl
    cases op with
    | recvFrame frame => exact imp_congr_right unaffected_iff_harmless
    | sendDatagram dgram nextHop => exact Iff.rfl
    | tick ms => exact Iff.rfl
    | popFrame => exact Iff.rfl
  exact ⟨Along.imp (I := fun n => n.ethernetAddress = address) rfl hstep
      fun n op hn => (hiff n op hn).mp,
    Along.imp (I := fun n => n.ethernetAddress = address) rfl hstep
      fun n op hn => (hiff n op hn).mpr⟩

/-- A frame for others that has no effect leaves the state where it is. -/
theorem AllUnaffected.quiet {address : EthernetAddress} {ip : Address} {ops : List InterfaceOp}
    (h : AllUnaffected address ip ops) :
    Along step (Quiet step (InterfaceOp.own address) Alike) (new address ip) ops := by
  refine Along.imp (I := fun _ => True) trivial (fun _ _ _ => trivial) ?_ h
  intro n op _ hop hown
  have hforeign : op.Foreign address := by
    simpa only [InterfaceOp.own, Bool.not_eq_false', decide_eq_true_eq] using hown
  cases op with
  | recvFrame frame => exact (hop hforeign).2
  | sendDatagram dgram nextHop => exact hforeign.elim
  | tick ms => exact hforeign.elim
  | popFrame => exact hforeign.elim

/-- What an interface gives back for the operations that are its own. -/
def ownOutputs (address : EthernetAddress) (ip : Address) (ops : List InterfaceOp) :
    List Output :=
  Lib.Purge.outputs step output (InterfaceOp.own address) (new address ip) ops

/-- In two runs no frame for others has an effect, and the runs behave identically. -/
structure Isolated (address : EthernetAddress) (ip : Address) (ops ops' : List InterfaceOp) :
    Prop where
  unaffected : AllUnaffected address ip ops
  unaffected' : AllUnaffected address ip ops'
  outputs_eq : ownOutputs address ip ops = ownOutputs address ip ops'
  alike : Alike (ops.foldl step (new address ip)) (ops'.foldl step (new address ip))

/-- **Frames for others.**  Two runs that differ only in frames for others are not affected
    by them and behave identically, exactly if all of these frames are harmless. -/
theorem isolated_iff_harmless (address : EthernetAddress) (ip : Address)
    (ops ops' : List InterfaceOp)
    (hsame : ops.filter (InterfaceOp.own address) = ops'.filter (InterfaceOp.own address)) :
    Isolated address ip ops ops' ↔
      AllHarmless address ip ops ∧ AllHarmless address ip ops' := by
  rw [← allUnaffected_iff_allHarmless, ← allUnaffected_iff_allHarmless]
  constructor
  · intro h
    exact ⟨h.unaffected, h.unaffected'⟩
  · rintro ⟨hops, hops'⟩
    obtain ⟨houtputs, halike⟩ :=
      Lib.Purge.outputs_eq_of_filter_eq unwinding hops.quiet hops'.quiet hsame
    exact ⟨hops, hops', houtputs, halike⟩

/-- The ARP reply from the IP address 2, for somebody. -/
def replyTo (dst : EthernetAddress) : EthernetFrame :=
  { InterfaceTrace.replyFrame with header := { InterfaceTrace.replyFrame.header with dst } }

/-- An interface that knows the sender of an ARP reply is not affected by a copy of the
    reply for somebody else. -/
theorem isolated_repeated_reply :
    Isolated (List.Vector.replicate 6 1) 1
      [.recvFrame (replyTo (List.Vector.replicate 6 1)),
        .recvFrame (replyTo (List.Vector.replicate 6 3)),
        .sendDatagram (InterfaceTrace.bareDatagram 0) 2]
      [.recvFrame (replyTo (List.Vector.replicate 6 1)),
        .sendDatagram (InterfaceTrace.bareDatagram 0) 2] :=
  (isolated_iff_harmless _ _ _ _ (by rfl)).mpr ⟨by decide +kernel, by decide +kernel⟩

/-- A datagram waits for the Ethernet address of its next hop, and a reply with that address
    comes by in a frame for somebody else: the address is learned, and the datagram is
    sent. -/
theorem isolated_fails :
    let address : EthernetAddress := List.Vector.replicate 6 1
    let ops : List InterfaceOp := [.sendDatagram (InterfaceTrace.bareDatagram 0) 2]
    let reply : InterfaceOp := .recvFrame (replyTo (List.Vector.replicate 6 3))
    reply.Foreign address ∧ ¬ Isolated address 1 (ops ++ [reply]) ops := by
  refine ⟨by decide, fun h => ?_⟩
  have hframes := congrArg List.length h.alike.framesOut
  revert hframes
  decide +kernel

end NetworkInterface

end Sponge
