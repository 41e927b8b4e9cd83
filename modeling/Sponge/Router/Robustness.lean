/-
  Sponge.Router.Robustness

  What hostile traffic can do to a router.

  The datagram parser lets some malformed datagrams through, and serializing one of
  them throws.  `Calm` is the invariant of a router that has not taken in any that it
  would forward: every queued datagram serializes, or will be dropped.  In a calm router
  no operation throws and `route()` empties every queue; a frame that is not `Harmless`
  can lead to a throw, in `route()` or at a later ARP message.
-/

import Sponge.Ipv4.Acceptance
import Sponge.NetworkInterface.Delivery
import Sponge.Router.Forwarding

namespace Sponge

open Lib (Run Guarded)

-- ============================================================================
-- Datagrams and frames
-- ============================================================================

/-- Whether a datagram serializes does not depend on its `ttl`. -/
theorem IPv4Datagram.Serializes.decrementTtl {d : IPv4Datagram} (h : d.Serializes) :
    d.decrementTtl.Serializes := by
  rw [serializes_iff] at h ⊢
  exact h

/-- A datagram that was accepted serializes if its version and header length are right. -/
theorem IPv4Datagram.serializes_of_parse {buffer : Buffer} {d : IPv4Datagram}
    (h : parse {} buffer = (.noError, d)) (hver : versionOf buffer = 4)
    (hhlen : 5 ≤ hlenOf buffer) : d.Serializes := by
  have hlong := (parse_noError_iff.mp (congrArg Prod.fst h)).1
  rw [parse_long _ hlong] at h
  obtain ⟨hresult, rfl⟩ := Prod.mk.inj h
  rw [serializes_iff]
  refine ⟨?_, ?_, ?_⟩
  · -- the parser has compared the same two lengths
    show BufferList.size [payloadOf buffer] = (IPv4Header.ofBytes buffer).payloadLength.toNat
    rw [BufferList.size_singleton, IPv4Header.payloadLength_ofBytes]
    by_contra hne
    rw [if_neg hne] at hresult
    cases hresult
  · apply UInt8.toNat_inj.mp
    show (IPv4Header.ofBytes buffer).ver.toNat = 4
    rw [IPv4Header.ver_ofBytes, hver]
  · show 20 ≤ 4 * (IPv4Header.ofBytes buffer).hlen.toNat
    rw [IPv4Header.hlen_ofBytes]
    omega

/-- A frame that was parsed has a single buffer. -/
theorem EthernetFrame.payload_parse (frame : EthernetFrame) (bytes : Buffer) :
    ∃ buffer, (frame.parse bytes).2.payload = [buffer] :=
  ⟨_, rfl⟩

-- ============================================================================
-- Operations
-- ============================================================================

/-- What the owner of a router does with it: parse a frame from bytes and give it to an
    interface, route, let time pass, take a frame off `frames_out()`. -/
inductive RouterOp
  | recvFrame (i : Nat) (bytes : Buffer)
  | route
  | tick (i : Nat) (ms : Nat)
  | popFrame (i : Nat)
deriving DecidableEq

namespace Router

/-- What an operation on one interface makes of the router. -/
def onInterface (r : Router) (i : Nat)
    (f : AsyncNetworkInterface → Except Exn Unit × AsyncNetworkInterface) :
    Except Exn Unit × Router :=
  match r.interfaces[i]? with
  | none => (.error (.outOfRange "vector::_M_range_check"), r)
  | some a => ((f a).1, r.setInterface i (f a).2)

/-- An operation, with its result. -/
def apply (r : Router) : RouterOp → Except Exn Unit × Router
  | .recvFrame i bytes => r.onInterface i (·.recvFrameAsync (EthernetFrame.parse {} bytes).2)
  | .route => r.route
  | .tick i ms => r.onInterface i fun a =>
      (.ok (), { a with toNetworkInterface := a.toNetworkInterface.tick ms })
  | .popFrame i => r.onInterface i fun a => (.ok (), { a with framesOut := a.framesOut.tail })

/-- The operation is on an interface of the router. -/
def HasInterface (r : Router) : RouterOp → Prop
  | .recvFrame i _ => i < r.interfaces.length
  | .route => True
  | .tick i _ => i < r.interfaces.length
  | .popFrame i => i < r.interfaces.length

instance (r : Router) : (op : RouterOp) → Decidable (r.HasInterface op)
  | .recvFrame i _ => inferInstanceAs (Decidable (i < r.interfaces.length))
  | .route => isTrue trivial
  | .tick i _ => inferInstanceAs (Decidable (i < r.interfaces.length))
  | .popFrame i => inferInstanceAs (Decidable (i < r.interfaces.length))

/-- The router would forward the datagram. -/
def Forwards (r : Router) (d : IPv4Datagram) : Prop :=
  ¬ d.header.ttl ≤ 1 ∧ (r.search d.header.dst).1 = true

/-- If the frame is an IPv4 frame for the interface whose datagram the parser accepts and
    the router would forward, its version is 4 and its header length at least 5. -/
def Harmless (r : Router) : RouterOp → Prop
  | .recvFrame i bytes => ∀ a buffer d, r.interfaces[i]? = some a →
      (EthernetFrame.parse {} bytes).2.header.type = EthernetHeader.typeIPv4 →
      (EthernetFrame.parse {} bytes).2.header.dst = a.ethernetAddress →
      (EthernetFrame.parse {} bytes).2.payload = [buffer] →
      IPv4Datagram.parse {} buffer = (.noError, d) → r.Forwards d →
      versionOf buffer = 4 ∧ 5 ≤ hlenOf buffer
  | _ => True

-- ============================================================================
-- The invariant
-- ============================================================================

/-- Every datagram that is queued serializes or will be dropped. -/
structure Calm (r : Router) : Prop where
  routes_valid : ∀ route ∈ r.routes, route.interfaceNum < r.interfaces.length
  queues_sound : ∀ a ∈ r.interfaces, a.QueueSound
  datagrams_sound : ∀ a ∈ r.interfaces, ∀ d ∈ a.datagramsOut, r.Forwards d → d.Serializes

variable {r : Router}

section SetInterface

variable {i : Nat} {a a' : AsyncNetworkInterface}

@[simp] theorem length_setInterface :
    (r.setInterface i a).interfaces.length = r.interfaces.length := List.length_set

theorem forwards_setInterface (d : IPv4Datagram) :
    (r.setInterface i a).Forwards d ↔ r.Forwards d := Iff.rfl

theorem queue_setInterface (hi : i < r.interfaces.length) (j : Nat) :
    (r.setInterface i a).queue j = if j = i then a.datagramsOut else r.queue j := by
  unfold queue setInterface
  rw [List.getElem?_set]
  by_cases hj : j = i
  · subst hj
    simp [hi]
  · simp [hj, Ne.symm hj]

/-- The invariant is about each interface on its own. -/
theorem Calm.setInterface (h : r.Calm) (hqueue : a.QueueSound)
    (hdatagrams : ∀ d ∈ a.datagramsOut, r.Forwards d → d.Serializes) :
    (r.setInterface i a).Calm where
  routes_valid := by
    intro route hroute
    rw [length_setInterface]
    exact h.routes_valid route hroute
  queues_sound := by
    intro b hb
    rcases List.mem_or_eq_of_mem_set hb with hb | rfl
    · exact h.queues_sound b hb
    · exact hqueue
  datagrams_sound := by
    intro b hb d hd
    rw [forwards_setInterface]
    rcases List.mem_or_eq_of_mem_set hb with hb | rfl
    · exact h.datagrams_sound b hb d hd
    · exact hdatagrams d hd

end SetInterface

theorem queue_of_getElem {i : Nat} {a : AsyncNetworkInterface} (h : r.interfaces[i]? = some a) :
    r.queue i = a.datagramsOut := by
  rw [queue, h]

/-- A route that was found is in the table. -/
theorem search_mem {dst : UInt32} (h : (r.search dst).1 = true) : (r.search dst).2 ∈ r.routes := by
  rcases r.foldl_consider dst r.routes with ⟨hfold, -⟩ | ⟨best, hfold, hbest⟩
  · rw [search, hfold] at h
    cases h
  · rw [search, hfold]
    exact hbest.mem

-- ============================================================================
-- Routing
-- ============================================================================

/-- The router is calm after a step that leaves the queues as given. -/
structure CalmWith (r : Router) (queues : Nat → List IPv4Datagram) (r' : Router) : Prop where
  calm : r'.Calm
  length_eq : r'.interfaces.length = r.interfaces.length
  queue_eq : ∀ j, r'.queue j = queues j

/-- A calm router forwards or drops what it has queued without a throw. -/
theorem Calm.routeOneDatagram (h : r.Calm) {d : IPv4Datagram}
    (hd : r.Forwards d → d.Serializes) :
    ∃ r', r.routeOneDatagram d = .ok r' ∧ r.CalmWith r.queue r' := by
  rw [routeOneDatagram_eq]
  by_cases hdrop : d.header.ttl ≤ 1 ∨ (r.search d.header.dst).1 = false
  · rw [if_pos hdrop]
    exact ⟨r, rfl, h, rfl, fun _ => rfl⟩
  · rw [if_neg hdrop]
    obtain ⟨httl, hfound⟩ := not_or.mp hdrop
    have hfound : (r.search d.header.dst).1 = true := by simpa using hfound
    have hserializes := (hd ⟨httl, hfound⟩).decrementTtl
    have hlt := h.routes_valid _ (search_mem hfound)
    generalize (r.search d.header.dst).2.nextHop.getD d.header.dst = nextHop
    generalize (r.search d.header.dst).2.interfaceNum = N at hlt
    have hget := List.getElem?_eq_getElem hlt
    generalize r.interfaces[N] = a at hget
    have hmem : a ∈ r.interfaces := List.mem_of_getElem? hget
    obtain ⟨n, hsend⟩ := NetworkInterface.sendDatagram_ok (n := a.toNetworkInterface) hserializes nextHop
    have hqueue := (NetworkInterface.acts_of_sendDatagram hsend).queueSound hserializes
      (h.queues_sound a hmem)
    refine ⟨r.setInterface N { a with toNetworkInterface := n }, ?_, ?_, length_setInterface, ?_⟩
    · rw [sendOn, hget]
      simp only [hsend]
      rfl
    · exact h.setInterface hqueue (h.datagrams_sound a hmem)
    · intro j
      rw [queue_setInterface hlt]
      split
      · rename_i hj
        rw [hj, queue_of_getElem hget]
      · rfl

theorem Calm.setQueue (h : r.Calm) {i : Nat} (hi : i < r.interfaces.length)
    {dgrams : List IPv4Datagram} (hsub : ∀ d ∈ dgrams, d ∈ r.queue i) :
    r.CalmWith (fun j => if j = i then dgrams else r.queue j) (r.setQueue i dgrams) := by
  have hget := List.getElem?_eq_getElem hi
  generalize r.interfaces[i] = a at hget
  have hmem : a ∈ r.interfaces := List.mem_of_getElem? hget
  rw [queue_of_getElem hget] at hsub
  rw [Router.setQueue, hget]
  refine ⟨h.setInterface (h.queues_sound a hmem) ?_, length_setInterface, ?_⟩
  · intro d hd
    exact h.datagrams_sound a hmem d (hsub d hd)
  · exact queue_setInterface hi

/-- Nothing is left to do on an empty queue. -/
theorem Calm.drained (h : r.Calm) {i : Nat} (hempty : r.queue i = []) :
    r.CalmWith (fun j => if j = i then [] else r.queue j) r := by
  refine ⟨h, rfl, fun j => ?_⟩
  split
  · rename_i hj
    rw [hj, hempty]
  · rfl

/-- The inner loop empties its queue and touches no other. -/
theorem Calm.drain {i fuel : Nat} (h : r.Calm) (hi : i < r.interfaces.length)
    (hfuel : (r.queue i).length ≤ fuel) :
    ∃ r', Router.drain i fuel r = (.ok (), r') ∧
      r.CalmWith (fun j => if j = i then [] else r.queue j) r' := by
  induction fuel generalizing r with
  | zero =>
      have hempty : r.queue i = [] := List.eq_nil_of_length_eq_zero (Nat.le_zero.mp hfuel)
      exact ⟨r, rfl, h.drained hempty⟩
  | succ fuel ih =>
      rw [Router.drain]
      cases hqueue : r.queue i with
      | nil => exact ⟨r, rfl, h.drained hqueue⟩
      | cons d dgrams =>
          -- one datagram is routed and taken off the queue
          have hget := List.getElem?_eq_getElem hi
          have hd : r.Forwards d → d.Serializes := by
            refine h.datagrams_sound _ (List.getElem_mem hi) d ?_
            rw [← queue_of_getElem hget, hqueue]
            exact List.mem_cons_self ..
          obtain ⟨r₁, hroute, h₁, hlen₁, hqueue₁⟩ := h.routeOneDatagram hd
          have hi₁ : i < r₁.interfaces.length := by rw [hlen₁]; exact hi
          obtain ⟨h₂, hlen₂, hqueue₂⟩ := h₁.setQueue hi₁ fun d hd => List.mem_of_mem_tail hd
          have hfuel₂ : ((r₁.setQueue i (r₁.queue i).tail).queue i).length ≤ fuel := by
            rw [hqueue₂, if_pos rfl, hqueue₁, hqueue]
            rw [hqueue] at hfuel
            exact Nat.le_of_succ_le_succ hfuel
          obtain ⟨r', hdrain, h', hlen', hqueue'⟩ := ih h₂ (by rw [hlen₂]; exact hi₁) hfuel₂
          simp only [hroute]
          refine ⟨r', hdrain, h', by rw [hlen', hlen₂, hlen₁], fun j => ?_⟩
          rw [hqueue', hqueue₂]
          split
          · rfl
          · exact hqueue₁ j

/-- The outer loop empties the queues of all the interfaces it goes through. -/
theorem Calm.routeAll {is : List Nat} (h : r.Calm) (his : ∀ i ∈ is, i < r.interfaces.length) :
    ∃ r', Router.routeAll is r = (.ok (), r') ∧
      r.CalmWith (fun j => if j ∈ is then [] else r.queue j) r' := by
  induction is generalizing r with
  | nil => exact ⟨r, rfl, h, rfl, fun j => by simp⟩
  | cons i is ih =>
      obtain ⟨r₁, hdrain, h₁, hlen₁, hqueue₁⟩ :=
        h.drain (his i (List.mem_cons_self ..)) (Nat.le_refl _)
      obtain ⟨r', hall, h', hlen', hqueue'⟩ := ih h₁ fun j hj => by
        rw [hlen₁]
        exact his j (List.mem_cons_of_mem _ hj)
      rw [Router.routeAll, hdrain]
      refine ⟨r', hall, h', by rw [hlen', hlen₁], fun j => ?_⟩
      rw [hqueue', hqueue₁]
      by_cases hj : j = i <;> by_cases hjs : j ∈ is <;> simp [hj, hjs]

/-- `route()` in a calm router: no throw, and every queue is empty. -/
theorem Calm.route (h : r.Calm) :
    ∃ r', r.route = (.ok (), r') ∧ r'.Calm ∧ r'.interfaces.length = r.interfaces.length ∧
      ∀ a ∈ r'.interfaces, a.datagramsOut = [] := by
  obtain ⟨r', hroute, h', hlen', hqueue'⟩ := h.routeAll fun i hi => List.mem_range.mp hi
  refine ⟨r', hroute, h', hlen', fun a ha => ?_⟩
  obtain ⟨j, hj, rfl⟩ := List.mem_iff_getElem.mp ha
  rw [← queue_of_getElem (List.getElem?_eq_getElem hj), hqueue', if_pos]
  rw [List.mem_range, ← hlen']
  exact hj

-- ============================================================================
-- Runs
-- ============================================================================

/-- A router as it is set up: its routes are valid and its interfaces fresh. -/
structure Initial (r : Router) : Prop where
  routes_valid : ∀ route ∈ r.routes,
    route.prefixLength ≤ 32 ∧ route.interfaceNum < r.interfaces.length
  interfaces_fresh : ∀ a ∈ r.interfaces, ∃ ethernetAddress ipAddress,
    a = { toNetworkInterface := .new ethernetAddress ipAddress }

theorem Initial.calm (h : r.Initial) : r.Calm where
  routes_valid := fun route hroute => (h.routes_valid route hroute).2
  queues_sound := by
    intro a ha nextHop d hd
    obtain ⟨ethernetAddress, ipAddress, rfl⟩ := h.interfaces_fresh a ha
    cases hd
  datagrams_sound := by
    intro a ha d hd
    obtain ⟨ethernetAddress, ipAddress, rfl⟩ := h.interfaces_fresh a ha
    cases hd

/-- A frame that is received. -/
theorem Calm.recvFrame (h : r.Calm) {i : Nat} {a : AsyncNetworkInterface}
    (hget : r.interfaces[i]? = some a) {bytes : Buffer} (hharmless : r.Harmless (.recvFrame i bytes)) :
    (a.recvFrameAsync (EthernetFrame.parse {} bytes).2).1 = .ok () ∧
      (r.setInterface i (a.recvFrameAsync (EthernetFrame.parse {} bytes).2).2).Calm := by
  have hmem : a ∈ r.interfaces := List.mem_of_getElem? hget
  have hqueue := h.queues_sound a hmem
  have hdatagrams := h.datagrams_sound a hmem
  obtain ⟨buffer, hpayload⟩ := EthernetFrame.payload_parse {} bytes
  have hharmless := fun d htype hdst => hharmless a buffer d hget htype hdst hpayload
  generalize (EthernetFrame.parse {} bytes).2 = frame at hpayload hharmless ⊢
  obtain ⟨out, hout, haccepted⟩ := NetworkInterface.recvFrame_returns hqueue hpayload
  have hqueue' := (NetworkInterface.recvFrame_acts hqueue frame).queueSound trivial hqueue
  unfold AsyncNetworkInterface.recvFrameAsync
  rcases hrecv : a.toNetworkInterface.recvFrame frame with ⟨result, n⟩
  rw [hrecv] at hout hqueue'
  obtain rfl : result = .ok out := hout
  cases out with
  | none => exact ⟨rfl, h.setInterface hqueue' hdatagrams⟩
  | some dgram =>
      refine ⟨rfl, h.setInterface hqueue' ?_⟩
      intro d hd hforwards
      rcases List.mem_append.mp hd with hd | hd
      · exact hdatagrams d hd hforwards
      · -- the new datagram
        obtain rfl := List.mem_singleton.mp hd
        obtain ⟨htype, hdst, hparse⟩ := haccepted d rfl
        obtain ⟨hver, hhlen⟩ := hharmless d htype hdst hparse hforwards
        exact IPv4Datagram.serializes_of_parse hparse hver hhlen

/-- The operation does not throw, and leaves no datagram queued if it is `route()`. -/
structure Robust (r : Router) (op : RouterOp) : Prop where
  returns : (r.apply op).1 = .ok ()
  drained : op = .route → ∀ a ∈ (r.apply op).2.interfaces, a.datagramsOut = []

/-- An operation on one interface is robust if it returns and keeps the router calm
    whatever interface it meets. -/
theorem robust_onInterface {op : RouterOp} {i : Nat}
    {f : AsyncNetworkInterface → Except Exn Unit × AsyncNetworkInterface}
    (happly : r.apply op = r.onInterface i f) (hop : op ≠ .route) (hi : i < r.interfaces.length)
    (hf : ∀ a, r.interfaces[i]? = some a → (f a).1 = .ok () ∧ (r.setInterface i (f a).2).Calm) :
    r.Robust op ∧ (r.apply op).2.Calm := by
  have hget := List.getElem?_eq_getElem hi
  obtain ⟨hok, hcalm⟩ := hf _ hget
  have heq : r.apply op = (.ok (), r.setInterface i (f r.interfaces[i]).2) := by
    rw [happly, onInterface, hget, ← hok]
  rw [heq]
  exact ⟨⟨by rw [heq], fun hroute => absurd hroute hop⟩, hcalm⟩

theorem Calm.robust (h : r.Calm) {op : RouterOp} (hop : r.HasInterface op)
    (hharmless : r.Harmless op) : r.Robust op ∧ (r.apply op).2.Calm := by
  -- the clock and `frames_out()` are not part of the invariant
  have hsame : ∀ i a (n : NetworkInterface), r.interfaces[i]? = some a →
      n.datagramQueue = a.datagramQueue →
      (r.setInterface i { a with toNetworkInterface := n }).Calm := by
    intro i a n ha hqueue
    have hmem : a ∈ r.interfaces := List.mem_of_getElem? ha
    have hsound := h.queues_sound a hmem
    unfold NetworkInterface.QueueSound NetworkInterface.pending at hsound
    rw [← hqueue] at hsound
    exact h.setInterface hsound (h.datagrams_sound a hmem)
  cases op with
  | recvFrame i bytes =>
      exact robust_onInterface rfl (by simp) hop fun a ha => h.recvFrame ha hharmless
  | route =>
      obtain ⟨r', hroute, hcalm, -, hdrained⟩ := h.route
      have happly : r.apply .route = (.ok (), r') := hroute
      rw [happly]
      exact ⟨⟨by rw [happly], fun _ => by rw [happly]; exact hdrained⟩, hcalm⟩
  | tick i ms =>
      exact robust_onInterface rfl (by simp) hop fun a ha => ⟨rfl, hsame i a _ ha rfl⟩
  | popFrame i =>
      exact robust_onInterface rfl (by simp) hop fun a ha => ⟨rfl, hsame i a _ ha rfl⟩

/-- Along every run in which no frame brings in a datagram that is forwarded with a wrong
    version or header length, no operation throws and every `route()` empties the queues. -/
theorem robust_run_of_harmless {r₀ : Router} (h₀ : r₀.Initial) {ops : List RouterOp}
    (hrun : Run (Guarded (fun r op => r.HasInterface op ∧ r.Harmless op)
      fun r op => some (r.apply op).2) r₀ ops r)
    (op : RouterOp) (hop : r.HasInterface op) (hharmless : r.Harmless op) : r.Robust op := by
  have hcalm : r.Calm := by
    refine hrun.invariant h₀.calm ?_
    rintro r op u h ⟨⟨hop, hharmless⟩, hstep⟩
    obtain rfl := Option.some.inj hstep
    exact (h.robust hop hharmless).2
  exact (hcalm.robust hop hharmless).1

/-- A router with one interface and a default route to the next hop 2. -/
def oneInterface : Router :=
  { routes := [{ nextHop := some 2 }]
    interfaces := [{ toNetworkInterface := .new .zero 1 }]
    undefinedShift := fun x _ => x }

theorem oneInterface_initial : oneInterface.Initial where
  routes_valid := by decide
  interfaces_fresh := by
    intro a ha
    exact ⟨_, _, List.mem_singleton.mp ha⟩

/-- The bytes of an IPv4 frame for the interface, with the first byte of a bare header. -/
def ipv4Frame (firstByte : UInt8) : Buffer :=
  List.replicate 12 0 ++ [0x08, 0x00] ++ [firstByte, 0, 0, 20, 0, 0, 0, 0, 64, 0] ++
    List.replicate 10 0

/-- The bytes of an ARP reply from the next hop. -/
def arpFrame : Buffer :=
  List.replicate 12 0 ++ [0x08, 0x06] ++
    ARPMessage.wireBytes { opcode := ARPMessage.opcodeReply, senderIpAddress := 2 }

/-- A frame with version 4 and header length 5 is routed. -/
theorem robust_run_of_harmless_routed :
    ∃ r, Run (Guarded (fun r op => r.HasInterface op ∧ r.Harmless op)
        fun r op => some (r.apply op).2) oneInterface [.recvFrame 0 (ipv4Frame 0x45)] r ∧
      (r.queue 0).length = 1 ∧ r.Robust .route := by
  have hharmless : oneInterface.Harmless (.recvFrame 0 (ipv4Frame 0x45)) := by
    intro a buffer d _ _ _ hpayload _ _
    have hbuffer : (EthernetFrame.parse {} (ipv4Frame 0x45)).2.payload =
        [(ipv4Frame 0x45).drop 14] := by decide +kernel
    rw [hbuffer] at hpayload
    obtain rfl := List.singleton_inj.mp hpayload
    decide +kernel
  have hrun := Run.single (R := Guarded (fun r op => r.HasInterface op ∧ r.Harmless op)
    fun r op => some (apply r op).2) (s := oneInterface) ⟨⟨by decide, hharmless⟩, rfl⟩
  exact ⟨_, hrun, by decide +kernel,
    robust_run_of_harmless oneInterface_initial hrun .route trivial trivial⟩

/-- A datagram of version 6 makes `route()` throw if the next hop is known, and otherwise
    the `recv_frame` that brings its address. -/
theorem robust_fails :
    (∃ r, Run (Guarded (fun r op => r.HasInterface op) fun r op => some (r.apply op).2)
        oneInterface [.recvFrame 0 arpFrame, .recvFrame 0 (ipv4Frame 0x65)] r ∧
      (r.apply .route).1 = .error (.runtimeError "wrong IP version") ∧ ¬ r.Robust .route) ∧
    ∃ r, Run (Guarded (fun r op => r.HasInterface op) fun r op => some (r.apply op).2)
        oneInterface [.recvFrame 0 (ipv4Frame 0x65), .route] r ∧
      (r.apply (.recvFrame 0 arpFrame)).1 = .error (.runtimeError "wrong IP version") ∧
      ¬ r.Robust (.recvFrame 0 arpFrame) := by
  have hthrows : ∀ (r : Router) (op : RouterOp),
      (r.apply op).1 = .error (.runtimeError "wrong IP version") →
      (r.apply op).1 = .error (.runtimeError "wrong IP version") ∧ ¬ r.Robust op := by
    intro r op herror
    refine ⟨herror, fun h => ?_⟩
    have hok := h.returns
    rw [herror] at hok
    cases hok
  constructor
  · exact ⟨_, Run.of_exec _ _ _ _ (by decide +kernel), hthrows _ _ (by decide +kernel)⟩
  · exact ⟨_, Run.of_exec _ _ _ _ (by decide +kernel), hthrows _ _ (by decide +kernel)⟩

end Router

end Sponge
