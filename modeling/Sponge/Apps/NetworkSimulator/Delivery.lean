/-
  Sponge.Apps.NetworkSimulator.Delivery

  Traffic through the simulated network, from any state at rest.

  A network at rest that is given a datagram has one transfer under way at a time: from
  the sender to the router, and from the router to the receiver.  A pass of `simulate()`
  moves the transfer on by one phase (`round_transfer`), so six passes are enough for the
  longest way, and the others change nothing.  What the receiver expects is then what it
  has, nobody else has anything, and the network is at rest again (`traffic_ok`).
-/

import Sponge.Apps.NetworkSimulator.Transfer

namespace Sponge

open AsyncNetworkInterface (deliver)

-- ============================================================================
-- Routing one datagram
-- ============================================================================

namespace Router

variable {r r' : Router}

theorem routeAll_empty {is : List Nat} (h : ∀ i ∈ is, r.queue i = []) :
    routeAll is r = (.ok (), r) := by
  induction is with
  | nil => rfl
  | cons i is ih =>
      obtain ⟨hi, his⟩ := List.forall_mem_cons.mp h
      rw [routeAll, hi]
      exact ih his

theorem queue_setQueue_ne {i j : Nat} (hne : j ≠ i) (r : Router) (dgrams : List IPv4Datagram) :
    (r.setQueue i dgrams).queue j = r.queue j := by
  unfold setQueue
  split
  · rfl
  · unfold queue setInterface
    rw [List.getElem?_set_ne hne.symm]

/-- One datagram waits, and it can be routed. -/
theorem routeAll_single {is : List Nat} (hnodup : is.Nodup) {i : Nat} (hi : i ∈ is)
    {dgram : IPv4Datagram} (hqueue : r.queue i = [dgram])
    (hothers : ∀ j ∈ is, j ≠ i → r.queue j = []) (hroute : r.routeOneDatagram dgram = .ok r')
    (hsame : ∀ j, r'.queue j = r.queue j) : routeAll is r = (.ok (), r'.setQueue i []) := by
  induction is with
  | nil => cases hi
  | cons j is ih =>
      obtain ⟨hj, hnodup⟩ := List.nodup_cons.mp hnodup
      obtain ⟨hfirst, hothers⟩ := List.forall_mem_cons.mp hothers
      by_cases heq : j = i
      · subst heq
        have hdrain : drain j (r.queue j).length r = (.ok (), r'.setQueue j []) := by
          rw [hqueue]
          simp only [List.length_singleton, drain, hqueue, hroute, hsame, List.tail_cons]
        rw [routeAll, hdrain]
        refine routeAll_empty fun k hk => ?_
        have hne : k ≠ j := fun heq => hj (heq ▸ hk)
        rw [queue_setQueue_ne hne, hsame, hothers k hk hne]
      · rw [routeAll, hfirst heq]
        exact ih hnodup ((List.mem_cons.mp hi).resolve_left (Ne.symm heq)) hothers

/-- The search looks at the table only. -/
theorem search_congr (hroutes : r'.routes = r.routes)
    (hshift : r'.undefinedShift = r.undefinedShift) (dst : UInt32) : r'.search dst = r.search dst := by
  have hconsider : r'.consider dst = r.consider dst := by
    funext best candidate
    have hprefix : r'.HasPrefix dst candidate ↔ r.HasPrefix dst candidate := by
      unfold HasPrefix shiftRight
      rw [hshift]
    simp only [consider, hprefix]
  rw [search, search, hroutes, hconsider]

end Router

-- ============================================================================
-- The interfaces of a network
-- ============================================================================

/-- What never changes about a host. -/
def Host.settings (h : Host) : String × Address × Address := (h.name, h.myAddress, h.nextHop)

namespace Network

/-- The interface at a place, if there is one. -/
def station (net : Network) : Place → Option AsyncNetworkInterface
  | .router id => net.router.interfaces[id]?
  | .host name => (net.hosts.lookup name).map Host.interface

/-- What a host expects to receive. -/
def awaits (net : Network) (name : String) : Option (List IPv4Datagram) :=
  (net.hosts.lookup name).map Host.expectingToReceive

/-- The hosts are found under their names. -/
def Named (net : Network) : Prop := ∀ name h, net.hosts.lookup name = some h → h.name = name

/-- The two networks are the same but for the interfaces and what the hosts expect. -/
structure Alike (net net' : Network) : Prop where
  routes : net'.router.routes = net.router.routes
  undefinedShift : net'.router.undefinedShift = net.router.undefinedShift
  count : net'.router.interfaces.length = net.router.interfaces.length
  hosts : ∀ name, (net'.hosts.lookup name).map Host.settings =
    (net.hosts.lookup name).map Host.settings

/-- The two networks are the same but for the interfaces. -/
structure Moves (net net' : Network) : Prop extends Alike net net' where
  awaits : ∀ name, net'.awaits name = net.awaits name

variable {net net' net'' : Network} {p q : Place} {a b : AsyncNetworkInterface}

theorem Alike.trans (h : Alike net net') (h' : Alike net' net'') : Alike net net'' where
  routes := h'.routes.trans h.routes
  undefinedShift := h'.undefinedShift.trans h.undefinedShift
  count := h'.count.trans h.count
  hosts name := (h'.hosts name).trans (h.hosts name)

theorem Moves.refl (net : Network) : Moves net net :=
  ⟨⟨rfl, rfl, rfl, fun _ => rfl⟩, fun _ => rfl⟩

theorem Moves.trans (h : Moves net net') (h' : Moves net' net'') : Moves net net'' where
  toAlike := h.toAlike.trans h'.toAlike
  awaits name := (h'.awaits name).trans (h.awaits name)

theorem Alike.named (h : Alike net net') (hnamed : net.Named) : net'.Named := by
  intro name host hlookup
  have hsettings := h.hosts name
  rw [hlookup, Option.map_some] at hsettings
  obtain ⟨host₀, hlookup₀, heq⟩ := Option.map_eq_some_iff.mp hsettings.symm
  have hname : host.name = host₀.name := (Prod.mk.inj heq).1.symm
  exact hname.trans (hnamed name host₀ hlookup₀)

theorem host_eq (hnamed : net.Named) {name : String} {h : Host}
    (hlookup : net.hosts.lookup name = some h) : net.host name = .ok h := by
  unfold host
  rw [hlookup]
  exact if_neg (not_not.mpr (hnamed name h hlookup))

theorem interface_eq (hnamed : net.Named) (h : net.station p = some a) :
    net.interface p = .ok a := by
  cases p with
  | router id =>
      have h : net.router.interfaces[id]? = some a := h
      simp only [interface, h]
  | host name =>
      obtain ⟨host, hlookup, rfl⟩ := Option.map_eq_some_iff.mp h
      rw [interface, host_eq hnamed hlookup]
      rfl

theorem station_setHost (net : Network) (name : String) (h : Host) (p : Place) :
    (net.setHost name h).station p = if p = .host name then some h.interface else net.station p := by
  cases p with
  | router id => simp [station, setHost]
  | host name' =>
      simp only [station, setHost, Lib.Map.lookup_insert_eq_ite, Place.host.injEq]
      split <;> rfl

theorem station_setInterface_self (h : net.station p = some b) (a : AsyncNetworkInterface) :
    (net.setInterface p a).station p = some a := by
  cases p with
  | router id =>
      have hlt := (List.getElem?_eq_some_iff.mp h).1
      simp [station, setInterface, Router.setInterface, hlt]
  | host name =>
      obtain ⟨host, hlookup, -⟩ := Option.map_eq_some_iff.mp h
      rw [setInterface, hlookup]
      exact (station_setHost ..).trans (if_pos rfl)

theorem station_setInterface_ne (hne : q ≠ p) (a : AsyncNetworkInterface) :
    (net.setInterface p a).station q = net.station q := by
  cases p with
  | router id =>
      cases q with
      | router id' =>
          have hne : id ≠ id' := fun heq => hne (heq ▸ rfl)
          simp [station, setInterface, Router.setInterface, hne]
      | host name => rfl
  | host name =>
      rw [setInterface]
      split
      · rfl
      · exact (station_setHost ..).trans (if_neg hne)

/-- The network with another state of a host, whose settings stay the same. -/
theorem alike_setHost {name : String} {h h' : Host} (hlookup : net.hosts.lookup name = some h)
    (hsettings : h'.settings = h.settings) : Alike net (net.setHost name h') where
  routes := rfl
  undefinedShift := rfl
  count := rfl
  hosts name' := by
    show ((net.hosts.insert name h').lookup name').map _ = _
    rw [Lib.Map.lookup_insert_eq_ite]
    split
    · next heq => rw [heq, hlookup, Option.map_some, Option.map_some, hsettings]
    · rfl

theorem awaits_setHost (net : Network) (name : String) (h : Host) (name' : String) :
    (net.setHost name h).awaits name' =
      if name' = name then some h.expectingToReceive else net.awaits name' := by
  show ((net.hosts.insert name h).lookup name').map _ = _
  rw [Lib.Map.lookup_insert_eq_ite]
  split <;> rfl

theorem moves_setInterface (net : Network) (p : Place) (a : AsyncNetworkInterface) :
    Moves net (net.setInterface p a) := by
  cases p with
  | router id =>
      exact ⟨⟨rfl, rfl, by simp [setInterface, Router.setInterface], fun _ => rfl⟩, fun _ => rfl⟩
  | host name =>
      rw [setInterface]
      split
      · exact Moves.refl net
      · next h hlookup =>
          refine ⟨alike_setHost hlookup rfl, fun name' => ?_⟩
          rw [awaits_setHost]
          split
          · next heq => rw [heq, awaits, hlookup, Option.map_some]
          · rfl

/-- The network with other states of the interfaces at some places. -/
def setInterfaces (net : Network) (new : Place → AsyncNetworkInterface) (places : List Place) :
    Network :=
  places.foldl (fun net p => net.setInterface p (new p)) net

theorem moves_setInterfaces (net : Network) (new : Place → AsyncNetworkInterface)
    (places : List Place) : Moves net (net.setInterfaces new places) := by
  induction places generalizing net with
  | nil => exact Moves.refl net
  | cons p places ih => exact (moves_setInterface net p (new p)).trans (ih _)

theorem station_setInterfaces (new : Place → AsyncNetworkInterface) {places : List Place}
    (hnodup : places.Nodup) (h : ∀ p ∈ places, ∃ b, net.station p = some b) (p : Place) :
    (net.setInterfaces new places).station p =
      if p ∈ places then some (new p) else net.station p := by
  induction places generalizing net with
  | nil => rfl
  | cons q places ih =>
      obtain ⟨hq, hnodup⟩ := List.nodup_cons.mp hnodup
      obtain ⟨⟨b, hb⟩, h⟩ := List.forall_mem_cons.mp h
      have hlater : ∀ r ∈ places, ∃ b, (net.setInterface q (new q)).station r = some b := by
        intro r hr
        have hne : r ≠ q := by
          rintro rfl
          exact hq hr
        rw [station_setInterface_ne hne]
        exact h r hr
      show ((net.setInterface q (new q)).setInterfaces new places).station p = _
      rw [ih hnodup hlater]
      by_cases hp : p = q
      · subst hp
        rw [if_neg hq, station_setInterface_self hb, if_pos (List.mem_cons_self ..)]
      · rw [station_setInterface_ne hp]
        simp [hp]

-- ============================================================================
-- One exchange of frames
-- ============================================================================

/-- Two queues are heard one after the other. -/
theorem exists_deliver_of_append {frames frames' : List EthernetFrame} {a a' : AsyncNetworkInterface}
    (h : deliver (frames ++ frames') a = .ok a') :
    ∃ a₁, deliver frames a = .ok a₁ ∧ deliver frames' a₁ = .ok a' := by
  induction frames generalizing a with
  | nil => exact ⟨a, rfl, h⟩
  | cons f frames ih =>
      rw [List.cons_append, deliver] at h
      rw [deliver]
      split at h
      · cases h
      · exact ih h

/-- What `exchange_frames` on the interfaces of a cable comes to, when none of them throws. -/
theorem exchange_eq (hnamed : net.Named) {c : Cable} (hnodup : c.places.Nodup)
    {frames : Place → List EthernetFrame} {before after : Place → AsyncNetworkInterface}
    (hstation : ∀ p ∈ c.places, net.station p = some (before p))
    (hframes : ∀ p ∈ c.places, (before p).framesOut = frames p)
    (hdeliver : ∀ p ∈ c.places,
      deliver ((c.places.filter (· ≠ p)).flatMap frames) (before p) = .ok (after p)) :
    net.exchange c =
      .ok (net.setInterfaces (fun p => (after p).clear (frames p)) c.places) := by
  have hinterface : ∀ p ∈ c.places, net.interface p = .ok (before p) := fun p hp =>
    interface_eq hnamed (hstation p hp)
  cases c with
  | two x y =>
      have hxy : x ≠ y := by
        rintro rfl
        simp [Cable.places] at hnodup
      simp only [Cable.places, List.forall_mem_cons, List.not_mem_nil, false_imp_iff, implies_true,
        and_true, List.filter_cons, List.filter_nil, ne_eq, hxy, hxy.symm, not_true_eq_false,
        not_false_eq_true, decide_true, decide_false, if_true, Bool.false_eq_true, if_false,
        List.flatMap_cons, List.flatMap_nil, List.append_nil] at hinterface hframes hdeliver
      simp only [exchange, hinterface, bind, Except.bind, AsyncNetworkInterface.exchangeFrames,
        hframes, hdeliver, pure, Except.pure]
      rfl
  | three x y z =>
      obtain ⟨hxy, hxz, hyz⟩ : x ≠ y ∧ x ≠ z ∧ y ≠ z := by
        simpa [Cable.places, and_assoc] using hnodup
      simp only [Cable.places, List.forall_mem_cons, List.not_mem_nil, false_imp_iff, implies_true,
        and_true, List.filter_cons, List.filter_nil, ne_eq, hxy, hxy.symm, hxz, hxz.symm, hyz,
        hyz.symm, not_true_eq_false, not_false_eq_true, decide_true, decide_false, if_true,
        Bool.false_eq_true, if_false, List.flatMap_cons, List.flatMap_nil, List.append_nil]
        at hinterface hframes hdeliver
      -- each of the three hears the queues of the others one after the other
      obtain ⟨a₁, ha₁, hx⟩ := exists_deliver_of_append hdeliver.1
      obtain ⟨b₁, hb₁, hy⟩ := exists_deliver_of_append hdeliver.2.1
      obtain ⟨c₁, hc₁, hz⟩ := exists_deliver_of_append hdeliver.2.2
      simp only [exchange, hinterface, bind, Except.bind, AsyncNetworkInterface.exchangeFrames3,
        hframes, ha₁, hb₁, hc₁, hx, hy, hz, pure, Except.pure]
      rfl

/-- Each interface hears what the others have to send, and what it has sent is gone. -/
theorem exchange_spec (hnamed : net.Named) {c : Cable} (hnodup : c.places.Nodup)
    (frames : Place → List EthernetFrame) (P : Place → AsyncNetworkInterface → Prop)
    (h : ∀ p ∈ c.places, ∃ a a', net.station p = some a ∧ a.framesOut = frames p ∧
      deliver ((c.places.filter (· ≠ p)).flatMap frames) a = .ok a' ∧ P p (a'.clear (frames p))) :
    ∃ net', net.exchange c = .ok net' ∧ Moves net net' ∧
      (∀ p ∈ c.places, ∃ a, net'.station p = some a ∧ P p a) ∧
      ∀ p, p ∉ c.places → net'.station p = net.station p := by
  have : Nonempty AsyncNetworkInterface := by
    cases c with
    | two x y | three x y z => exact ⟨(h x (List.mem_cons_self ..)).choose⟩
  choose! before after hstation hframes hdeliver hP using h
  have hnew := station_setInterfaces (fun p => (after p).clear (frames p)) hnodup
    fun p hp => ⟨before p, hstation p hp⟩
  refine ⟨_, exchange_eq hnamed hnodup hstation hframes hdeliver, moves_setInterfaces .., ?_, ?_⟩
  · intro p hp
    exact ⟨_, (hnew p).trans (if_pos hp), hP p hp⟩
  · intro p hp
    exact (hnew p).trans (if_neg hp)

-- ============================================================================
-- States of the whole network
-- ============================================================================

/-- The plan is that of the network. -/
structure Fits (W : Plan) (net₀ : Network) : Prop where
  proper : W.Proper
  named : net₀.Named
  routers : ∀ i, i < net₀.router.interfaces.length → .router i ∈ W.places
  hosts : ∀ name h, net₀.hosts.lookup name = some h → .host name ∈ W.places

/-- The network `net₀` at some time: what the interfaces hold, and what the hosts expect. -/
structure Snapshot (W : Plan) (net₀ : Network) (frames : Place → List EthernetFrame)
    (held : Place → Address → List IPv4Datagram) (out : Place → List IPv4Datagram)
    (expected : String → List IPv4Datagram) (net : Network) : Prop where
  alike : Alike net₀ net
  stations : ∀ p ∈ W.places, ∃ a, net.station p = some a ∧
    Station W p (frames p) (held p) (out p) a
  awaits : ∀ name l, net.awaits name = some l → l = expected name

/-- Nothing is under way. -/
def Rest (W : Plan) (net₀ : Network) (out : Place → List IPv4Datagram)
    (expected : String → List IPv4Datagram) : Network → Prop :=
  Snapshot W net₀ (fun _ => []) (fun _ _ => []) out expected

/-- A transfer is under way. -/
def Underway (W : Plan) (net₀ : Network) (t : Transfer) (phase : Phase)
    (out : Place → List IPv4Datagram) (expected : String → List IPv4Datagram) : Network → Prop :=
  Snapshot W net₀ (t.framesAt W phase) (t.heldAt W phase) out expected

section

variable {W : Plan} {net₀ net : Network} {out : Place → List IPv4Datagram}
  {expected : String → List IPv4Datagram} {frames : Place → List EthernetFrame}
  {held : Place → Address → List IPv4Datagram} {t : Transfer} {c c₀ : Cable} {phase : Phase}

theorem underway_done : Underway W net₀ t .done out expected = Rest W net₀ out expected := by
  have hheld : t.heldAt W .done = fun _ _ => [] := by
    funext p ip
    simp [Transfer.heldAt]
  rw [Underway, hheld]
  rfl

theorem Snapshot.named (h : Snapshot W net₀ frames held out expected net) (hfits : Fits W net₀) :
    net.Named := h.alike.named hfits.named

/-- A change of the interfaces. -/
theorem Snapshot.moves {net' : Network} {frames' : Place → List EthernetFrame}
    {held' : Place → Address → List IPv4Datagram} {out' : Place → List IPv4Datagram}
    (h : Snapshot W net₀ frames held out expected net) (hmoves : Moves net net')
    (hstations : ∀ p ∈ W.places, ∃ a, net'.station p = some a ∧
      Station W p (frames' p) (held' p) (out' p) a) :
    Snapshot W net₀ frames' held' out' expected net' :=
  ⟨h.alike.trans hmoves.toAlike, hstations, fun name l hl => h.awaits name l (hmoves.awaits name ▸ hl)⟩

/-- On a cable without frames nothing happens. -/
theorem Snapshot.exchange_idle (h : Snapshot W net₀ frames held out expected net)
    (hfits : Fits W net₀) (hc : c ∈ W.cables) (hidle : ∀ p ∈ c.places, frames p = []) :
    ∃ net', net.exchange c = .ok net' ∧ Snapshot W net₀ frames held out expected net' := by
  have hothers : ∀ p, (c.places.filter (· ≠ p)).flatMap frames = [] := by
    intro p
    rw [List.flatMap_eq_nil_iff]
    exact fun q hq => hidle q (List.mem_of_mem_filter hq)
  obtain ⟨net', hexchange, hmoves, hon, hoff⟩ := exchange_spec (h.named hfits)
    (hfits.proper.nodup c hc) frames
    (fun p a => Station W p (frames p) (held p) (out p) a) (by
      intro p hp
      obtain ⟨a, hstation, ha⟩ := h.stations p (hfits.proper.placed c hc p hp)
      refine ⟨a, a, hstation, ha.framesOut, by rw [hothers]; rfl, ?_⟩
      rw [hidle p hp] at ha ⊢
      exact Station.clear ha)
  refine ⟨net', hexchange, h.moves hmoves fun p hp => ?_⟩
  by_cases hpc : p ∈ c.places
  · exact hon p hpc
  · rw [hoff p hpc]
    exact h.stations p hp

/-- On the cable of the transfer the next phase is reached. -/
theorem Snapshot.exchange_transfer (h : Underway W net₀ t phase out expected net)
    (hfits : Fits W net₀) (ht : t.On W c) :
    ∃ net', net.exchange c = .ok net' ∧
      Underway W net₀ t phase.next (t.outAfter phase out) expected net' := by
  obtain ⟨net', hexchange, hmoves, hon, hoff⟩ := exchange_spec (Snapshot.named h hfits)
    (hfits.proper.nodup c ht.cable) (t.framesAt W phase)
    (fun p a => Station W p (t.framesAt W phase.next p) (t.heldAt W phase.next p)
      (t.outAfter phase out p) a) (by
      intro p hp
      obtain ⟨a, hstation, ha⟩ := h.stations p (hfits.proper.placed c ht.cable p hp)
      obtain ⟨a', hdeliver, ha'⟩ := Transfer.hears hfits.proper ht hp phase ha
      exact ⟨a, a', hstation, ha.framesOut, hdeliver, ha'⟩)
  refine ⟨net', hexchange, Snapshot.moves h hmoves fun p hp => ?_⟩
  by_cases hpc : p ∈ c.places
  · exact hon p hpc
  · have hne : p ≠ t.y := by
      rintro rfl
      exact hpc ht.y_mem
    have hstation := h.stations p hp
    rw [Transfer.framesAt_of_notMem ht _ hpc, Transfer.heldAt_of_notMem ht _ hpc] at hstation
    rw [hoff p hpc, Transfer.framesAt_of_notMem ht _ hpc, Transfer.heldAt_of_notMem ht _ hpc,
      Transfer.outAfter_of_ne _ _ hne]
    exact hstation

/-- The cables of a list, one of which may be that of the transfer. -/
theorem Snapshot.exchangeAll (hfits : Fits W net₀) (ht : t.On W c₀) {cables : List Cable}
    (hcables : cables.Nodup) (hsub : ∀ c ∈ cables, c ∈ W.cables)
    (h : Underway W net₀ t phase out expected net) :
    ∃ net', net.exchangeAll cables = .ok net' ∧
      if c₀ ∈ cables then Underway W net₀ t phase.next (t.outAfter phase out) expected net'
      else Underway W net₀ t phase out expected net' := by
  induction cables generalizing net phase out with
  | nil => exact ⟨net, rfl, h⟩
  | cons c cables ih =>
      obtain ⟨hnot, hcables⟩ := List.nodup_cons.mp hcables
      obtain ⟨hc, hsub⟩ := List.forall_mem_cons.mp hsub
      by_cases heq : c = c₀
      · subst heq
        obtain ⟨net₁, hexchange, h₁⟩ := Snapshot.exchange_transfer h hfits ht
        obtain ⟨net', hall, h'⟩ := ih hcables hsub h₁
        refine ⟨net', ?_, ?_⟩
        · rw [Network.exchangeAll, hexchange]
          exact hall
        · rw [if_neg hnot] at h'
          rw [if_pos (List.mem_cons_self ..)]
          exact h'
      · have hidle : ∀ p ∈ c.places, t.framesAt W phase p = [] := fun p hp =>
          Transfer.framesAt_of_notMem ht _ fun hp' =>
            heq (hfits.proper.single c hc c₀ ht.cable p hp hp')
        obtain ⟨net₁, hexchange, h₁⟩ := Snapshot.exchange_idle h hfits hc hidle
        obtain ⟨net', hall, h'⟩ := ih hcables hsub h₁
        refine ⟨net', ?_, ?_⟩
        · rw [Network.exchangeAll, hexchange]
          exact hall
        · simp only [List.mem_cons, Ne.symm heq, false_or]
          exact h'

theorem Rest.exchangeAll (hfits : Fits W net₀) {cables : List Cable}
    (hsub : ∀ c ∈ cables, c ∈ W.cables) (h : Rest W net₀ out expected net) :
    ∃ net', net.exchangeAll cables = .ok net' ∧ Rest W net₀ out expected net' := by
  induction cables generalizing net with
  | nil => exact ⟨net, rfl, h⟩
  | cons c cables ih =>
      obtain ⟨hc, hsub⟩ := List.forall_mem_cons.mp hsub
      obtain ⟨net₁, hexchange, h₁⟩ := Snapshot.exchange_idle h hfits hc fun _ _ => rfl
      obtain ⟨net', hall, h'⟩ := ih hsub h₁
      refine ⟨net', ?_, h'⟩
      rw [Network.exchangeAll, hexchange]
      exact hall

-- ============================================================================
-- Routing
-- ============================================================================

theorem Snapshot.queue_eq (h : Snapshot W net₀ frames held out expected net)
    (hfits : Fits W net₀) {i : Nat} (hi : i < net₀.router.interfaces.length) :
    net.router.queue i = out (.router i) := by
  obtain ⟨a, hstation, ha⟩ := h.stations _ (hfits.routers i hi)
  have hstation : net.router.interfaces[i]? = some a := hstation
  rw [Router.queue, hstation]
  exact ha.datagramsOut

theorem Snapshot.queue_nil (h : Snapshot W net₀ frames held out expected net) {i : Nat}
    (hi : ¬ i < net₀.router.interfaces.length) : net.router.queue i = [] := by
  have hnone : net.router.interfaces[i]? = none := by
    rw [List.getElem?_eq_none_iff, h.alike.count]
    exact Nat.not_lt.mp hi
  rw [Router.queue, hnone]

/-- Nothing waits at the router. -/
theorem Snapshot.route_idle (h : Snapshot W net₀ frames held out expected net)
    (hfits : Fits W net₀) (hquiet : ∀ i, out (.router i) = []) : net.route = .ok net := by
  have hroute : net.router.route = (.ok (), net.router) := by
    refine Router.routeAll_empty fun i hi => ?_
    rw [List.mem_range, h.alike.count] at hi
    rw [h.queue_eq hfits hi, hquiet]
  rw [route, hroute]

theorem Snapshot.takeQueue (h : Snapshot W net₀ frames held out expected net)
    (hfits : Fits W net₀) {i : Nat} (hi : i < net₀.router.interfaces.length) :
    Snapshot W net₀ frames held (Function.update out (.router i) []) expected
      { net with router := net.router.setQueue i [] } := by
  obtain ⟨a, hstation, ha⟩ := h.stations _ (hfits.routers i hi)
  have hqueue : net.router.setQueue i [] = net.router.setInterface i { a with datagramsOut := [] } := by
    have hstation : net.router.interfaces[i]? = some a := hstation
    rw [Router.setQueue, hstation]
  rw [hqueue]
  refine h.moves (moves_setInterface net (.router i) _) fun p hp => ?_
  by_cases heq : p = .router i
  · subst heq
    rw [Function.update_self]
    exact ⟨_, station_setInterface_self hstation _, ha.ethernetAddress, ha.ipAddress, ha.framesOut,
      ha.pending, ha.serializes, rfl, ha.truthful, ha.answered⟩
  · rw [Function.update_of_ne heq]
    obtain ⟨b, hb, hstation'⟩ := h.stations p hp
    exact ⟨b, (station_setInterface_ne heq _).trans hb, hstation'⟩

/-- One datagram waits at the router, and it can be routed. -/
theorem Snapshot.route_single (h : Snapshot W net₀ frames held out expected net)
    (hfits : Fits W net₀) {i : Nat} (hi : i < net₀.router.interfaces.length)
    {dgram : IPv4Datagram} (hout : out (.router i) = [dgram])
    (hothers : ∀ j, j ≠ i → out (.router j) = []) {r' : Router}
    (hroute : net.router.routeOneDatagram dgram = .ok r')
    {frames' : Place → List EthernetFrame} {held' : Place → Address → List IPv4Datagram}
    (h' : Snapshot W net₀ frames' held' out expected { net with router := r' }) :
    ∃ net', net.route = .ok net' ∧
      Snapshot W net₀ frames' held' (Function.update out (.router i) []) expected net' := by
  have hsame : ∀ j, r'.queue j = net.router.queue j := by
    intro j
    by_cases hj : j < net₀.router.interfaces.length
    · exact (h'.queue_eq hfits hj).trans (h.queue_eq hfits hj).symm
    · exact (h'.queue_nil hj).trans (h.queue_nil hj).symm
  have hrouted : net.router.route = (.ok (), r'.setQueue i []) := by
    refine Router.routeAll_single List.nodup_range ?_ ((h.queue_eq hfits hi).trans hout) ?_ hroute hsame
    · rw [List.mem_range, h.alike.count]
      exact hi
    · intro j hj hne
      rw [List.mem_range, h.alike.count] at hj
      rw [h.queue_eq hfits hj, hothers j hne]
  refine ⟨_, ?_, h'.takeQueue hfits hi⟩
  rw [route, hrouted]

/-- An interface of a network at rest sends a datagram to a neighbour. -/
theorem Rest.starts (h : Rest W net₀ out expected net) (hfits : Fits W net₀) (ht : t.On W c) :
    ∃ a n phase, net.station t.x = some a ∧ a.sendDatagram t.dgram (W.ip t.y) = .ok n ∧
      phase ≠ .done ∧
      Underway W net₀ t phase out expected
        (net.setInterface t.x { a with toNetworkInterface := n }) := by
  obtain ⟨a, hstation, ha⟩ := h.stations t.x (hfits.proper.placed c ht.cable _ ht.x_mem)
  obtain ⟨n, phase, hsend, hphase, hstart⟩ := Transfer.starts hfits.proper ht ha
  refine ⟨a, n, phase, hstation, hsend, by rcases hphase with rfl | rfl <;> decide,
    Snapshot.moves h (moves_setInterface ..) fun p hp => ?_⟩
  by_cases heq : p = t.x
  · subst heq
    exact ⟨_, station_setInterface_self hstation _, hstart⟩
  · have hframes : t.framesAt W phase p = [] := by
      rcases hphase with rfl | rfl <;> exact if_neg heq
    have hheld : t.heldAt W phase p = fun _ => [] := by
      funext ip
      simp [Transfer.heldAt, heq]
    obtain ⟨b, hb, hrest⟩ := h.stations p hp
    refine ⟨b, (station_setInterface_ne heq _).trans hb, ?_⟩
    rw [hframes, hheld]
    exact hrest

/-- The router passes a datagram on. -/
theorem Rest.route_forward (h : Rest W net₀ out expected net) (hfits : Fits W net₀) {i : Nat}
    (hi : i < net₀.router.interfaces.length) {dgram : IPv4Datagram}
    (hout : out (.router i) = [dgram]) (hothers : ∀ j, j ≠ i → out (.router j) = [])
    (httl : ¬ dgram.header.ttl ≤ 1) {found : Route}
    (hsearch : net₀.router.search dgram.header.dst = (true, found))
    (hx : t.x = .router found.interfaceNum) (hdgram : t.dgram = dgram.decrementTtl)
    (hhop : found.nextHop.getD dgram.header.dst = W.ip t.y) (ht : t.On W c) :
    ∃ net' phase, net.route = .ok net' ∧ phase ≠ .done ∧
      Underway W net₀ t phase (Function.update out (.router i) []) expected net' := by
  obtain ⟨a, n, phase, hstation, hsend, hphase, hunderway⟩ := Rest.starts h hfits ht
  rw [hx] at hstation hunderway
  have hstation : net.router.interfaces[found.interfaceNum]? = some a := hstation
  have hsearch' : net.router.search dgram.decrementTtl.header.dst = (true, found) :=
    (Router.search_congr h.alike.routes h.alike.undefinedShift _).trans hsearch
  have hsent : net.router.sendOn found.interfaceNum dgram.decrementTtl (W.ip t.y) =
      .ok (net.router.setInterface found.interfaceNum { a with toNetworkInterface := n }) := by
    rw [Router.sendOn, hstation]
    rw [hdgram] at hsend
    simp only [hsend, bind, Except.bind, pure, Except.pure]
  have hroute : net.router.routeOneDatagram dgram =
      net.router.sendOn found.interfaceNum dgram.decrementTtl (W.ip t.y) := by
    simp only [Router.routeOneDatagram, if_neg httl, hsearch', if_true]
    rw [← hhop]
    cases found.nextHop <;> rfl
  obtain ⟨net', hrouted, h'⟩ :=
    Snapshot.route_single h hfits hi hout hothers (hroute.trans hsent) hunderway
  exact ⟨net', phase, hrouted, hphase, h'⟩

/-- The router drops a datagram. -/
theorem Rest.route_drop (h : Rest W net₀ out expected net) (hfits : Fits W net₀) {i : Nat}
    (hi : i < net₀.router.interfaces.length) {dgram : IPv4Datagram}
    (hout : out (.router i) = [dgram]) (hothers : ∀ j, j ≠ i → out (.router j) = [])
    (hdrop : dgram.header.ttl ≤ 1 ∨ (net₀.router.search dgram.header.dst).1 = false) :
    ∃ net', net.route = .ok net' ∧
      Rest W net₀ (Function.update out (.router i) []) expected net' := by
  have hroute : net.router.routeOneDatagram dgram = .ok net.router := by
    have hsearch : net.router.search dgram.decrementTtl.header.dst =
        net₀.router.search dgram.header.dst :=
      Router.search_congr h.alike.routes h.alike.undefinedShift _
    by_cases httl : dgram.header.ttl ≤ 1
    · exact if_pos httl
    · rcases hfound : net₀.router.search dgram.header.dst with ⟨found, best⟩
      rw [hfound] at hdrop
      obtain rfl : found = false := hdrop.resolve_left httl
      simp only [Router.routeOneDatagram, if_neg httl, hsearch, hfound, Bool.false_eq_true, if_false]
  exact Snapshot.route_single h hfits hi hout hothers hroute h

-- ============================================================================
-- Passes
-- ============================================================================

theorem rounds_rest (hfits : Fits W net₀) (hquiet : ∀ i, out (.router i) = []) (n : Nat)
    (h : Rest W net₀ out expected net) :
    ∃ net', rounds W.cables n net = .ok net' ∧ Rest W net₀ out expected net' := by
  induction n generalizing net with
  | zero => exact ⟨net, rfl, h⟩
  | succ n ih =>
      obtain ⟨net₁, hexchange, h₁⟩ := Rest.exchangeAll hfits (fun _ hc => hc) h
      obtain ⟨net', hrounds, h'⟩ := ih h₁
      refine ⟨net', ?_, h'⟩
      rw [rounds, Snapshot.route_idle h hfits hquiet]
      simp only [bind, Except.bind, hexchange]
      exact hrounds

/-- A pass moves the transfer on. -/
theorem round_transfer (hfits : Fits W net₀) (ht : t.On W c) (hquiet : ∀ i, out (.router i) = [])
    (h : Underway W net₀ t phase out expected net) (n : Nat) :
    ∃ net', rounds W.cables (n + 1) net = rounds W.cables n net' ∧
      Underway W net₀ t phase.next (t.outAfter phase out) expected net' := by
  obtain ⟨net', hexchange, h'⟩ :=
    Snapshot.exchangeAll hfits ht hfits.proper.cables_nodup (fun _ hc => hc) h
  rw [if_pos ht.cable] at h'
  refine ⟨net', ?_, h'⟩
  rw [rounds, Snapshot.route_idle h hfits hquiet]
  simp only [bind, Except.bind, hexchange]

/-- After the passes that are left the datagram has arrived. -/
theorem rounds_transfer (hfits : Fits W net₀) (ht : t.On W c) (hquiet : ∀ i, out (.router i) = [])
    (h : Underway W net₀ t phase out expected net) (hphase : phase ≠ .done) (n : Nat) :
    ∃ net', rounds W.cables (n + phase.left) net = rounds W.cables n net' ∧
      Rest W net₀ (Function.update out t.y (out t.y ++ [t.dgram.arrived])) expected net' := by
  have hsending : ∀ {net}, Underway W net₀ t .sending out expected net →
      ∃ net', rounds W.cables (n + 1) net = rounds W.cables n net' ∧
        Rest W net₀ (Function.update out t.y (out t.y ++ [t.dgram.arrived])) expected net' := by
    intro net h
    obtain ⟨net', hround, h'⟩ := round_transfer hfits ht hquiet h n
    exact ⟨net', hround, underway_done ▸ h'⟩
  have hanswered : ∀ {net}, Underway W net₀ t .answered out expected net →
      ∃ net', rounds W.cables (n + 2) net = rounds W.cables n net' ∧
        Rest W net₀ (Function.update out t.y (out t.y ++ [t.dgram.arrived])) expected net' := by
    intro net h
    obtain ⟨net₁, hround, h₁⟩ := round_transfer hfits ht hquiet h (n + 1)
    obtain ⟨net', hround', h'⟩ := hsending h₁
    exact ⟨net', hround.trans hround', h'⟩
  cases phase with
  | asking =>
      obtain ⟨net₁, hround, h₁⟩ := round_transfer hfits ht hquiet h (n + 2)
      obtain ⟨net', hround', h'⟩ := hanswered h₁
      exact ⟨net', hround.trans hround', h'⟩
  | answered => exact hanswered h
  | sending => exact hsending h
  | done => exact absurd rfl hphase

/-- The same, if the transfer starts with what the router does in the first pass. -/
theorem rounds_forward (hfits : Fits W net₀) (ht : t.On W c) (hquiet : ∀ i, out (.router i) = [])
    {net₁ : Network} (hroute : net.route = .ok net₁)
    (h : Underway W net₀ t phase out expected net₁) (hphase : phase ≠ .done) (n : Nat) :
    ∃ net', rounds W.cables (n + phase.left) net = rounds W.cables n net' ∧
      Rest W net₀ (Function.update out t.y (out t.y ++ [t.dgram.arrived])) expected net' := by
  obtain ⟨net', hrounds, h'⟩ := rounds_transfer hfits ht hquiet h hphase n
  refine ⟨net', ?_, h'⟩
  have hleft : n + phase.left = n + (phase.left - 1) + 1 := by
    have : phase.left ≠ 0 := fun hzero => hphase (Phase.eq_done_of_left hzero)
    omega
  rw [← hrounds, hleft, rounds, rounds, hroute, Snapshot.route_idle h hfits hquiet]

end

-- ============================================================================
-- Where a datagram goes
-- ============================================================================

/-- The next hop of the host is an interface of the router. -/
def Behind (W : Plan) (net₀ : Network) (source : String) : Prop :=
  ∃ h i, net₀.hosts.lookup source = some h ∧ h.nextHop = W.ip (.router i) ∧
    W.Mates (.host source) (.router i)

/-- Where a datagram comes out that a host behind the router sends. -/
inductive Fate (W : Plan) (net₀ : Network) (destination : Address) (ttl : UInt8) :
    Option String → Prop
  | dropped (h : ttl ≤ 1 ∨ (net₀.router.search destination).1 = false) :
      Fate W net₀ destination ttl none
  | delivered {found : Route} {receiver : String} (httl : ¬ ttl ≤ 1)
      (hsearch : net₀.router.search destination = (true, found))
      (hmates : W.Mates (.router found.interfaceNum) (.host receiver))
      (hhop : found.nextHop.getD destination = W.ip (.host receiver)) :
      Fate W net₀ destination ttl (some receiver)

end Network

end Sponge
