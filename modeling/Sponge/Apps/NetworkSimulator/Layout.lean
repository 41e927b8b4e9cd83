/-
  Sponge.Apps.NetworkSimulator.Layout

  The network that the program builds, and where its table leads the datagrams of the tests.

  All that is random about it are the Ethernet addresses.  Two interfaces on a cable may
  draw the same one, and then a host may be taken for another one; if they do not, the
  network fits its plan, and it begins at rest.
-/

import Sponge.Apps.NetworkSimulator.Delivery
import Sponge.Router.Forwarding

namespace Sponge

open Lib (Map)

-- ============================================================================
-- The search in a table, entry by entry
-- ============================================================================

namespace RouteEntry

instance (e : RouteEntry) (dst : UInt32) : Decidable (e.Matches dst) :=
  inferInstanceAs (Decidable (∀ k, k < 32 → _ → _))

/-- The better of the best entry so far and another one. -/
def prefer (dst : UInt32) (best : Option RouteEntry) (e : RouteEntry) : Option RouteEntry :=
  if (best.elim 0 (·.prefixLength)) ≤ e.prefixLength ∧ e.Matches dst then some e else best

/-- What the search makes of the best entry. -/
def found (r : Router) : Option RouteEntry → Bool × Route
  | none => (false, {})
  | some e => (true, e.stored r)

end RouteEntry

/-- The search compares the entries of the table, whatever a shift by 32 yields. -/
theorem Router.search_addRoutes (r : Router) (hr : r.routes = []) {entries : List RouteEntry}
    (hentries : ∀ e ∈ entries, e.prefixLength ≤ 32) (dst : UInt32) :
    (r.addRoutes entries).search dst =
      RouteEntry.found r (entries.foldl (RouteEntry.prefer dst) none) := by
  have hstep : ∀ best e, e.prefixLength ≤ 32 →
      r.consider dst (RouteEntry.found r best) (e.stored r) =
        RouteEntry.found r (RouteEntry.prefer dst best e) := by
    intro best e he
    have hbest : (RouteEntry.found r best).2.prefixLength = best.elim 0 (·.prefixLength) := by
      cases best <;> rfl
    have hlength : (e.stored r).prefixLength = e.prefixLength := rfl
    simp only [Router.consider, RouteEntry.prefer, hbest, hlength, Router.hasPrefix_iff he, ge_iff_le]
    split <;> rfl
  have hscan : ∀ best, (entries.map (·.stored r)).foldl (r.consider dst) (RouteEntry.found r best) =
      RouteEntry.found r (entries.foldl (RouteEntry.prefer dst) best) := by
    induction entries with
    | nil => exact fun _ => rfl
    | cons e entries ih =>
        obtain ⟨he, hentries⟩ := List.forall_mem_cons.mp hentries
        intro best
        rw [List.map_cons, List.foldl_cons, hstep best e he, ih hentries, List.foldl_cons]
  have hsearch : (r.addRoutes entries).search dst =
      Router.search { r with routes := entries.map (·.stored r) } dst := by
    rw [addRoutes_eq, hr, List.nil_append]
  exact hsearch.trans (hscan none)

-- ============================================================================
-- The network
-- ============================================================================

/-- The Ethernet address that an interface draws. -/
def drawnAddress (rd : Place → EthernetAddress) : Place → EthernetAddress
  | .router id => randomRouterEthernetAddress (rd (.router id))
  | .host name => randomHostEthernetAddress (rd (.host name))

/-- The names of the hosts, their addresses and their next hops. -/
def simulatorHosts : List (String × Address × Address) :=
  [("applesauce", dotted 10 0 0 2, dotted 10 0 0 1),
   ("default_router", dotted 171 67 76 1, 0),
   ("cherrypie", dotted 192 168 0 2, dotted 192 168 0 1),
   ("hs_router", dotted 143 195 0 1, 0),
   ("dm42", dotted 198 178 229 42, dotted 198 178 229 1),
   ("dm43", dotted 198 178 229 43, dotted 198 178 229 1)]

/-- The addresses of the interfaces of the router. -/
def simulatorInterfaces : List Address :=
  [dotted 171 67 76 46, dotted 10 0 0 1, dotted 172 16 0 1, dotted 192 168 0 1,
   dotted 198 178 229 1, dotted 143 195 0 2, dotted 128 30 76 255]

/-- The table of the router. -/
def simulatorRoutes : List RouteEntry :=
  [⟨dotted 0 0 0 0, 0, some (dotted 171 67 76 1), 0⟩,
   ⟨dotted 10 0 0 0, 8, none, 1⟩,
   ⟨dotted 172 16 0 0, 16, none, 2⟩,
   ⟨dotted 192 168 0 0, 24, none, 3⟩,
   ⟨dotted 198 178 229 0, 24, none, 4⟩,
   ⟨dotted 143 195 0 0, 17, some (dotted 143 195 0 1), 5⟩,
   ⟨dotted 143 195 128 0, 18, some (dotted 143 195 0 1), 5⟩,
   ⟨dotted 143 195 192 0, 19, some (dotted 143 195 0 1), 5⟩,
   ⟨dotted 128 30 76 255, 16, some (dotted 128 30 0 1), 6⟩]

/-- The hosts with what they have drawn. -/
def simulatorHostTable (rd : Place → EthernetAddress) (entries : List (String × Address × Address)) :
    Map String Host :=
  entries.foldl (fun hosts e =>
    hosts.insert e.1 (.new e.1 (drawnAddress rd (.host e.1)) e.2.1 e.2.2)) ∅

/-- What the constructor of `Network` builds. -/
def simulatorNetwork (undefinedShift : UInt32 → Int → UInt32) (rd : Place → EthernetAddress) :
    Network where
  router := Router.addRoutes
    { undefinedShift
      interfaces := simulatorInterfaces.mapIdx fun id ip =>
        { toNetworkInterface := .new (drawnAddress rd (.router id)) ip } } simulatorRoutes
  defaultId := 0
  eth0Id := 1
  eth1Id := 2
  eth2Id := 3
  uun3Id := 4
  hs4Id := 5
  mit5Id := 6
  hosts := simulatorHostTable rd simulatorHosts

section

variable (undefinedShift : UInt32 → Int → UInt32) (rd : Place → EthernetAddress)

theorem new_eq : Network.new undefinedShift rd = .ok (simulatorNetwork undefinedShift rd) := rfl

/-- The cables of the network. -/
def simulatorCables : List Cable :=
  [.two (.router 0) (.host "default_router"), .two (.router 1) (.host "applesauce"),
   .two (.router 3) (.host "cherrypie"), .two (.router 5) (.host "hs_router"),
   .three (.router 4) (.host "dm42") (.host "dm43")]

/-- The interfaces of the network. -/
def simulatorPlaces : List Place :=
  (List.range simulatorInterfaces.length).map .router ++ simulatorHosts.map (.host ·.1)

/-- The address of an interface. -/
def simulatorIp : Place → Address
  | .router id => simulatorInterfaces[id]?.getD 0
  | .host name => ((simulatorHosts.find? (·.1 = name)).map (·.2.1)).getD 0

/-- The plan of the network. -/
def simulatorPlan : Plan where
  ip := simulatorIp
  eth := drawnAddress rd
  places := simulatorPlaces
  cables := simulatorCables

/-- At the start every interface is new. -/
theorem station_simulatorNetwork : ∀ p ∈ simulatorPlaces,
    (simulatorNetwork undefinedShift rd).station p =
      some { toNetworkInterface := .new (drawnAddress rd p) (simulatorIp p) } := by
  have hplaces : simulatorPlaces =
      [.router 0, .router 1, .router 2, .router 3, .router 4, .router 5, .router 6,
       .host "applesauce", .host "default_router", .host "cherrypie", .host "hs_router",
       .host "dm42", .host "dm43"] := rfl
  rw [hplaces]
  simp only [List.forall_mem_cons, List.not_mem_nil, false_imp_iff, implies_true, and_true]
  exact ⟨rfl, rfl, rfl, rfl, rfl, rfl, rfl, rfl, rfl, rfl, rfl, rfl, rfl⟩

/-- A host of the network is one of the list. -/
theorem lookup_simulatorHostTable {entries : List (String × Address × Address)} {name : String}
    {h : Host} (hlookup : (simulatorHostTable rd entries).lookup name = some h) :
    h.name = name ∧ h.expectingToReceive = [] ∧ name ∈ entries.map (·.1) := by
  induction entries using List.reverseRecOn with
  | nil => cases hlookup
  | append_singleton entries e ih =>
      unfold simulatorHostTable at ih hlookup
      rw [List.foldl_append, List.foldl_cons, List.foldl_nil, Map.lookup_insert_eq_ite] at hlookup
      rw [List.map_append, List.mem_append]
      split at hlookup
      · next heq =>
          rw [← Option.some.inj hlookup]
          exact ⟨heq.symm, rfl, Or.inr (by simp [heq])⟩
      · obtain ⟨hname, hexpected, hmem⟩ := ih hlookup
        exact ⟨hname, hexpected, Or.inl hmem⟩

/-- The interfaces on a cable have drawn different addresses. -/
def DrawsApart : Prop :=
  ∀ c ∈ simulatorCables, ∀ p ∈ c.places, ∀ q ∈ c.places,
    drawnAddress rd p = drawnAddress rd q → p = q

instance : Decidable (DrawsApart rd) := inferInstanceAs (Decidable (∀ c ∈ simulatorCables, _))

/-- Bytes that set all the addresses of a cable apart. -/
def numberedAddress : Place → EthernetAddress
  | .router id => ⟨[0, 0, 0, 0, 0, id.toUInt8], rfl⟩
  | .host name => ⟨[0, 0, 0, 0, 1, (name.toList.getLastD '0').toNat.toUInt8], rfl⟩

variable {rd}

theorem fits_simulatorNetwork (hapart : DrawsApart rd) :
    Network.Fits (simulatorPlan rd) (simulatorNetwork undefinedShift rd) where
  proper :=
    { placed := show ∀ c ∈ simulatorCables, ∀ p ∈ c.places, p ∈ simulatorPlaces by decide
      cables_nodup := show simulatorCables.Nodup by decide
      nodup := show ∀ c ∈ simulatorCables, c.places.Nodup by decide
      single := show ∀ c ∈ simulatorCables, ∀ c' ∈ simulatorCables, ∀ p ∈ c.places,
        p ∈ c'.places → c = c' by decide
      ip_inj := show ∀ c ∈ simulatorCables, ∀ p ∈ c.places, ∀ q ∈ c.places,
        simulatorIp p = simulatorIp q → p = q by decide
      eth_inj := hapart }
  named _ _ hlookup := (lookup_simulatorHostTable rd hlookup).1
  routers := show ∀ i, i < simulatorInterfaces.length → Place.router i ∈ simulatorPlaces by decide
  hosts name _ hlookup := by
    have hall : ∀ name ∈ simulatorHosts.map (·.1), Place.host name ∈ simulatorPlaces := by decide
    exact hall name (lookup_simulatorHostTable rd hlookup).2.2

/-- At the start the network is at rest. -/
theorem rest_simulatorNetwork :
    Network.Rest (simulatorPlan rd) (simulatorNetwork undefinedShift rd) (fun _ => []) (fun _ => [])
      (simulatorNetwork undefinedShift rd) := by
  refine ⟨⟨rfl, rfl, rfl, fun _ => rfl⟩, fun p hp => ?_, fun name l hl => ?_⟩
  · refine ⟨_, station_simulatorNetwork undefinedShift rd p hp, rfl, rfl, rfl, fun _ => rfl, ?_, rfl,
      ?_, ?_⟩
    · exact fun ip d hd => absurd hd List.not_mem_nil
    · exact fun ip cached hcached => by cases hcached
    · exact fun ip hip => absurd hip (AList.notMem_empty _)
  · obtain ⟨h, hlookup, rfl⟩ := Option.map_eq_some_iff.mp hl
    exact (lookup_simulatorHostTable rd hlookup).2.1

-- ============================================================================
-- The tests
-- ============================================================================

/-- A host whose next hop is the interface of the router on its cable. -/
theorem behind_simulatorNetwork {source : String} (h : source ∈ ["applesauce", "cherrypie", "dm42"]) :
    Network.Behind (simulatorPlan rd) (simulatorNetwork undefinedShift rd) source := by
  simp only [List.mem_cons, List.not_mem_nil, or_false] at h
  rcases h with rfl | rfl | rfl
  · exact ⟨_, 1, rfl, rfl, .two (.router 1) (.host "applesauce"),
      show _ ∈ simulatorCables by decide, by decide, by decide⟩
  · exact ⟨_, 3, rfl, rfl, .two (.router 3) (.host "cherrypie"),
      show _ ∈ simulatorCables by decide, by decide, by decide⟩
  · exact ⟨_, 4, rfl, rfl, .three (.router 4) (.host "dm42") (.host "dm43"),
      show _ ∈ simulatorCables by decide, by decide, by decide⟩

/-- The table leads a datagram to a host. -/
theorem fate_delivered {destination : Address} {receiver : String} (e : RouteEntry)
    (hsearch : simulatorRoutes.foldl (RouteEntry.prefer destination) none = some e)
    (hmates : ∃ c ∈ simulatorCables,
      Place.router e.interfaceNum ∈ c.places ∧ Place.host receiver ∈ c.places)
    (hhop : e.nextHop.getD destination = simulatorIp (.host receiver)) :
    Network.Fate (simulatorPlan rd) (simulatorNetwork undefinedShift rd) destination 64
      (some receiver) := by
  have hlen : ∀ e ∈ simulatorRoutes, e.prefixLength ≤ 32 := by decide
  have hfound := Router.search_addRoutes
    { undefinedShift
      interfaces := simulatorInterfaces.mapIdx fun id ip =>
        { toNetworkInterface := .new (drawnAddress rd (.router id)) ip } } rfl hlen destination
  rw [hsearch] at hfound
  exact .delivered (by decide) hfound hmates hhop

/-- The fate of the datagrams of the tests. -/
theorem fate_simulatorTests : ∀ test ∈ simulatorTests (dotted 10 0 0 2) (dotted 192 168 0 2)
      (dotted 198 178 229 43),
    Network.Fate (simulatorPlan rd) (simulatorNetwork undefinedShift rd) test.destination test.ttl
      test.receiver := by
  simp only [simulatorTests, List.forall_mem_cons, List.not_mem_nil, false_imp_iff, implies_true,
    and_true]
  refine ⟨?_, ?_, ?_, ?_, ?_, ?_, ?_, ?_, .dropped (Or.inl (by decide)),
    .dropped (Or.inl (by decide))⟩
  · exact fate_delivered _ ⟨dotted 192 168 0 0, 24, none, 3⟩ (by decide +kernel) (by decide) rfl
  · exact fate_delivered _ ⟨dotted 10 0 0 0, 8, none, 1⟩ (by decide +kernel) (by decide) rfl
  · exact fate_delivered _ ⟨dotted 0 0 0 0, 0, some (dotted 171 67 76 1), 0⟩ (by decide +kernel)
      (by decide) rfl
  · exact fate_delivered _ ⟨dotted 143 195 128 0, 18, some (dotted 143 195 0 1), 5⟩
      (by decide +kernel) (by decide) rfl
  · exact fate_delivered _ ⟨dotted 143 195 192 0, 19, some (dotted 143 195 0 1), 5⟩
      (by decide +kernel) (by decide) rfl
  · exact fate_delivered _ ⟨dotted 143 195 192 0, 19, some (dotted 143 195 0 1), 5⟩
      (by decide +kernel) (by decide) rfl
  · exact fate_delivered _ ⟨dotted 0 0 0 0, 0, some (dotted 171 67 76 1), 0⟩ (by decide +kernel)
      (by decide) rfl
  · exact fate_delivered _ ⟨dotted 198 178 229 0, 24, none, 4⟩ (by decide +kernel) (by decide) rfl

end

end Sponge
