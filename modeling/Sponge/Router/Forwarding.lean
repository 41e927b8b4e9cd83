/-
  Sponge.Router.Forwarding

  Longest-prefix matching.

  Prefixes are stored shifted to the right and compared after another shift.  For a prefix
  of at most 32 bits the comparison tells whether the first bits of the two addresses
  agree (`hasPrefix_iff`), whatever a shift by 32 yields, and the scan of the table with
  its running best finds the last of the longest matching routes (`search_spec`).
-/

import Sponge.Lib.LastMax
import Sponge.Router.Basic

namespace Sponge

open Lib (LastMax)

/-- The arguments of a call of `add_route`. -/
structure RouteEntry where
  routePrefix : UInt32
  prefixLength : UInt8
  nextHop : Option Address
  interfaceNum : Nat
deriving DecidableEq, Repr

namespace RouteEntry

/-- The first `prefix_length` bits of the destination are those of the prefix. -/
def Matches (e : RouteEntry) (dst : UInt32) : Prop :=
  ∀ k, k < 32 → 32 - e.prefixLength.toNat ≤ k →
    e.routePrefix.toNat.testBit k = dst.toNat.testBit k

/-- What the router stores for the entry. -/
def stored (e : RouteEntry) (r : Router) : Route :=
  let rightShiftBits :=
    if e.prefixLength > Router.prefixMaxBits then Router.prefixMaxBits
    else Router.prefixMaxBits - e.prefixLength
  { shiftedPrefix := r.shiftRight e.routePrefix rightShiftBits.toNat
    prefixLength := e.prefixLength, nextHop := e.nextHop, interfaceNum := e.interfaceNum }

end RouteEntry

namespace Router

variable {r : Router}

/-- The router after a sequence of calls of `add_route`. -/
def addRoutes (r : Router) (entries : List RouteEntry) : Router :=
  entries.foldl (fun r e => r.addRoute e.routePrefix e.prefixLength e.nextHop e.interfaceNum) r

theorem addRoutes_eq (r : Router) (entries : List RouteEntry) :
    r.addRoutes entries = { r with routes := r.routes ++ entries.map (·.stored r) } := by
  induction entries using List.reverseRecOn with
  | nil => simp [addRoutes]
  | append_singleton entries e ih =>
      unfold addRoutes at ih ⊢
      rw [List.foldl_append, ih]
      simp [addRoute, RouteEntry.stored, shiftRight]

-- ============================================================================
-- Prefixes
-- ============================================================================

theorem shiftRight_eq_iff {x y : UInt32} {bits : Nat} (hbits : bits < 32) :
    r.shiftRight x bits = r.shiftRight y bits ↔
      ∀ k, k < 32 → bits ≤ k → x.toNat.testBit k = y.toNat.testBit k := by
  have hshift : ∀ z : UInt32, (r.shiftRight z bits).toNat = z.toNat >>> bits := by
    intro z
    rw [shiftRight, if_pos (by omega), UInt32.toNat_shiftRight]
    simp only [Int.toNat_natCast, Nat.toUInt32_eq, UInt32.toNat_ofNat']
    congr 1
    omega
  rw [← UInt32.toNat_inj, hshift, hshift]
  constructor
  · intro h k _ hk
    have hbit := congrArg (·.testBit (k - bits)) h
    simp only [Nat.testBit_shiftRight] at hbit
    rwa [Nat.add_sub_of_le hk] at hbit
  · intro h
    apply Nat.eq_of_testBit_eq
    intro k
    rw [Nat.testBit_shiftRight, Nat.testBit_shiftRight]
    by_cases hk : bits + k < 32
    · exact h _ hk (Nat.le_add_right ..)
    · -- there are no bits beyond the word
      have hpow : 2 ^ 32 ≤ 2 ^ (bits + k) := Nat.pow_le_pow_right (by decide) (by omega)
      rw [Nat.testBit_lt_two_pow (Nat.lt_of_lt_of_le x.toNat_lt hpow),
        Nat.testBit_lt_two_pow (Nat.lt_of_lt_of_le y.toNat_lt hpow)]

/-- The test on a stored route compares the first bits. -/
theorem hasPrefix_iff {e : RouteEntry} (he : e.prefixLength ≤ 32) (dst : UInt32) :
    r.HasPrefix dst (e.stored r) ↔ e.Matches dst := by
  have hlen : e.prefixLength.toNat ≤ 32 := UInt8.le_iff_toNat_le.mp he
  unfold HasPrefix
  by_cases hzero : e.prefixLength = 0
  · -- no bits are compared, so it does not matter what the shift by 32 yields
    refine iff_of_true (Or.inr hzero) ?_
    intro k hk hle
    rw [hzero] at hle
    have : (0 : UInt8).toNat = 0 := rfl
    omega
  · have hpos : e.prefixLength.toNat ≠ 0 := fun h => hzero (UInt8.toNat_inj.mp h)
    have hnot : ¬ e.prefixLength > prefixMaxBits := UInt8.not_lt.mpr he
    have hmax : prefixMaxBits.toNat = 32 := rfl
    have hsub : (prefixMaxBits - e.prefixLength).toNat = 32 - e.prefixLength.toNat := by
      exact UInt8.toNat_sub_of_le _ _ he
    have hbits : (prefixMaxBits.toNat - (e.stored r).prefixLength.toNat : Int) =
        (32 - e.prefixLength.toNat : Nat) := by
      show (prefixMaxBits.toNat - e.prefixLength.toNat : Int) = _
      omega
    rw [or_iff_left (show ¬ (e.stored r).prefixLength = 0 from hzero), hbits]
    simp only [RouteEntry.stored, if_neg hnot, hsub]
    rw [eq_comm]
    exact shiftRight_eq_iff (by omega)

-- ============================================================================
-- The scan
-- ============================================================================

/-- The running best after the scan of a list of routes: none was found and the dummy
    route is still there, or the best is the last of the longest that match. -/
theorem foldl_consider (dst : UInt32) (routes : List Route) :
    routes.foldl (r.consider dst) (false, {}) = (false, {}) ∧
        (∀ route ∈ routes, ¬ r.HasPrefix dst route) ∨
      ∃ best, routes.foldl (r.consider dst) (false, {}) = (true, best) ∧
        LastMax (r.HasPrefix dst) (·.prefixLength.toNat) routes best := by
  induction routes using List.reverseRecOn with
  | nil => exact Or.inl ⟨rfl, by simp⟩
  | append_singleton routes candidate ih =>
      rw [List.foldl_append, List.foldl_cons, List.foldl_nil]
      rcases ih with ⟨hfold, hnone⟩ | ⟨best, hfold, hbest⟩
      · rw [hfold, consider]
        split
        · rename_i h
          exact Or.inr ⟨candidate, rfl, LastMax.of_le h.2 fun b hb hok => absurd hok (hnone b hb)⟩
        · rename_i h
          refine Or.inl ⟨rfl, ?_⟩
          intro route hroute hok
          rcases List.mem_append.mp hroute with hroute | hroute
          · exact hnone route hroute hok
          · obtain rfl := List.mem_singleton.mp hroute
            exact h ⟨UInt8.zero_le, hok⟩
      · rw [hfold, consider]
        split
        · rename_i h
          exact Or.inr ⟨candidate, rfl, hbest.snoc_new h.2 (UInt8.le_iff_toNat_le.mp h.1)⟩
        · rename_i h
          refine Or.inr ⟨best, rfl, hbest.snoc_old fun hok => ?_⟩
          by_contra hge
          exact h ⟨UInt8.le_iff_toNat_le.mpr (Nat.not_lt.mp hge), hok⟩

/-- The search in a table: the last-added of the longest matching entries, if any. -/
theorem search_spec (dst : UInt32) {entries : List RouteEntry}
    (hentries : ∀ e ∈ entries, e.prefixLength ≤ 32)
    (hroutes : r.routes = entries.map (·.stored r)) :
    (r.search dst).1 = false ∧ (∀ e ∈ entries, ¬ e.Matches dst) ∨
      ∃ e, r.search dst = (true, e.stored r) ∧
        LastMax (·.Matches dst) (·.prefixLength.toNat) entries e := by
  have hiff : ∀ e ∈ entries, r.HasPrefix dst (e.stored r) ↔ e.Matches dst :=
    fun e he => hasPrefix_iff (hentries e he) dst
  unfold search
  rw [hroutes]
  rcases r.foldl_consider dst (entries.map (·.stored r)) with ⟨hfold, hnone⟩ | ⟨best, hfold, hbest⟩
  · refine Or.inl ⟨by rw [hfold], fun e he hmatches => ?_⟩
    exact hnone _ (List.mem_map_of_mem he) ((hiff e he).mpr hmatches)
  · obtain ⟨e, rfl, he⟩ := hbest.of_map
    exact Or.inr ⟨e, hfold, he.congr hiff⟩

-- ============================================================================
-- Forwarding
-- ============================================================================

/-- What the router does with a datagram: nothing, or one call of `send_datagram`. -/
theorem routeOneDatagram_eq (r : Router) (dgram : IPv4Datagram) :
    r.routeOneDatagram dgram =
      if dgram.header.ttl ≤ 1 ∨ (r.search dgram.header.dst).1 = false then .ok r
      else r.sendOn (r.search dgram.header.dst).2.interfaceNum dgram.decrementTtl
        ((r.search dgram.header.dst).2.nextHop.getD dgram.header.dst) := by
  have hdst : dgram.decrementTtl.header.dst = dgram.header.dst := rfl
  simp only [routeOneDatagram, hdst]
  by_cases httl : dgram.header.ttl ≤ 1
  · rw [if_pos httl, if_pos (Or.inl httl)]
  · rw [if_neg httl]
    cases hfound : (r.search dgram.header.dst).1 with
    | false => rw [if_neg (by simp), if_pos (Or.inr rfl)]
    | true =>
        rw [if_pos rfl, if_neg (by simp [httl])]
        cases (r.search dgram.header.dst).2.nextHop <;> rfl

/-- `route_one_datagram` drops a datagram or makes one call of `send_datagram`, on the
    interface of the last-added of the longest matching routes. -/
structure ForwardsByLongestPrefix (r : Router) (entries : List RouteEntry)
    (dgram : IPv4Datagram) : Prop where
  drops : (dgram.header.ttl ≤ 1 ∨ ∀ e ∈ entries, ¬ e.Matches dgram.header.dst) →
    r.routeOneDatagram dgram = .ok r
  forwards : ¬ dgram.header.ttl ≤ 1 → (∃ e ∈ entries, e.Matches dgram.header.dst) →
    ∃ before e behind, entries = before ++ e :: behind ∧ e.Matches dgram.header.dst ∧
      (∀ e' ∈ before, e'.Matches dgram.header.dst → e'.prefixLength ≤ e.prefixLength) ∧
      (∀ e' ∈ behind, e'.Matches dgram.header.dst → e'.prefixLength < e.prefixLength) ∧
      ∃ a, r.interfaces[e.interfaceNum]? = some a ∧
        r.routeOneDatagram dgram =
          (a.sendDatagram { dgram with header := { dgram.header with ttl := dgram.header.ttl - 1 } }
            (e.nextHop.getD dgram.header.dst)).map fun n =>
              r.setInterface e.interfaceNum { a with toNetworkInterface := n }

/-- Whatever routes were added, in whatever order, and whatever a shift by 32 yields. -/
theorem forwardsByLongestPrefix_addRoutes (undefinedShift : UInt32 → Int → UInt32)
    (interfaces : List AsyncNetworkInterface) (entries : List RouteEntry)
    (hentries : ∀ e ∈ entries, e.prefixLength ≤ 32 ∧ e.interfaceNum < interfaces.length)
    (dgram : IPv4Datagram) :
    ForwardsByLongestPrefix (addRoutes { interfaces, undefinedShift } entries) entries dgram := by
  have hr := addRoutes_eq { interfaces, undefinedShift } entries
  generalize addRoutes { interfaces, undefinedShift } entries = r at hr ⊢
  have hroutes : r.routes = entries.map (·.stored r) := by
    subst hr
    rfl
  have hinterfaces : r.interfaces = interfaces := by
    subst hr
    rfl
  have hspec := search_spec dgram.header.dst (fun e he => (hentries e he).1) hroutes
  constructor
  · intro hdrop
    rw [routeOneDatagram_eq, if_pos]
    refine hdrop.imp id fun hnone => ?_
    rcases hspec with ⟨hfalse, -⟩ | ⟨e, -, he⟩
    · exact hfalse
    · obtain ⟨before, behind, rfl, hmatches, -⟩ := he
      exact absurd hmatches (hnone e (by simp))
  · rintro httl ⟨e', he', hmatches'⟩
    rcases hspec with ⟨-, hnone⟩ | ⟨e, hsearch, he⟩
    · exact absurd hmatches' (hnone e' he')
    · have hlt := (hentries e he.mem).2
      obtain ⟨before, behind, heq, hmatches, hbefore, hbehind⟩ := he
      refine ⟨before, e, behind, heq, hmatches, ?_, ?_, interfaces[e.interfaceNum], ?_, ?_⟩
      · intro e' he' hok
        exact UInt8.le_iff_toNat_le.mpr (hbefore e' he' hok)
      · intro e' he' hok
        exact UInt8.lt_iff_toNat_lt.mpr (hbehind e' he' hok)
      · rw [hinterfaces]
        exact List.getElem?_eq_getElem hlt
      · rw [routeOneDatagram_eq, hsearch, if_neg (by simp [httl])]
        show r.sendOn e.interfaceNum _ _ = _
        rw [sendOn, hinterfaces, List.getElem?_eq_getElem hlt]
        rfl

/-- A default route, 10.0.0.0/8 and 10.1.0.0/16, and a datagram to 10.1.0.1. -/
theorem forwardsByLongestPrefix_addRoutes_table :
    let entries : List RouteEntry :=
      [⟨0x0a010000, 16, some 7, 1⟩, ⟨0, 0, none, 0⟩, ⟨0x0a000000, 8, none, 0⟩]
    let interfaces : List AsyncNetworkInterface :=
      [{ toNetworkInterface := .new .zero 1 }, { toNetworkInterface := .new .zero 2 }]
    ForwardsByLongestPrefix (addRoutes { interfaces, undefinedShift := fun x _ => x } entries)
      entries { header := { dst := 0x0a010001 } } :=
  forwardsByLongestPrefix_addRoutes _ _ _ (by decide) _

end Router

end Sponge
