/-
  Sponge.NetworkInterface.Aging

  The passage of time at an interface, in one step or in two.

  Ages are 16-bit words.  An entry that is over its limit after the first of two ticks
  is gone; the single tick of the same length may carry its age past 2^16 and back under
  the limit, and then keeps it.  `WrapsPast` is that case, and the only one in which the
  number of ticks makes a difference (`sameAges_iff_not_wrapsPast`).  In a reachable
  state no age is over its limit, so it takes a pause of more than half a minute
  (`sameAges_of_short`).
-/

import Sponge.NetworkInterface.Delivery

namespace Sponge

open Lib (Map)

namespace NetworkInterface

-- ============================================================================
-- One age
-- ============================================================================

/-- The age is over the limit after `a` milliseconds, and back under it, modulo 2^16,
    after `b` more. -/
def WrapsPast (limit time : UInt16) (a b : Nat) : Prop :=
  limit.toNat < (time.toNat + a) % 2 ^ 16 ∧ (time.toNat + (a + b)) % 2 ^ 16 ≤ limit.toNat

theorem age_eq (limit : UInt16) (ms : Nat) (time : UInt16) :
    age limit ms time =
      if limit.toNat < (time.toNat + ms) % 2 ^ 16 then none
      else some (time.toNat + ms).toUInt16 := by
  have hlt : (time.toNat + ms).toUInt16 > limit ↔ limit.toNat < (time.toNat + ms) % 2 ^ 16 := by
    rw [gt_iff_lt, UInt16.lt_iff_toNat_lt]
    rfl
  simp only [age, hlt]

theorem toUInt16_add (time : UInt16) (a b : Nat) :
    ((time.toNat + a).toUInt16.toNat + b) % 2 ^ 16 = (time.toNat + (a + b)) % 2 ^ 16 := by
  show ((time.toNat + a) % 2 ^ 16 + b) % 2 ^ 16 = _
  omega

/-- Two ticks and one differ on an age exactly if it wraps past its limit. -/
theorem age_add_iff (limit time : UInt16) (a b : Nat) :
    (age limit a time).bind (age limit b) = age limit (a + b) time ↔
      ¬ WrapsPast limit time a b := by
  unfold WrapsPast
  rw [age_eq, age_eq]
  by_cases hfirst : limit.toNat < (time.toNat + a) % 2 ^ 16
  · -- the first of two ticks drops the entry
    rw [if_pos hfirst, Option.bind_none]
    split <;> simp [*] <;> omega
  · rw [if_neg hfirst, Option.bind_some, age_eq, toUInt16_add]
    have hwrap : ¬ (limit.toNat < (time.toNat + a) % 2 ^ 16 ∧
        (time.toNat + (a + b)) % 2 ^ 16 ≤ limit.toNat) := fun h => hfirst h.1
    refine iff_of_true ?_ hwrap
    split
    · rfl
    · congr 1
      apply UInt16.toNat_inj.mp
      exact toUInt16_add time a b

-- ============================================================================
-- The maps
-- ============================================================================

/-- The same cached addresses and the same suppressed ARP targets, with the same ages. -/
structure SameAges (n n' : NetworkInterface) : Prop where
  cached : ∀ ip, n.cachedEthernetAddresses.lookup ip = n'.cachedEthernetAddresses.lookup ip
  timers : ∀ ip, n.arpMessageTimers.lookup ip = n'.arpMessageTimers.lookup ip

/-- Some entry wraps past its limit. -/
def SomeWrapsPast (n : NetworkInterface) (a b : Nat) : Prop :=
  (∃ ip cached, n.cachedEthernetAddresses.lookup ip = some cached ∧
    WrapsPast maxEthernetCacheTime cached.cacheTime a b) ∨
  ∃ ip timer, n.arpMessageTimers.lookup ip = some timer ∧
    WrapsPast resendArpMessageTime timer a b

theorem ageCached_add_iff (cached : CachedEthernetAddress) (a b : Nat) :
    (ageCached a cached).bind (ageCached b) = ageCached (a + b) cached ↔
      ¬ WrapsPast maxEthernetCacheTime cached.cacheTime a b := by
  rw [← age_add_iff]
  unfold ageCached
  have hinj : Function.Injective fun cacheTime => { cached with cacheTime := cacheTime } := by
    intro x y hxy
    exact congrArg CachedEthernetAddress.cacheTime hxy
  rw [← (Option.map_injective hinj).eq_iff, Option.map_bind, Option.bind_map]
  rfl

/-- Two ticks leave the interface as one does, exactly if no entry wraps past its limit. -/
theorem sameAges_iff_not_wrapsPast (n : NetworkInterface) (a b : Nat) :
    SameAges ((n.tick a).tick b) (n.tick (a + b)) ↔ ¬ n.SomeWrapsPast a b := by
  have hcached := Map.sweep_sweep_eq_iff (f := ageCached a) (g := ageCached b)
    (h := ageCached (a + b)) (m := n.cachedEthernetAddresses)
  have htimers := Map.sweep_sweep_eq_iff (f := ageTimer a) (g := ageTimer b)
    (h := ageTimer (a + b)) (m := n.arpMessageTimers)
  constructor
  · rintro ⟨hsame, hsame'⟩ (⟨ip, cached, hlookup, hwraps⟩ | ⟨ip, timer, hlookup, hwraps⟩)
    · exact (ageCached_add_iff cached a b).mp (hcached.mp hsame ip cached hlookup) hwraps
    · exact (age_add_iff resendArpMessageTime timer a b).mp
        (htimers.mp hsame' ip timer hlookup) hwraps
  · intro hwraps
    constructor
    · apply hcached.mpr
      intro ip cached hlookup
      exact (ageCached_add_iff cached a b).mpr fun h => hwraps (Or.inl ⟨ip, cached, hlookup, h⟩)
    · apply htimers.mpr
      intro ip timer hlookup
      exact (age_add_iff resendArpMessageTime timer a b).mpr fun h =>
        hwraps (Or.inr ⟨ip, timer, hlookup, h⟩)

-- ============================================================================
-- Reachable states
-- ============================================================================

/-- No entry is over its limit. -/
structure Fresh (n : NetworkInterface) : Prop where
  cached : ∀ ip cached, n.cachedEthernetAddresses.lookup ip = some cached →
    cached.cacheTime ≤ maxEthernetCacheTime
  timers : ∀ ip timer, n.arpMessageTimers.lookup ip = some timer → timer ≤ resendArpMessageTime

variable {n : NetworkInterface}

/-- What `tick` keeps is under the limit. -/
theorem le_of_age {limit time time' : UInt16} {ms : Nat} (h : age limit ms time = some time') :
    time' ≤ limit := by
  simp only [age] at h
  split at h
  · cases h
  · rename_i hle
    rw [← Option.some.inj h]
    exact UInt16.not_lt.mp hle

theorem fresh_tick (n : NetworkInterface) (ms : Nat) : (n.tick ms).Fresh where
  cached := by
    refine Map.forall_lookup_sweep ?_
    intro cached cached' hage
    obtain ⟨cacheTime, htime, rfl⟩ := Option.map_eq_some_iff.mp hage
    exact le_of_age htime
  timers := Map.forall_lookup_sweep fun _ _ hage => le_of_age hage

/-- A learned mapping is new, or has the age it had. -/
theorem Fresh.learn (h : n.Fresh) (arp : ARPMessage) : (n.learn arp).Fresh where
  cached := by
    refine Map.forall_lookup_insert h.cached ?_
    show ((n.cachedEthernetAddresses.lookup arp.senderIpAddress).getD {}).cacheTime ≤ _
    cases hold : n.cachedEthernetAddresses.lookup arp.senderIpAddress with
    | none => exact UInt16.zero_le
    | some old => exact h.cached _ old hold
  timers := h.timers

/-- A request that is sent starts its timer at 0. -/
theorem Fresh.asked (h : n.Fresh) (dgram : IPv4Datagram) (nextHop : Address) :
    (n.asked dgram nextHop).Fresh :=
  ⟨h.cached, Map.forall_lookup_insert h.timers UInt16.zero_le⟩

theorem Fresh.step (h : n.Fresh) (op : InterfaceOp) : (n.step op).Fresh := by
  cases n.stepCase op with
  | @ask dgram nextHop _ heq =>
      rw [heq]
      exact h.asked dgram nextHop
  | @learn frame arp _ frames queue heq _ =>
      rw [heq]
      exact ⟨(h.learn arp).cached, h.timers⟩
  | tick ms => exact fresh_tick n ms
  | frames _ out heq _ =>
      rw [heq]
      exact ⟨h.cached, h.timers⟩

/-- The states an interface gets into, whatever it is given. -/
abbrev Reached (ethernetAddress : EthernetAddress) (ipAddress : Address) (ops : List InterfaceOp) :
    NetworkInterface :=
  ops.foldl step (new ethernetAddress ipAddress)

theorem fresh_reached (ethernetAddress : EthernetAddress) (ipAddress : Address)
    (ops : List InterfaceOp) : (Reached ethernetAddress ipAddress ops).Fresh := by
  induction ops using List.reverseRecOn with
  | nil =>
      constructor
      · intro ip cached hlookup
        cases hlookup
      · intro ip timer hlookup
        cases hlookup
  | append_singleton ops op ih =>
      rw [Reached, List.foldl_append]
      exact ih.step op

/-- In a reachable state it takes ticks of more than 35 seconds to tell the difference. -/
theorem sameAges_of_short (ethernetAddress : EthernetAddress) (ipAddress : Address)
    (ops : List InterfaceOp) {a b : Nat} (h : a + b < 35536) :
    SameAges (((Reached ethernetAddress ipAddress ops).tick a).tick b)
      ((Reached ethernetAddress ipAddress ops).tick (a + b)) := by
  have hfresh := fresh_reached ethernetAddress ipAddress ops
  -- an age under its limit has no room to wrap around
  have hnot : ∀ limit time : UInt16, limit.toNat ≤ 30000 → time ≤ limit →
      ¬ WrapsPast limit time a b := by
    rintro limit time hlimit hle ⟨hover, hback⟩
    have hle : time.toNat ≤ limit.toNat := UInt16.le_iff_toNat_le.mp hle
    omega
  rw [sameAges_iff_not_wrapsPast]
  rintro (⟨ip, cached, hlookup, hwraps⟩ | ⟨ip, timer, hlookup, hwraps⟩)
  · exact hnot _ _ (by decide) (hfresh.cached ip cached hlookup) hwraps
  · exact hnot _ _ (by decide) (hfresh.timers ip timer hlookup) hwraps

/-- A mapping that is just learned is gone after ticks of 31 and 36 seconds, and there
    after one of 67 seconds. -/
theorem sameAges_fails :
    let n := Reached .zero 1 [.recvFrame InterfaceTrace.replyFrame]
    ((n.tick 31000).tick 36000).cachedEthernetAddresses.lookup 2 = none ∧
      (n.tick (31000 + 36000)).cachedEthernetAddresses.lookup 2 =
        some { address := List.Vector.replicate 6 7, cacheTime := 1464 } ∧
      ¬ SameAges ((n.tick 31000).tick 36000) (n.tick (31000 + 36000)) := by
  intro n
  have htwo : ((n.tick 31000).tick 36000).cachedEthernetAddresses.lookup 2 = none := by
    decide +kernel
  have hone : (n.tick (31000 + 36000)).cachedEthernetAddresses.lookup 2 =
      some { address := List.Vector.replicate 6 7, cacheTime := 1464 } := by
    decide +kernel
  refine ⟨htwo, hone, fun h => ?_⟩
  have hsame := h.cached 2
  rw [htwo, hone] at hsame
  cases hsame

end NetworkInterface

end Sponge
