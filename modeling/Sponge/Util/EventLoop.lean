/-
  Sponge.Util.EventLoop

  The event loop (`eventloop.hh`, `eventloop.cc`): rules that say what to do when a
  descriptor can be read or written.

  The callbacks of a rule work on the state `σ` of whoever set up the loop; the descriptor
  of a rule is a copy of one in that state, and copies share their flags and counters, so
  it is given as a projection.  What `poll(2)` answers is an argument.  A throw ends the
  loop for its users, so the rules that are left then are not modelled.

  `Keeps.waitNextEvent` is the rule from which properties of programs built on the loop
  are derived: an invariant of the rules and the state is kept by a call if it is kept by
  every callback, and by every cancellation together with the removal of its rule.
-/

import Mathlib.Data.List.Basic
import Sponge.Lib.Run
import Sponge.Util.FileDescriptor

namespace Sponge

open Lib (Ends Run)

/-- `EventLoop::Direction`, by the event that is polled for. -/
inductive Direction
  | pollIn
  | pollOut
deriving DecidableEq, Repr

/-- `EventLoop::Rule` -/
structure Rule (σ : Type) where
  fd : σ → FDWrapper
  direction : Direction
  callback : EStateM Thrown σ Unit
  interest : σ → Bool
  cancel : EStateM Thrown σ Unit

/-- `EventLoop::Result` -/
inductive LoopResult
  | success
  | timeout
  | exit
deriving DecidableEq, Repr

/-- The `revents` of a `pollfd`. -/
structure Revents where
  pollIn : Bool := false
  pollOut : Bool := false
  pollErr : Bool := false
  pollHup : Bool := false
  pollNval : Bool := false
deriving DecidableEq, Repr

/-- What `poll(2)` answers: the `revents` of each descriptor, or `errno`. -/
abbrev PollAnswer := Except Nat (List Revents)

/-- `EINTR` -/
def eintr : Nat := 4

namespace Revents

/-- The event of the direction is among them. -/
def has (revents : Revents) : Direction → Bool
  | .pollIn => revents.pollIn
  | .pollOut => revents.pollOut

end Revents

namespace EventLoop

variable {σ : Type}

/-- `Rule::service_count()` -/
def serviceCount (rule : Rule σ) (s : σ) : UInt32 :=
  match rule.direction with
  | .pollIn => (rule.fd s).readCount
  | .pollOut => (rule.fd s).writeCount

/-- A rule with its `pollfd`: whether its event was asked for. -/
structure Polled (σ : Type) where
  rule : Rule σ
  events : Bool

/-- `poll_ready`: the event that was asked for has happened. -/
def Polled.ready (p : Polled σ) (revents : Revents) : Bool :=
  p.events && revents.has p.rule.direction

/-- The first loop of `wait_next_event`: what is at its end is cancelled, and the others
    are asked whether they are interested. -/
def setUp : List (Rule σ) → EStateM Thrown σ (List (Polled σ))
  | [] => pure []
  | rule :: rules => do
      let s ← get
      if rule.direction = .pollIn ∧ (rule.fd s).eof = true then do
        rule.cancel
        setUp rules
      else if (rule.fd s).closed = true then do
        rule.cancel
        setUp rules
      else do
        let polled ← setUp rules
        pure (⟨rule, rule.interest s⟩ :: polled)

/-- `busy wait detected` -/
def busyWait : Thrown := .runtimeError
  "EventLoop: busy wait detected: callback did not read/write fd and is still interested"

/-- The part of the second loop that calls the callback of a rule. -/
def service (rule : Rule σ) : EStateM Thrown σ Unit := do
  let before ← get
  rule.callback
  let after ← get
  if serviceCount rule before = serviceCount rule after ∧ rule.interest after = true then
    throw busyWait
  else pure ()

/-- `error on polled file descriptor` -/
def pollError : Thrown := .runtimeError "EventLoop: error on polled file descriptor"

/-- The second loop of `wait_next_event`, over the results of `poll(2)`; the rules that
    are left. -/
def serve : List (Polled σ) → List Revents → EStateM Thrown σ (List (Rule σ))
  | [], _ => pure []
  | p :: polled, revents =>
      if (revents.headD {}).pollErr = true ∨ (revents.headD {}).pollNval = true then throw pollError
      else if (revents.headD {}).pollHup = true ∧ p.events = true ∧
          p.ready (revents.headD {}) = false then do
        p.rule.cancel
        serve polled revents.tail
      else if p.ready (revents.headD {}) = true then do
        service p.rule
        let rules ← serve polled revents.tail
        pure (p.rule :: rules)
      else do
        let rules ← serve polled revents.tail
        pure (p.rule :: rules)

/-- The number of descriptors with something in their `revents`: what `poll(2)` returns. -/
def readyCount (n : Nat) (revents : List Revents) : Nat :=
  (revents.take n).countP (· ≠ {})

/-- `wait_next_event(timeout_ms)`: its result and the rules that are left. -/
def waitNextEvent (answer : PollAnswer) (rules : List (Rule σ)) :
    EStateM Thrown σ (LoopResult × List (Rule σ)) := do
  let polled ← setUp rules
  if polled.any (·.events) = false then pure (.exit, polled.map (·.rule))
  else
    match answer with
    | .ok revents =>
        if readyCount polled.length revents = 0 then pure (.timeout, polled.map (·.rule))
        else do
          let rules ← serve polled revents
          pure (.success, rules)
    | .error errno =>
        if errno = eintr then pure (.exit, polled.map (·.rule))
        else do
          -- the error is swallowed, and every `revents` is zero
          let rules ← serve polled []
          pure (.success, rules)

-- ============================================================================
-- The invariant rule
-- ============================================================================

/-- The callback has moved the counter of its descriptor, or the rule is not interested
    any more: what keeps the loop from giving up. -/
def Moves (rule : Rule σ) (before after : σ) : Prop :=
  serviceCount rule before ≠ serviceCount rule after ∨ rule.interest after = false

/-- The rule is at its end: the first loop cancels it. -/
def AtEnd (rule : Rule σ) (s : σ) : Prop :=
  rule.direction = .pollIn ∧ (rule.fd s).eof = true ∨ (rule.fd s).closed = true

/-- An invariant `I` of the rules and the state that the callbacks and the cancellations
    of the rules keep.  `K` is what is known of a rule from when it was asked whether it is
    interested, with its answer, until it is its turn; `E` is what holds where something
    throws. -/
structure Keeps (I : List (Rule σ) → σ → Prop) (K : Bool → Rule σ → σ → Prop)
    (E : Thrown → σ → Prop) : Prop where
  asked : ∀ {rules : List (Rule σ)} {rule : Rule σ} {s : σ}, rule ∈ rules → I rules s →
    ¬ AtEnd rule s → K (rule.interest s) rule s
  cancel : ∀ {front : List (Rule σ)} {rule : Rule σ} {rest : List (Rule σ)} {s : σ},
    I (front ++ rule :: rest) s →
    Ends rule.cancel s (fun _ s' => I (front ++ rest) s' ∧
      (∀ other ∈ front, ∀ events, K events other s → K events other s') ∧
      ∀ other ∈ rest, K true other s → K true other s') E
  callback : ∀ {front : List (Rule σ)} {rule : Rule σ} {rest : List (Rule σ)} {s : σ},
    I (front ++ rule :: rest) s → K true rule s →
    Ends rule.callback s (fun _ s' => I (front ++ rule :: rest) s' ∧
      (∀ other ∈ rest, K true other s → K true other s') ∧
      (Moves rule s s' ∨ E busyWait s')) E
  pollError : ∀ {rules : List (Rule σ)} {s : σ}, I rules s → E pollError s

variable {I : List (Rule σ) → σ → Prop} {K : Bool → Rule σ → σ → Prop} {E : Thrown → σ → Prop}

theorem Keeps.service (h : Keeps I K E) {front : List (Rule σ)} {rule : Rule σ}
    {rest : List (Rule σ)} {s : σ} (hI : I (front ++ rule :: rest) s) (hK : K true rule s) :
    Ends (EventLoop.service rule) s (fun _ s' => I (front ++ rule :: rest) s' ∧
      ∀ other ∈ rest, K true other s → K true other s') E := by
  unfold EventLoop.service
  simp only [Lib.ends_bind, Lib.ends_get, Lib.ends_ite, Lib.ends_throw, Lib.ends_pure]
  refine (h.callback hI hK).mono ?_ fun _ _ he => he
  rintro _ s' ⟨hI', hothers, hmoves⟩
  refine ⟨fun hbusy => ?_, fun _ => ⟨hI', hothers⟩⟩
  rcases hmoves with (hcount | hinterest) | hE
  · exact absurd hbusy.1 hcount
  · rw [hinterest] at hbusy
    cases hbusy.2
  · exact hE

/-- What is known of the rules that the first loop has kept. -/
def Asked (K : Bool → Rule σ → σ → Prop) (polled : List (Polled σ)) (s : σ) : Prop :=
  ∀ p ∈ polled, K p.events p.rule s

/-- The first loop, when it has kept the rules `front` so far. -/
theorem Keeps.setUp (h : Keeps I K E) (front : List (Polled σ)) {rules : List (Rule σ)} {s : σ}
    (hI : I (front.map Polled.rule ++ rules) s) (hK : Asked K front s) :
    Ends (EventLoop.setUp rules) s
      (fun polled s' => I ((front ++ polled).map Polled.rule) s' ∧ Asked K (front ++ polled) s')
      E := by
  induction rules generalizing front s with
  | nil =>
      rw [EventLoop.setUp, Lib.ends_pure, List.append_nil]
      rw [List.append_nil] at hI
      exact ⟨hI, hK⟩
  | cons rule rules ih =>
      have hcancel : Ends (rule.cancel >>= fun _ => EventLoop.setUp rules) s (fun polled s' =>
          I ((front ++ polled).map Polled.rule) s' ∧ Asked K (front ++ polled) s') E := by
        rw [Lib.ends_bind]
        refine (h.cancel hI).mono ?_ fun _ _ he => he
        rintro _ s' ⟨hI', hfront, -⟩
        exact ih front hI' fun p hp => hfront p.rule (List.mem_map_of_mem hp) _ (hK p hp)
      rw [EventLoop.setUp]
      simp only [Lib.ends_bind, Lib.ends_get, Lib.ends_ite, Lib.ends_pure] at hcancel ⊢
      refine ⟨fun _ => hcancel, fun heof => ⟨fun _ => hcancel, fun hclosed => ?_⟩⟩
      -- the rule is kept, with what it answered
      have hrule : K (rule.interest s) rule s :=
        h.asked (by simp) hI (not_or.mpr ⟨heof, hclosed⟩)
      have hkept := ih (s := s) (front ++ [⟨rule, rule.interest s⟩]) (by simpa using hI)
        (by
          intro p hp
          rcases List.mem_append.mp hp with hp | hp
          · exact hK p hp
          · obtain rfl := List.mem_singleton.mp hp
            exact hrule)
      refine hkept.mono ?_ fun _ _ he => he
      intro polled s' hpolled
      rwa [List.append_assoc] at hpolled

/-- The second loop, when it has kept the rules `front` so far. -/
theorem Keeps.serve (h : Keeps I K E) (front : List (Rule σ)) {polled : List (Polled σ)}
    (revents : List Revents) {s : σ} (hI : I (front ++ polled.map Polled.rule) s)
    (hK : Asked (fun events rule s => events = true → K true rule s) polled s) :
    Ends (EventLoop.serve polled revents) s (fun rules s' => I (front ++ rules) s') E := by
  induction polled generalizing front revents s with
  | nil =>
      rw [EventLoop.serve, Lib.ends_pure]
      exact hI
  | cons p polled ih =>
      rw [List.map_cons] at hI
      have hrest := fun q hq => hK q (List.mem_cons_of_mem _ hq)
      have hnext : ∀ {s : σ}, I (front ++ p.rule :: polled.map Polled.rule) s →
          Asked (fun events rule s => events = true → K true rule s) polled s →
          Ends (EventLoop.serve polled revents.tail) s
            (fun rules s' => I (front ++ p.rule :: rules) s') E := by
        intro s hI hK
        have hkept := ih (s := s) (front ++ [p.rule]) revents.tail (by simpa using hI) hK
        exact hkept.mono (fun rules s' hI' => by simpa using hI') fun _ _ he => he
      rw [EventLoop.serve]
      simp only [Lib.ends_bind, Lib.ends_ite, Lib.ends_throw, Lib.ends_pure]
      refine ⟨fun _ => h.pollError hI, fun _ => ⟨fun _ => ?_, fun _ => ⟨fun hready => ?_, fun _ => ?_⟩⟩⟩
      · refine (h.cancel hI).mono ?_ fun _ _ he => he
        rintro _ s' ⟨hI', -, hothers⟩
        exact ih front _ hI' fun q hq hevents =>
          hothers q.rule (List.mem_map_of_mem hq) (hrest q hq hevents)
      · have hevents : p.events = true := (Bool.and_eq_true_iff.mp hready).1
        refine (h.service hI (hK p (List.mem_cons_self ..) hevents)).mono ?_ fun _ _ he => he
        rintro _ s' ⟨hI', hothers⟩
        exact hnext hI' fun q hq hevents =>
          hothers q.rule (List.mem_map_of_mem hq) (hrest q hq hevents)
      · exact hnext hI hrest

/-- The invariant rule of the event loop.  A call that finds nothing to poll has found
    all of the remaining rules uninterested. -/
theorem Keeps.waitNextEvent (h : Keeps I K E) (answer : PollAnswer) {rules : List (Rule σ)}
    {s : σ} (hI : I rules s) :
    Ends (EventLoop.waitNextEvent answer rules) s
      (fun result s' => I result.2 s' ∧
        (result.1 = .exit → answer ≠ .error eintr → ∀ rule ∈ result.2, K false rule s')) E := by
  unfold EventLoop.waitNextEvent
  rw [Lib.ends_bind]
  refine (h.setUp [] hI (fun p hp => absurd hp List.not_mem_nil)).mono ?_
    fun _ _ he => he
  rintro polled s' ⟨hI', hasked⟩
  rw [List.nil_append] at hI' hasked
  have hserved : ∀ revents, Ends (EventLoop.serve polled revents >>=
      fun rules => pure (LoopResult.success, rules)) s' (fun result s' => I result.2 s' ∧
        (result.1 = .exit → answer ≠ .error eintr → ∀ rule ∈ result.2, K false rule s')) E := by
    intro revents
    simp only [Lib.ends_bind, Lib.ends_pure]
    have hsuccess : LoopResult.success ≠ .exit := by decide
    refine (h.serve [] revents hI' ?_).mono
      (fun rules s' hI' => ⟨hI', fun hexit => absurd hexit hsuccess⟩) fun _ _ he => he
    intro p hp hevents
    rw [← hevents]
    exact hasked p hp
  simp only [Lib.ends_ite, Lib.ends_pure]
  refine ⟨fun hnone => ⟨hI', fun _ _ rule hrule => ?_⟩, fun _ => ?_⟩
  · obtain ⟨p, hp, rfl⟩ := List.mem_map.mp hrule
    have hevents : p.events = false := by simpa using List.any_eq_false.mp hnone p hp
    rw [← hevents]
    exact hasked p hp
  · cases answer with
    | ok revents =>
        simp only [Lib.ends_ite, Lib.ends_pure]
        exact ⟨fun _ => ⟨hI', fun hexit => absurd hexit (by decide)⟩, fun _ => hserved revents⟩
    | error errno =>
        simp only [Lib.ends_ite, Lib.ends_pure]
        exact ⟨fun hintr => ⟨hI', fun _ hne => absurd (congrArg Except.error hintr) hne⟩,
          fun _ => hserved []⟩

-- ============================================================================
-- Runs
-- ============================================================================

/-- A call that returns, as a step of the rules and the state. -/
def Turn (x : List (Rule σ) × σ) (answer : PollAnswer) (y : List (Rule σ) × σ) : Prop :=
  ∃ result, waitNextEvent answer x.1 x.2 = .ok (result, y.1) y.2

/-- What a call keeps is kept by any number of them. -/
theorem Keeps.run (h : Keeps I K E) {x y : List (Rule σ) × σ} {answers : List PollAnswer}
    (hrun : Run Turn x answers y) (hI : I x.1 x.2) : I y.1 y.2 := by
  refine hrun.invariant (I := fun y => I y.1 y.2) hI ?_
  rintro y answer z hy ⟨result, hz⟩
  exact ((h.waitNextEvent answer hy).of_ok hz).1

end EventLoop

end Sponge
