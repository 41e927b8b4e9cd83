/-
  Sponge.Util.EventLoop.History

  When the event loop calls what it was given.

  The loop is run with rules that note when they are called (`logged`).  Such a run does to
  the state what a run with the rules themselves does (`exists_logged_run`), and its notes
  show the life of a rule: it is called until it is cancelled, which happens once and is the
  last thing that happens to it (`rule_lifetime`).
-/

import Mathlib.Data.List.Count
import Mathlib.Data.List.Nodup
import Sponge.Util.EventLoop

namespace Sponge

open Lib (Ends Run Simulates onPart)

namespace EventLoop

variable {κ σ : Type} [DecidableEq κ]

/-- What the loop has called. -/
inductive Call (κ : Type)
  | callback (k : κ)
  | cancel (k : κ)
deriving DecidableEq, Repr

/-- The rule that was called. -/
def Call.name : Call κ → κ
  | .callback k => k
  | .cancel k => k

/-- Do what is to be done to the state, and note it. -/
def noting {α : Type} (call : Call κ) (p : EStateM Thrown σ α) :
    EStateM Thrown (σ × List (Call κ)) α := do
  modify fun s => (s.1, s.2 ++ [call])
  onPart Prod.fst (fun s t => (t, s.2)) p

/-- A rule that notes when it is called. -/
def logged (rules : κ → Rule σ) (k : κ) : Rule (σ × List (Call κ)) where
  fd := fun s => (rules k).fd s.1
  direction := (rules k).direction
  callback := noting (.callback k) (rules k).callback
  interest := fun s => (rules k).interest s.1
  cancel := noting (.cancel k) (rules k).cancel

/-- The calls of one rule. -/
def history (k : κ) (log : List (Call κ)) : List (Call κ) := log.filter (·.name = k)

/-- How often the callback of a rule was called. -/
def callbacks (k : κ) (log : List (Call κ)) : Nat := log.count (.callback k)

-- ============================================================================
-- Taking notes changes nothing
-- ============================================================================

omit [DecidableEq κ] in
theorem simulates_noting {α : Type} (call : Call κ) (p : EStateM Thrown σ α) :
    Simulates Prod.fst Eq (noting call p) p := by
  intro s
  rw [noting, Lib.ends_bind, Lib.ends_modify, Lib.ends_onPart]
  cases hp : p s.1 with
  | ok a t => exact Lib.Ends.of_eq_ok hp ⟨a, rfl, rfl⟩
  | error e t => exact Lib.Ends.of_eq_error hp rfl

/-- The two loops have asked the same rules and got the same answers. -/
def SamePolled (rules : κ → Rule σ) (polled : List (Polled (σ × List (Call κ))))
    (polled' : List (Polled σ)) : Prop :=
  ∃ kept : List (κ × Bool), polled = kept.map (fun k => ⟨logged rules k.1, k.2⟩) ∧
    polled' = kept.map fun k => ⟨rules k.1, k.2⟩

/-- The two loops are left with the same rules. -/
def SameRules (rules : κ → Rule σ) (left : List (Rule (σ × List (Call κ))))
    (left' : List (Rule σ)) : Prop :=
  ∃ kept : List κ, left = kept.map (logged rules) ∧ left' = kept.map rules

variable (rules : κ → Rule σ)

omit [DecidableEq κ] in
theorem simulates_setUp (names : List κ) :
    Simulates Prod.fst (SamePolled rules) (setUp (names.map (logged rules)))
      (setUp (names.map rules)) := by
  induction names with
  | nil => exact .pure ⟨[], rfl, rfl⟩
  | cons k names ih =>
      have hcancel : Simulates Prod.fst (SamePolled rules)
          ((logged rules k).cancel >>= fun _ => setUp (names.map (logged rules)))
          ((rules k).cancel >>= fun _ => setUp (names.map rules)) :=
        (simulates_noting _ _).bind fun _ _ _ => ih
      rw [List.map_cons, List.map_cons, setUp, setUp]
      refine Simulates.get.bind ?_
      rintro s _ rfl
      refine .ite hcancel (.ite hcancel (ih.bind ?_))
      rintro _ _ ⟨kept, rfl, rfl⟩
      exact .pure ⟨(k, (rules k).interest s.1) :: kept, rfl, rfl⟩

omit [DecidableEq κ] in
theorem simulates_service (k : κ) :
    Simulates Prod.fst Eq (service (logged rules k)) (service (rules k)) := by
  unfold service
  refine Simulates.get.bind ?_
  rintro before _ rfl
  refine (simulates_noting _ _).bind fun _ _ _ => Simulates.get.bind ?_
  rintro after _ rfl
  exact .ite (.throw _) (.pure rfl)

omit [DecidableEq κ] in
theorem simulates_serve (kept : List (κ × Bool)) (revents : List Revents) :
    Simulates Prod.fst (SameRules rules)
      (serve (kept.map fun k => ⟨logged rules k.1, k.2⟩) revents)
      (serve (kept.map fun k => ⟨rules k.1, k.2⟩) revents) := by
  induction kept generalizing revents with
  | nil => exact .pure ⟨[], rfl, rfl⟩
  | cons k kept ih =>
      have hrest : Simulates Prod.fst (SameRules rules)
          (serve (kept.map fun k => ⟨logged rules k.1, k.2⟩) revents.tail >>=
            fun left => pure (logged rules k.1 :: left))
          (serve (kept.map fun k => ⟨rules k.1, k.2⟩) revents.tail >>=
            fun left => pure (rules k.1 :: left)) := by
        refine (ih revents.tail).bind ?_
        rintro _ _ ⟨names, rfl, rfl⟩
        exact .pure ⟨k.1 :: names, rfl, rfl⟩
      rw [List.map_cons, List.map_cons, serve, serve]
      refine .ite (.throw _) (.ite ?_ (.ite ?_ hrest))
      · exact (simulates_noting _ _).bind fun _ _ _ => ih revents.tail
      · exact (simulates_service rules k.1).bind fun _ _ _ => hrest

omit [DecidableEq κ] in
theorem simulates_waitNextEvent (answer : PollAnswer) (names : List κ) :
    Simulates Prod.fst (fun r r' => r.1 = r'.1 ∧ SameRules rules r.2 r'.2)
      (waitNextEvent answer (names.map (logged rules))) (waitNextEvent answer (names.map rules)) := by
  unfold waitNextEvent
  refine (simulates_setUp rules names).bind ?_
  rintro _ _ ⟨kept, rfl, rfl⟩
  -- both loops look at the answers of the rules and at their number
  have hsame : SameRules rules ((kept.map fun k => (⟨logged rules k.1, k.2⟩ : Polled _)).map (·.rule))
      ((kept.map fun k => (⟨rules k.1, k.2⟩ : Polled σ)).map (·.rule)) :=
    ⟨kept.map Prod.fst, by simp [Function.comp_def], by simp [Function.comp_def]⟩
  have hserved := fun revents => (simulates_serve rules kept revents).bind
    (S := fun r r' : LoopResult × _ => r.1 = r'.1 ∧ SameRules rules r.2 r'.2)
    (k := fun left => pure (LoopResult.success, left))
    (l := fun left => pure (LoopResult.success, left)) fun _ _ h => .pure ⟨rfl, h⟩
  simp only [List.any_map, List.length_map, Function.comp_def]
  refine .ite (.pure ⟨rfl, hsame⟩) ?_
  cases answer with
  | ok revents => exact .ite (.pure ⟨rfl, hsame⟩) (hserved revents)
  | error errno => exact .ite (.pure ⟨rfl, hsame⟩) (hserved [])

omit [DecidableEq κ] in
/-- Every run is, apart from the notes, a run with the rules that take notes. -/
theorem exists_logged_run {names : List κ} {s : σ} {answers : List PollAnswer}
    {y : List (Rule σ) × σ} (hrun : Run Turn (names.map rules, s) answers y) :
    ∃ (kept : List κ) (log : List (Call κ)), y.1 = kept.map rules ∧
      Run Turn (names.map (logged rules), (s, [])) answers (kept.map (logged rules), (y.2, log)) := by
  refine hrun.invariant_hist (I := fun answers (y : List (Rule σ) × σ) =>
    ∃ (kept : List κ) (log : List (Call κ)), y.1 = kept.map rules ∧
      Run Turn (names.map (logged rules), (s, [])) answers (kept.map (logged rules), (y.2, log)))
    ⟨names, [], rfl, .nil⟩ ?_
  rintro answers y answer ⟨left, t⟩ ⟨kept, log, hy, hlogged⟩ ⟨result, hturn⟩
  rw [hy] at hturn
  obtain ⟨⟨result', left'⟩, ⟨t', log'⟩, hturn', rfl, -, kept', rfl, rfl⟩ :=
    (simulates_waitNextEvent rules answer kept).of_ok (s := (y.2, log)) hturn
  exact ⟨kept', log', rfl, .snoc answer hlogged ⟨result', hturn'⟩⟩

-- ============================================================================
-- The life of a rule
-- ============================================================================

variable {rules}

theorem history_append (k : κ) (log : List (Call κ)) (call : Call κ) :
    history k (log ++ [call]) = history k log ++ if call.name = k then [call] else [] := by
  unfold history
  rw [List.filter_append, List.filter_singleton]
  simp

theorem callbacks_append_callback (k j : κ) (log : List (Call κ)) :
    callbacks k (log ++ [.callback j]) = callbacks k log + if j = k then 1 else 0 := by
  unfold callbacks
  rw [List.count_append, List.count_singleton]
  simp

theorem callbacks_append_cancel (k j : κ) (log : List (Call κ)) :
    callbacks k (log ++ [.cancel j]) = callbacks k log := by
  unfold callbacks
  rw [List.count_append, List.count_singleton]
  simp

/-- A rule was called a number of times; if it is not among those that are kept, it was
    then cancelled. -/
def Lived (kept : List κ) (log : List (Call κ)) (k : κ) : Prop :=
  history k log = List.replicate (callbacks k log) (.callback k) ++
    if k ∈ kept then [] else [.cancel k]

theorem Lived.callback {kept : List κ} {log : List (Call κ)} {k : κ} (h : Lived kept log k) {j : κ}
    (hj : j ∈ kept) : Lived kept (log ++ [.callback j]) k := by
  unfold Lived at h ⊢
  rw [history_append, callbacks_append_callback, h]
  by_cases hjk : j = k
  · subst hjk
    simp [hj, Call.name, List.replicate_succ']
  · simp [hjk, Call.name]

theorem Lived.cancel {front rest : List κ} {log : List (Call κ)} {k j : κ}
    (hnodup : (front ++ j :: rest).Nodup) (h : Lived (front ++ j :: rest) log k) :
    Lived (front ++ rest) (log ++ [.cancel j]) k := by
  have hnot : j ∉ front ++ rest := (List.nodup_cons.mp (List.nodup_middle.mp hnodup)).1
  unfold Lived at h ⊢
  rw [history_append, callbacks_append_cancel, h]
  by_cases hjk : j = k
  · subst hjk
    simp [hnot, Call.name]
  · have hiff : k ∈ front ++ j :: rest ↔ k ∈ front ++ rest := by simp [Ne.symm hjk]
    simp [hjk, Call.name, hiff]

omit [DecidableEq κ] in
theorem noting_ends {α : Type} (call : Call κ) (p : EStateM Thrown σ α) (s : σ × List (Call κ)) :
    Ends (noting call p) s (fun _ s' => s'.2 = s.2 ++ [call]) (fun _ s' => s'.2 = s.2 ++ [call]) := by
  rw [noting, Lib.ends_bind, Lib.ends_modify, Lib.ends_onPart]
  cases hp : p s.1 with
  | ok a t => exact .of_eq_ok hp rfl
  | error e t => exact .of_eq_error hp rfl

omit [DecidableEq κ] in
/-- The notes tell the rules apart. -/
theorem logged_injective (s : σ) : Function.Injective (logged rules) := by
  intro k j h
  have hk := noting_ends (.callback k) (rules k).callback (s, [])
  have hj := noting_ends (.callback j) (rules j).callback (s, [])
  rw [show noting (.callback k) (rules k).callback = noting (.callback j) (rules j).callback from
    congrArg Rule.callback h] at hk
  have hboth := hk.and hj
  have hnotes : ∀ log : List (Call κ), log = [] ++ [.callback k] ∧ log = [] ++ [.callback j] → k = j := by
    rintro log ⟨rfl, hlog⟩
    simpa using hlog
  cases hp : noting (.callback j) (rules j).callback (s, []) with
  | ok a s' => exact hnotes _ (hboth.of_ok hp)
  | error e s' => exact hnotes _ (hboth.of_error hp)

/-- The rules that are left, and the notes about all of them. -/
structure Living (rules : κ → Rule σ) (names : List κ) (left : List (Rule (σ × List (Call κ))))
    (log : List (Call κ)) (kept : List κ) : Prop where
  sub : kept.Sublist names
  left_eq : left = kept.map (logged rules)
  lived : ∀ k ∈ names, Lived kept log k

/-- The names of the rules before and after one of them. -/
theorem Living.split {names kept : List κ} {front rest : List (Rule (σ × List (Call κ)))}
    {rule : Rule (σ × List (Call κ))} {log : List (Call κ)}
    (h : Living rules names (front ++ rule :: rest) log kept) :
    ∃ before k after, kept = before ++ k :: after ∧ front = before.map (logged rules) ∧
      rule = logged rules k ∧ rest = after.map (logged rules) := by
  obtain ⟨before, later, rfl, hbefore, hlater⟩ := List.map_eq_append_iff.mp h.left_eq.symm
  obtain ⟨k, after, rfl, hk, hafter⟩ := List.map_eq_cons_iff.mp hlater
  exact ⟨before, k, after, rfl, hbefore.symm, hk.symm, hafter.symm⟩

theorem keeps_living {names : List κ} (hnodup : names.Nodup) :
    Keeps (fun left (s : σ × List (Call κ)) => ∃ kept, Living rules names left s.2 kept)
      (fun _ _ _ => True) (fun _ _ => True) where
  asked := fun _ _ _ => trivial
  cancel := by
    rintro front rule rest s ⟨kept, hkept⟩
    obtain ⟨before, k, after, rfl, rfl, rfl, rfl⟩ := hkept.split
    refine (noting_ends (.cancel k) (rules k).cancel s).mono ?_ fun _ _ _ => trivial
    rintro _ s' hlog
    refine ⟨⟨before ++ after, ?_, by rw [List.map_append], fun j hj => ?_⟩,
      fun _ _ _ _ => trivial, fun _ _ _ => trivial⟩
    · exact ((List.sublist_cons_self ..).append_left before).trans hkept.sub
    · rw [hlog]
      exact (hkept.lived j hj).cancel (hnodup.sublist hkept.sub)
  callback := by
    rintro front rule rest s ⟨kept, hkept⟩ -
    obtain ⟨before, k, after, rfl, rfl, rfl, rfl⟩ := hkept.split
    refine (noting_ends (.callback k) (rules k).callback s).mono ?_ fun _ _ _ => trivial
    rintro _ s' hlog
    refine ⟨⟨_, hkept.sub, hkept.left_eq, fun j hj => ?_⟩, fun _ _ _ => trivial, Or.inr trivial⟩
    rw [hlog]
    exact (hkept.lived j hj).callback (by simp)
  pollError := fun _ => trivial

/-- **The life of a rule.**  In every run of the loop, whatever the rules do and the kernel
    answers, there is a record of the calls that were made to them (it is that of the same
    run with rules that take notes): a rule is called any number of times while it is in the
    loop, and once it is not, it was cancelled exactly once, after all of that. -/
theorem rule_lifetime (rules : κ → Rule σ) (names : List κ) (hnodup : names.Nodup) {s : σ}
    {answers : List PollAnswer} {y : List (Rule σ) × σ}
    (hrun : Run Turn (names.map rules, s) answers y) :
    ∃ (kept : List κ) (log : List (Call κ)), kept.Sublist names ∧ y.1 = kept.map rules ∧
      Run Turn (names.map (logged rules), (s, [])) answers (kept.map (logged rules), (y.2, log)) ∧
      ∀ k ∈ names, Lived kept log k := by
  obtain ⟨kept, log, hy, hlogged⟩ := exists_logged_run rules hrun
  have hstart : Living rules names (names.map (logged rules)) [] names := by
    refine ⟨List.Sublist.refl _, rfl, fun k hk => ?_⟩
    simp [Lived, history, callbacks, hk]
  obtain ⟨kept', hliving⟩ := (keeps_living hnodup).run hlogged ⟨names, hstart⟩
  obtain rfl : kept = kept' := (logged_injective s).list_map hliving.left_eq
  exact ⟨kept, log, hliving.sub, hy, hlogged, hliving.lived⟩

/-- A rule that is served once, reads to the end, and is cancelled in the next call. -/
theorem rule_lifetime_readToEof :
    let rule : Rule FDWrapper :=
      { fd := id, direction := .pollIn, interest := fun _ => true, cancel := pure ()
        callback := modify fun fd => { fd with eof := true, readCount := fd.readCount + 1 } }
    ∃ left log, left.Sublist [()] ∧ [] = left.map (fun _ => rule) ∧
      Run Turn ([()].map (logged fun _ => rule), ({}, []))
        [.ok [{ pollIn := true }], .ok []]
        (left.map (logged fun _ => rule), (⟨true, false, 1, 0⟩, log)) ∧
      ∀ k ∈ [()], Lived left log k := by
  intro rule
  have hfirst : Turn ([rule], {}) (.ok [{ pollIn := true }]) ([rule], ⟨true, false, 1, 0⟩) :=
    ⟨.success, rfl⟩
  have hlast : Turn ([rule], ⟨true, false, 1, 0⟩) (.ok []) ([], ⟨true, false, 1, 0⟩) := ⟨.exit, rfl⟩
  exact rule_lifetime (fun _ => rule) [()] (by decide) ((Run.single hfirst).snoc _ hlast)

end EventLoop

end Sponge
