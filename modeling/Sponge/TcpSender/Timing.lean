/-
  Sponge.TcpSender.Timing

  When a sender retransmits, and how it backs off.

  A `TimerTrace` keeps the time since the timer was last started beside the sender.
  As long as that time fits the 32-bit timer, the two agree while the timer may still
  fire, and the timeout is the initial one doubled for every retransmission that was
  counted (`TimerInv`).  So a tick retransmits the oldest outstanding segment exactly
  when its time has come.  The count goes back to 0 when the acknowledgement is above
  `_highest_ackno`, which starts at -1: an acknowledgement of the initial sequence
  number itself acknowledges nothing, but ends the back-off
  (`retransmitsOnTime_iff_not_resetsEarly`).
-/

import Sponge.TcpSender.Outstanding

namespace Sponge

open Lib (Run Guarded)

namespace TCPSender

open SenderTrace (newlyPushed)

-- ============================================================================
-- One tick
-- ============================================================================

/-- What a tick does: nothing, advance the timer, or retransmit. -/
theorem tick_cases (s : TCPSender) (ms : Nat) :
    ((s.retransmissionTimerOn = false ∨
        TCPConfig.maxRetxAttempts < s.consecutiveRetransmissions) ∧
      s.tick ms = s ∧ newlyPushed s (.tick ms) = []) ∨
    (s.retransmissionTimerOn = true ∧ s.consecutiveRetransmissions ≤ TCPConfig.maxRetxAttempts ∧
      (s.outstandingSegments = [] ∨
        (s.retransmissionTimer + ms) % 2 ^ 32 < s.retransmissionTimeout) ∧
      s.tick ms = s.advanceTimer ms ∧ newlyPushed s (.tick ms) = []) ∨
    (s.retransmissionTimerOn = true ∧ s.consecutiveRetransmissions ≤ TCPConfig.maxRetxAttempts ∧
      s.retransmissionTimeout ≤ (s.retransmissionTimer + ms) % 2 ^ 32 ∧
      ∃ seg, s.outstandingSegments.head? = some seg ∧
        s.tick ms = (s.advanceTimer ms).retransmit seg ∧ newlyPushed s (.tick ms) = [seg]) := by
  have hpushed : ∀ segs, (s.tick ms).segmentsOut = s.segmentsOut ++ segs →
      newlyPushed s (.tick ms) = segs := by
    intro segs hsegs
    show (s.tick ms).segmentsOut.drop _ = segs
    rw [hsegs, List.drop_left]
  by_cases hexp : s.Expires ms
  · obtain ⟨seg, hhead, htick⟩ := tick_of_expires hexp
    obtain ⟨hon, hle, -, hdue⟩ := hexp
    refine Or.inr (Or.inr ⟨hon, hle, hdue, seg, hhead, htick, hpushed [seg] ?_⟩)
    rw [htick, retransmit_segmentsOut]
    rfl
  · have htick := tick_of_not_expires hexp
    by_cases hidle : s.retransmissionTimerOn = false ∨
        TCPConfig.maxRetxAttempts < s.consecutiveRetransmissions
    · rw [if_pos hidle] at htick
      refine Or.inl ⟨hidle, htick, hpushed [] ?_⟩
      rw [htick, List.append_nil]
    · rw [if_neg hidle] at htick
      rw [not_or, Bool.not_eq_false, Nat.not_lt] at hidle
      refine Or.inr (Or.inl ⟨hidle.1, hidle.2, ?_, htick, hpushed [] ?_⟩)
      · by_contra hnot
        rw [not_or, Nat.not_lt] at hnot
        exact hexp ⟨hidle.1, hidle.2, List.isEmpty_eq_false_iff.mpr hnot.1, hnot.2⟩
      · rw [htick, List.append_nil]
        rfl

/-- A tick pushes nothing, or the first outstanding segment. -/
theorem newlyPushed_tick_cases (s : TCPSender) (ms : Nat) :
    newlyPushed s (.tick ms) = [] ∨
      ∃ seg, s.outstandingSegments.head? = some seg ∧ newlyPushed s (.tick ms) = [seg] := by
  obtain ⟨-, -, hpushed⟩ | ⟨-, -, -, -, hpushed⟩ | ⟨-, -, -, seg, hhead, -, hpushed⟩ :=
    s.tick_cases ms
  · exact Or.inl hpushed
  · exact Or.inl hpushed
  · exact Or.inr ⟨seg, hhead, hpushed⟩

/-- Sending starts a timer that is off and leaves one that is on alone. -/
theorem timer_of_run {s s' : TCPSender} {segs : List TCPSegment} (h : Run Emit s segs s') :
    (s.retransmissionTimerOn = true →
      s'.retransmissionTimerOn = true ∧ s'.retransmissionTimer = s.retransmissionTimer) ∧
    (s.retransmissionTimerOn = false → s'.retransmissionTimerOn = true →
      s'.retransmissionTimer = 0) := by
  refine h.invariant (I := fun u => (s.retransmissionTimerOn = true →
      u.retransmissionTimerOn = true ∧ u.retransmissionTimer = s.retransmissionTimer) ∧
    (s.retransmissionTimerOn = false → u.retransmissionTimerOn = true →
      u.retransmissionTimer = 0)) ⟨fun h => ⟨h, rfl⟩, fun h h' => ?_⟩ ?_
  · rw [h] at h'
    cases h'
  · rintro t seg u ⟨hon, hoff⟩ ⟨hf⟩
    show (_ → true = true ∧ (if t.retransmissionTimerOn then t.retransmissionTimer else 0) = _) ∧
      (_ → true = true → (if t.retransmissionTimerOn then t.retransmissionTimer else 0) = 0)
    refine ⟨fun h => ⟨rfl, ?_⟩, fun h _ => ?_⟩
    · rw [if_pos (hon h).1]
      exact (hon h).2
    · split
      · rename_i ht
        exact hoff h ht
      · rfl

/-- What an acknowledgement does to the timer before the window is filled. -/
theorem acknowledge_timer (s : TCPSender) (ackno : WrappingInt32) (w : UInt16) :
    (s.acknowledge ackno w).initialRetransmissionTimeout = s.initialRetransmissionTimeout ∧
    ((ackno.rawValue.toNat : Int) > s.highestAckno →
      (s.acknowledge ackno w).retransmissionTimeout = s.initialRetransmissionTimeout ∧
      (s.acknowledge ackno w).consecutiveRetransmissions = 0 ∧
      (s.acknowledge ackno w).retransmissionTimer = 0) ∧
    (¬ (ackno.rawValue.toNat : Int) > s.highestAckno →
      (s.acknowledge ackno w).retransmissionTimeout = s.retransmissionTimeout ∧
      (s.acknowledge ackno w).consecutiveRetransmissions = s.consecutiveRetransmissions ∧
      (s.acknowledge ackno w).retransmissionTimer = s.retransmissionTimer ∧
      (s.acknowledge ackno w).retransmissionTimerOn = s.retransmissionTimerOn) := by
  obtain ⟨hhigh, -, -⟩ := (s.releaseAcknowledged ackno).updateWindow_timer ackno w
  have hrel : (s.releaseAcknowledged ackno).highestAckno = s.highestAckno := rfl
  have hinit : ((s.releaseAcknowledged ackno).updateWindow ackno w).initialRetransmissionTimeout =
      s.initialRetransmissionTimeout := by
    unfold updateWindow
    split_ifs <;> rfl
  unfold acknowledge resetTimer
  rw [hhigh, hrel]
  by_cases hnew : (ackno.rawValue.toNat : Int) > s.highestAckno
  · rw [if_pos hnew]
    exact ⟨hinit, fun _ => ⟨hinit, rfl, rfl⟩, fun h => absurd hnew h⟩
  · rw [if_neg hnew]
    refine ⟨hinit, fun h => absurd h hnew, fun _ => ?_⟩
    unfold updateWindow
    split_ifs <;> exact ⟨rfl, rfl, rfl, rfl⟩

end TCPSender

/-- A sender with its history and the time since its timer was last started. -/
structure TimerTrace where
  trace : SenderTrace
  /-- the ticks since then, added up -/
  elapsed : Nat

namespace TimerTrace

open TCPSender
open SenderTrace (newlyPushed)

def new (capacity : UInt64) (retxTimeout : UInt16) (isn : WrappingInt32) : TimerTrace where
  trace := .new capacity retxTimeout isn
  elapsed := 0

/-- The sender of the trace. -/
def sender (t : TimerTrace) : TCPSender := t.trace.sender

/-- The operation starts the timer, or starts it anew: a tick by retransmitting, an
    acknowledgement by being the highest so far, any operation by switching it on. -/
def Restarts (s : TCPSender) (op : Op) : Prop :=
  s.retransmissionTimerOn = false ∧ (s.step op).retransmissionTimerOn = true ∨
  match op with
  | .tick ms => newlyPushed s (.tick ms) ≠ []
  | .ackReceived ackno _ => s.Accepts ackno ∧ (ackno.rawValue.toNat : Int) > s.highestAckno
  | _ => False

instance (s : TCPSender) : ∀ op, Decidable (Restarts s op)
  | .tick _ | .ackReceived _ _ => inferInstanceAs (Decidable (_ ∨ _))
  | .write _ | .endInput | .setError | .fillWindow | .sendEmptySegment | .drain =>
      inferInstanceAs (Decidable (_ ∨ False))

/-- The time that passes on the timer in one operation. -/
def passes (s : TCPSender) : Op → Nat
  | .tick ms => if s.retransmissionTimerOn then ms else 0
  | _ => 0

def step (t : TimerTrace) (op : Op) : Option TimerTrace :=
  some
    { trace := t.trace.after op
      elapsed := if Restarts t.sender op then 0 else t.elapsed + passes t.sender op }

/-- The time on the timer stays below 2^32 milliseconds. -/
def InTime (t : TimerTrace) (op : Op) : Prop := t.elapsed + passes t.sender op < 2 ^ 32

instance (t : TimerTrace) (op : Op) : Decidable (t.InTime op) :=
  inferInstanceAs (Decidable (_ < _))

-- ============================================================================
-- The timer and the time
-- ============================================================================

/-- The timeout goes with the count of retransmissions, and as long as the timer may
    fire it shows the time since it was started. -/
structure TimerInv (retxTimeout : UInt16) (s : TCPSender) (elapsed : Nat) : Prop where
  initial_eq : s.initialRetransmissionTimeout = retxTimeout.toNat
  timeout_eq : s.retransmissionTimeout = retxTimeout.toNat * 2 ^ s.consecutiveRetransmissions
  attempts_le : s.consecutiveRetransmissions ≤ TCPConfig.maxRetxAttempts + 1
  timer_eq : s.retransmissionTimerOn = true →
    s.consecutiveRetransmissions ≤ TCPConfig.maxRetxAttempts → s.retransmissionTimer = elapsed

section Steps

variable {retxTimeout : UInt16} {s : TCPSender} {elapsed : Nat}

theorem timerInv_new (capacity : UInt64) (retxTimeout : UInt16) (isn : WrappingInt32) :
    TimerInv retxTimeout (TCPSender.new capacity retxTimeout isn) 0 where
  initial_eq := rfl
  timeout_eq := (Nat.mul_one _).symm
  attempts_le := Nat.zero_le _
  timer_eq := fun _ _ => rfl

/-- Sending new segments starts the timer if it was off. -/
theorem TimerInv.send (h : TimerInv retxTimeout s elapsed) {segs : List TCPSegment}
    {s' : TCPSender} (hrun : Run Emit s segs s') :
    TimerInv retxTimeout s'
      (if s.retransmissionTimerOn = false ∧ s'.retransmissionTimerOn = true then 0
        else elapsed) := by
  obtain ⟨-, -, -, hinit, htimeout, hattempts⟩ := frame_of_run hrun
  obtain ⟨hon, hoff⟩ := timer_of_run hrun
  refine ⟨hinit.trans h.initial_eq, ?_, ?_, ?_⟩
  · rw [htimeout, hattempts, h.timeout_eq]
  · rw [hattempts]
    exact h.attempts_le
  · intro hrunning hle
    rw [hattempts] at hle
    cases hs : s.retransmissionTimerOn with
    | true =>
        rw [if_neg (by simp), (hon hs).2]
        exact h.timer_eq hs hle
    | false =>
        rw [if_pos ⟨rfl, hrunning⟩]
        exact hoff hs hrunning

theorem TimerInv.tick (h : TimerInv retxTimeout s elapsed) {ms : Nat}
    (htime : elapsed + passes s (.tick ms) < 2 ^ 32) :
    TimerInv retxTimeout (s.tick ms)
      (if Restarts s (.tick ms) then 0 else elapsed + passes s (.tick ms)) := by
  obtain ⟨hidle, heq, -⟩ | ⟨hon, hle, -, heq, hpushed⟩ | ⟨hon, hle, -, seg, -, heq, hpushed⟩ :=
    s.tick_cases ms
  · rw [heq]
    refine ⟨h.initial_eq, h.timeout_eq, h.attempts_le, fun hon hle => ?_⟩
    rcases hidle with hoff | hgt
    · rw [hon] at hoff
      cases hoff
    · omega
  · have hnot : ¬ Restarts s (.tick ms) := by simp [Restarts, hon, hpushed]
    rw [if_neg hnot, heq]
    refine ⟨h.initial_eq, h.timeout_eq, h.attempts_le, fun _ _ => ?_⟩
    have hpass : passes s (.tick ms) = ms := if_pos hon
    rw [hpass] at htime ⊢
    show (s.retransmissionTimer + ms) % 2 ^ 32 = _
    rw [h.timer_eq hon hle, Nat.mod_eq_of_lt htime]
  · have hrestarts : Restarts s (.tick ms) := by simp [Restarts, hpushed]
    rw [if_pos hrestarts, heq]
    unfold retransmit
    simp only
    split
    · exact ⟨h.initial_eq, h.timeout_eq, h.attempts_le, fun _ _ => rfl⟩
    · refine ⟨h.initial_eq, ?_, Nat.succ_le_succ hle, fun _ _ => rfl⟩
      show s.retransmissionTimeout * 2 = _ * 2 ^ (s.consecutiveRetransmissions + 1)
      rw [h.timeout_eq, Nat.pow_succ, Nat.mul_assoc]

theorem TimerInv.ackReceived (h : TimerInv retxTimeout s elapsed) (ackno : WrappingInt32)
    (w : UInt16) :
    TimerInv retxTimeout (s.ackReceived ackno w)
      (if Restarts s (.ackReceived ackno w) then 0 else elapsed) := by
  by_cases hacc : s.Accepts ackno
  · obtain ⟨hinit, hreset, hkeep⟩ := s.acknowledge_timer ackno w
    obtain ⟨-, segs, hrun⟩ := (s.acknowledge ackno w).fillWindow_run
    have hstep : s.ackReceived ackno w = (s.acknowledge ackno w).fillWindow := if_pos hacc
    rw [← hstep] at hrun
    by_cases hnew : (ackno.rawValue.toNat : Int) > s.highestAckno
    · obtain ⟨htimeout, hattempts, htimer⟩ := hreset hnew
      have h₁ : TimerInv retxTimeout (s.acknowledge ackno w) 0 :=
        { initial_eq := hinit.trans h.initial_eq
          timeout_eq := by rw [htimeout, hattempts, h.initial_eq, Nat.pow_zero, Nat.mul_one]
          attempts_le := by rw [hattempts]; exact Nat.zero_le _
          timer_eq := fun _ _ => htimer }
      have hrestarts : Restarts s (.ackReceived ackno w) := Or.inr ⟨hacc, hnew⟩
      rw [if_pos hrestarts]
      simpa using h₁.send hrun
    · obtain ⟨htimeout, hattempts, htimer, hon⟩ := hkeep hnew
      have h₁ : TimerInv retxTimeout (s.acknowledge ackno w) elapsed :=
        { initial_eq := hinit.trans h.initial_eq
          timeout_eq := by rw [htimeout, hattempts, h.timeout_eq]
          attempts_le := by rw [hattempts]; exact h.attempts_le
          timer_eq := by rw [hon, hattempts, htimer]; exact h.timer_eq }
      have h₂ := h₁.send hrun
      rw [hon] at h₂
      simpa [Restarts, hnew, TCPSender.step] using h₂
  · have hstep : s.ackReceived ackno w = s := if_neg hacc
    have hnot : ¬ Restarts s (.ackReceived ackno w) := by
      simp [Restarts, hacc, TCPSender.step, hstep]
    rw [if_neg hnot, hstep]
    exact h

/-- The other operations leave a running timer alone. -/
theorem TimerInv.step (h : TimerInv retxTimeout s elapsed) {op : Op}
    (htime : elapsed + passes s op < 2 ^ 32) :
    TimerInv retxTimeout (s.step op) (if Restarts s op then 0 else elapsed + passes s op) := by
  cases op with
  | tick ms => exact h.tick htime
  | ackReceived ackno w => exact h.ackReceived ackno w
  | fillWindow =>
      obtain ⟨-, segs, hrun⟩ := s.fillWindow_run
      simpa [Restarts, passes, TCPSender.step] using h.send hrun
  | write data | endInput | setError | sendEmptySegment | drain =>
      refine ⟨h.initial_eq, h.timeout_eq, h.attempts_le, fun hon hle => ?_⟩
      have hsame : s.retransmissionTimerOn = true := hon
      rw [if_neg (by simp [Restarts, hsame])]
      exact h.timer_eq hon hle

end Steps

theorem timerInv_run {capacity : UInt64} {retxTimeout : UInt16} {isn : WrappingInt32}
    {ops : List Op} {t : TimerTrace}
    (hrun : Run (Guarded InTime step) (new capacity retxTimeout isn) ops t) :
    TimerInv retxTimeout t.sender t.elapsed := by
  refine hrun.invariant (I := fun t => TimerInv retxTimeout t.sender t.elapsed)
    (timerInv_new capacity retxTimeout isn) ?_
  rintro t op u h ⟨htime, hs⟩
  obtain rfl := Option.some.inj hs
  exact h.step htime

/-- The history of a run is one of the sender alone. -/
theorem trace_run {capacity : UInt64} {retxTimeout : UInt16} {isn : WrappingInt32}
    {ops : List Op} {t : TimerTrace}
    (hrun : Run (Guarded InTime step) (new capacity retxTimeout isn) ops t) :
    Run (Guarded (fun _ _ => True) SenderTrace.step) (.new capacity retxTimeout isn) ops
      t.trace := by
  refine hrun.map (f := TimerTrace.trace) ?_
  rintro t op u ⟨-, hs⟩
  obtain rfl := Option.some.inj hs
  exact ⟨trivial, rfl⟩

-- ============================================================================
-- Retransmissions
-- ============================================================================

/-- The operation acknowledges a position that no accepted acknowledgement covered
    before, and nothing that was not sent. -/
def AcksNewData (t : TimerTrace) : Op → Prop
  | .ackReceived ackno _ =>
      ackno.rawValue.toNat ≤ t.sender.isn.rawValue.toNat + t.sender.nextSeqnoAbsolute ∧
      ∃ p, p < t.sender.nextSeqnoAbsolute ∧
        t.sender.isn.rawValue.toNat + p < ackno.rawValue.toNat ∧
        ∀ ack ∈ t.trace.accepted, ack.ackno.rawValue.toNat ≤ t.sender.isn.rawValue.toNat + p
  | _ => False

/-- No outstanding segment starts before this one. -/
def IsOldest (s : TCPSender) (seg : TCPSegment) : Prop :=
  seg ∈ s.outstandingSegments ∧ ∃ x, seg.header.seqno = wrap x s.isn ∧
    ∀ other ∈ s.outstandingSegments,
      ∃ y, other.header.seqno = wrap y s.isn ∧ x ≤ y ∧ y < s.nextSeqnoAbsolute

/-- The timeout, what a tick pushes, and what becomes of the count of retransmissions
    in the next operation. -/
structure RetransmitsOnTime (retxTimeout : UInt16) (t : TimerTrace) (op : Op) : Prop where
  timeout_eq : t.sender.retransmissionTimeout =
    retxTimeout.toNat * 2 ^ t.sender.consecutiveRetransmissions
  attempts_le : t.sender.consecutiveRetransmissions ≤ TCPConfig.maxRetxAttempts + 1
  at_most_one : ∀ ms, op = .tick ms → (newlyPushed t.sender op).length ≤ 1
  pushes_iff : ∀ ms, op = .tick ms →
    (newlyPushed t.sender op ≠ [] ↔ t.sender.outstandingSegments ≠ [] ∧
      t.sender.consecutiveRetransmissions ≤ TCPConfig.maxRetxAttempts ∧
      t.sender.retransmissionTimeout ≤ t.elapsed + ms)
  oldest : ∀ ms, op = .tick ms → ∀ seg ∈ newlyPushed t.sender op, IsOldest t.sender seg
  counts : ∀ ms, op = .tick ms → (t.sender.step op).consecutiveRetransmissions =
    t.sender.consecutiveRetransmissions +
      if newlyPushed t.sender op ≠ [] ∧ t.sender.windowEmpty = false then 1 else 0
  resets : t.AcksNewData op → (t.sender.step op).consecutiveRetransmissions = 0
  keeps : (∀ ms, op ≠ .tick ms) → ¬ t.AcksNewData op →
    (t.sender.step op).consecutiveRetransmissions = t.sender.consecutiveRetransmissions

/-- An acknowledgement of nothing ends the back-off. -/
def ResetsEarly (t : TimerTrace) : Op → Prop
  | .ackReceived ackno _ =>
      t.sender.Accepts ackno ∧ t.sender.highestAckno < ackno.rawValue.toNat ∧
        ackno.rawValue.toNat ≤ t.sender.isn.rawValue.toNat ∧
        0 < t.sender.consecutiveRetransmissions
  | _ => False

instance (t : TimerTrace) : ∀ op, Decidable (t.ResetsEarly op)
  | .ackReceived _ _ => inferInstanceAs (Decidable (_ ∧ _))
  | .write _ | .endInput | .setError | .fillWindow | .tick _ | .sendEmptySegment
  | .drain => isFalse id

section Retransmissions

variable {t : TimerTrace} {a : Nat}

/-- While nothing wraps, new data is what lies above both the highest acknowledgement
    and the initial sequence number. -/
theorem acksNewData_iff (h : t.trace.OutInv a)
    (hwrap : t.sender.isn.rawValue.toNat + t.sender.nextSeqnoAbsolute < 2 ^ 32)
    (ackno : WrappingInt32) (w : UInt16) :
    t.AcksNewData (.ackReceived ackno w) ↔ t.sender.Accepts ackno ∧
      t.sender.highestAckno < ackno.rawValue.toNat ∧
      t.sender.isn.rawValue.toNat < ackno.rawValue.toNat := by
  rw [accepts_iff, nextSeqno, wrap_toNat_of_lt hwrap]
  constructor
  · rintro ⟨hle, p, -, hlt, hall⟩
    have hhigh : t.sender.highestAckno < ackno.rawValue.toNat := by
      rcases h.highest_mem with hnone | ⟨ack, hmem, heq⟩
      · rw [sender, hnone]
        omega
      · have hp := hall ack hmem
        rw [sender, ← heq]
        omega
    exact ⟨⟨hle, by omega⟩, hhigh, by omega⟩
  · rintro ⟨⟨hle, -⟩, hhigh, hisn⟩
    refine ⟨hle, ackno.rawValue.toNat - 1 - t.sender.isn.rawValue.toNat, by omega, by omega, ?_⟩
    intro ack hmem
    have hack : (ack.ackno.rawValue.toNat : Int) ≤ t.sender.highestAckno := h.accepted_le ack hmem
    omega

/-- The first outstanding segment is the oldest one. -/
theorem isOldest_of_head? (h : t.trace.OutInv a) {seg : TCPSegment}
    (hhead : t.sender.outstandingSegments.head? = some seg) : IsOldest t.sender seg := by
  have htiles : Tiles t.sender.isn a t.sender.outstandingSegments t.sender.nextSeqnoAbsolute :=
    h.tiles
  refine ⟨List.mem_of_mem_head? hhead, a, ?_, fun other hother => ?_⟩
  · obtain ⟨rest, hrest⟩ := List.head?_eq_some_iff.mp hhead
    rw [hrest] at htiles
    exact htiles.1
  · obtain ⟨y, hay, hyb, hseqno, -⟩ := htiles.of_mem hother
    have hpos := t.sender.outstanding_pos other hother
    exact ⟨y, hseqno, hay, by omega⟩

/-- A tick retransmits when the time has come. -/
theorem newlyPushed_tick_iff (h : t.trace.OutInv a) {retxTimeout : UInt16}
    (htimer : TimerInv retxTimeout t.sender t.elapsed) {ms : Nat} (htime : t.InTime (.tick ms)) :
    newlyPushed t.sender (.tick ms) ≠ [] ↔ t.sender.outstandingSegments ≠ [] ∧
      t.sender.consecutiveRetransmissions ≤ TCPConfig.maxRetxAttempts ∧
      t.sender.retransmissionTimeout ≤ t.elapsed + ms := by
  have hswitch : t.sender.retransmissionTimerOn = !t.sender.outstandingSegments.isEmpty := h.timer
  have hmod : t.sender.retransmissionTimerOn = true →
      t.sender.consecutiveRetransmissions ≤ TCPConfig.maxRetxAttempts →
      (t.sender.retransmissionTimer + ms) % 2 ^ 32 = t.elapsed + ms := by
    intro hon hle
    have hpass : passes t.sender (.tick ms) = ms := if_pos hon
    rw [InTime, hpass] at htime
    rw [htimer.timer_eq hon hle, Nat.mod_eq_of_lt htime]
  obtain ⟨hidle, -, hpushed⟩ | ⟨hon, hle, hwait, -, hpushed⟩ |
    ⟨hon, hle, hdue, seg, hhead, -, hpushed⟩ := t.sender.tick_cases ms
  · refine iff_of_false (by simp [hpushed]) ?_
    rintro ⟨hne, hle, -⟩
    rcases hidle with hoff | hgt
    · rw [hswitch] at hoff
      exact hne (by simpa using hoff)
    · omega
  · refine iff_of_false (by simp [hpushed]) ?_
    rintro ⟨hne, -, hdue⟩
    rw [hmod hon hle] at hwait
    exact hwait.elim hne (Nat.not_lt.mpr hdue)
  · rw [hmod hon hle] at hdue
    refine iff_of_true (by simp [hpushed]) ⟨?_, hle, hdue⟩
    exact List.ne_nil_of_mem (List.mem_of_mem_head? hhead)

/-- The count after a tick. -/
theorem attempts_tick (s : TCPSender) (ms : Nat) :
    (s.tick ms).consecutiveRetransmissions = s.consecutiveRetransmissions +
      if newlyPushed s (.tick ms) ≠ [] ∧ s.windowEmpty = false then 1 else 0 := by
  obtain ⟨-, heq, hpushed⟩ | ⟨-, -, -, heq, hpushed⟩ | ⟨-, -, -, seg, -, heq, hpushed⟩ :=
    s.tick_cases ms
  · rw [heq, hpushed]
    rfl
  · rw [heq, hpushed]
    rfl
  · have hmark : (s.advanceTimer ms).windowEmpty = s.windowEmpty := rfl
    rw [heq, hpushed, retransmit_consecutiveRetransmissions, hmark]
    cases s.windowEmpty <;> rfl

/-- The count after an acknowledgement. -/
theorem attempts_ackReceived (s : TCPSender) (ackno : WrappingInt32) (w : UInt16) :
    (s.ackReceived ackno w).consecutiveRetransmissions =
      if s.Accepts ackno ∧ s.highestAckno < ackno.rawValue.toNat then 0
      else s.consecutiveRetransmissions := by
  unfold ackReceived
  by_cases hacc : s.Accepts ackno
  · obtain ⟨-, hreset, hkeep⟩ := s.acknowledge_timer ackno w
    rw [if_pos hacc, (fillWindow_frame _).2.2.2.2.2]
    split
    · rename_i hnew
      exact (hreset hnew.2).2.1
    · rename_i hnew
      exact (hkeep fun h => hnew ⟨hacc, h⟩).2.1
  · rw [if_neg hacc, if_neg fun h => hacc h.1]

/-- The count is kept by what acknowledges nothing new unless the back-off is ended
    early. -/
theorem attempts_kept_iff (h : t.trace.OutInv a)
    (hwrap : t.sender.isn.rawValue.toNat + t.sender.nextSeqnoAbsolute < 2 ^ 32)
    (ackno : WrappingInt32) (w : UInt16) :
    (¬ t.AcksNewData (.ackReceived ackno w) →
      (t.sender.ackReceived ackno w).consecutiveRetransmissions =
        t.sender.consecutiveRetransmissions) ↔ ¬ t.ResetsEarly (.ackReceived ackno w) := by
  rw [acksNewData_iff h hwrap, attempts_ackReceived, ResetsEarly]
  by_cases hnew : t.sender.Accepts ackno ∧ t.sender.highestAckno < ackno.rawValue.toNat
  · rw [if_pos hnew]
    simp only [hnew.1, hnew.2, true_and]
    omega
  · rw [if_neg hnew]
    exact iff_of_true (fun _ => rfl) fun hearly => hnew ⟨hearly.1, hearly.2.1⟩

end Retransmissions

/-- **Retransmissions.**  As long as nothing wraps and the time fits the timer, a
    sender retransmits on time and backs off, and goes back to the initial timeout on
    new data alone, exactly if no acknowledgement of nothing ends the back-off. -/
theorem retransmitsOnTime_iff_not_resetsEarly (capacity : UInt64) (retxTimeout : UInt16)
    (isn : WrappingInt32) {ops : List Op} {t : TimerTrace} {op : Op}
    (hrun : Run (Guarded InTime step) (new capacity retxTimeout isn) ops t)
    (hwrap : isn.rawValue.toNat + t.sender.nextSeqnoAbsolute < 2 ^ 32) (htime : t.InTime op) :
    t.RetransmitsOnTime retxTimeout op ↔ ¬ t.ResetsEarly op := by
  have htrace := trace_run hrun
  have hisn : t.sender.isn = isn := SenderTrace.isn_run htrace
  rw [← hisn] at hwrap
  obtain ⟨a, hout⟩ := SenderTrace.outInv_run htrace hwrap
  have htimer := timerInv_run hrun
  constructor
  · intro h
    cases op with
    | ackReceived ackno w =>
        exact (attempts_kept_iff hout hwrap ackno w).mp (h.keeps (by simp))
    | _ => exact id
  · intro hearly
    exact
      { timeout_eq := htimer.timeout_eq
        attempts_le := htimer.attempts_le
        at_most_one := by
          rintro ms rfl
          obtain hpushed | ⟨seg, -, hpushed⟩ := t.sender.newlyPushed_tick_cases ms
          all_goals simp [hpushed]
        pushes_iff := by
          rintro ms rfl
          exact newlyPushed_tick_iff hout htimer htime
        oldest := by
          rintro ms rfl seg hseg
          obtain hpushed | ⟨head, hhead, hpushed⟩ := t.sender.newlyPushed_tick_cases ms
          · simp [hpushed] at hseg
          · rw [hpushed, List.mem_singleton] at hseg
            exact hseg ▸ isOldest_of_head? hout hhead
        counts := by
          rintro ms rfl
          exact attempts_tick t.sender ms
        resets := by
          intro hnew
          cases op with
          | ackReceived ackno w =>
              obtain ⟨hacc, hhigh, -⟩ := (acksNewData_iff hout hwrap ackno w).mp hnew
              exact (attempts_ackReceived ..).trans (if_pos ⟨hacc, hhigh⟩)
          | _ => exact hnew.elim
        keeps := by
          intro htick hold
          cases op with
          | ackReceived ackno w => exact (attempts_kept_iff hout hwrap ackno w).mpr hearly hold
          | tick ms => exact absurd rfl (htick ms)
          | fillWindow => exact (fillWindow_frame _).2.2.2.2.2
          | _ => rfl }

/-- A SYN that was retransmitted once, then acknowledged. -/
theorem retransmitsOnTime_iff_not_resetsEarly_acked :
    ∃ t, Run (Guarded InTime step) (new 16 1000 ⟨100⟩) [.fillWindow, .tick 400, .tick 600] t ∧
      t.sender.consecutiveRetransmissions = 1 ∧ t.sender.retransmissionTimeout = 2000 ∧
      t.RetransmitsOnTime 1000 (.ackReceived ⟨101⟩ 1) :=
  have hrun := Run.of_exec InTime step (new 16 1000 ⟨100⟩) [.fillWindow, .tick 400, .tick 600]
    (by decide)
  ⟨_, hrun, by decide, by decide, (retransmitsOnTime_iff_not_resetsEarly 16 1000 ⟨100⟩ hrun
    (by decide) (by decide)).mpr (by decide)⟩

/-- The same with an acknowledgement of the initial sequence number: nothing was
    acknowledged, and the count is 0 again. -/
theorem retransmitsOnTime_fails :
    ∃ t, Run (Guarded InTime step) (new 16 1000 ⟨100⟩) [.fillWindow, .tick 400, .tick 600] t ∧
      t.sender.consecutiveRetransmissions = 1 ∧
      (t.sender.ackReceived ⟨100⟩ 1).consecutiveRetransmissions = 0 ∧
      (t.sender.ackReceived ⟨100⟩ 1).outstandingSegments = t.sender.outstandingSegments ∧
      ¬ t.RetransmitsOnTime 1000 (.ackReceived ⟨100⟩ 1) := by
  have hrun := Run.of_exec InTime step (new 16 1000 ⟨100⟩) [.fillWindow, .tick 400, .tick 600]
    (by decide)
  refine ⟨_, hrun, by decide, by decide, by decide, fun h => ?_⟩
  refine absurd (h.keeps (by simp) ?_) (by decide)
  rintro ⟨-, p, -, hp, -⟩
  exact Nat.not_lt.mpr (Nat.le_add_right ..) hp

end TimerTrace

end Sponge
