/-
  Sponge.Apps.StreamCopy.Correctness

  What the copy between a socket and the standard streams guarantees.

  Whatever the kernel answers, and also when the copy is left by an exception, what was
  written in a direction followed by what is buffered is what was read (`conserves`).  A
  direction that has been finished was copied completely and stays as it is
  (`finished_stays`), and a copy that returns without having been interrupted has passed
  on all that it has read and finished every sink whose source has ended, except where the
  descriptor written to has failed before (`returns_complete`).

  A rule that reads is removed at the end of its source, and one that writes when its
  descriptor fails; closing the standard output is such a failure, so the end of the
  inbound direction also stops the reading of the standard input.
-/

import Sponge.Apps.StreamCopy.Basic

namespace Sponge

open Lib (Ends)
open EventLoop (Keeps)

namespace StreamCopy

open FileDescriptor (OfKernel)

-- ============================================================================
-- The invariant
-- ============================================================================

namespace Lane

section Fields

variable (l : Lane) (data : List UInt8) (n : Nat)

@[simp] theorem take_buffer : (l.take data).stream.buffer = (l.stream.write data).2.buffer := by
  unfold take
  dsimp only
  split <;> rfl

@[simp] theorem take_capacity : (l.take data).stream.capacity = l.stream.capacity := by
  unfold take
  dsimp only
  split <;> rfl

@[simp] theorem take_error : (l.take data).stream.error = l.stream.error := by
  unfold take
  dsimp only
  split <;> rfl

@[simp] theorem take_shutdown : (l.take data).shutdown = l.shutdown := rfl

theorem take_inputEnded (h : (l.take data).stream.inputEnded = true) :
    l.stream.inputEnded = true ∨ (l.take data).eof = true := by
  unfold take at h ⊢
  dsimp only at h ⊢
  split at h
  · rename_i heof
    exact Or.inr heof
  · exact Or.inl h

@[simp] theorem giveOrFinish_received : (l.giveOrFinish n).received = l.received := by
  unfold giveOrFinish
  split <;> rfl

@[simp] theorem giveOrFinish_eof : (l.giveOrFinish n).eof = l.eof := by
  unfold giveOrFinish
  split <;> rfl

@[simp] theorem giveOrFinish_error : (l.giveOrFinish n).stream.error = l.stream.error := by
  unfold giveOrFinish
  split <;> rfl

@[simp] theorem giveOrFinish_inputEnded :
    (l.giveOrFinish n).stream.inputEnded = l.stream.inputEnded := by
  unfold giveOrFinish
  split <;> rfl

end Fields

/-- What was written followed by what is buffered is what was read, and a direction is
    finished only when its stream is at its end. -/
structure Sound (l : Lane) : Prop where
  conserved : l.sent ++ l.stream.buffer = l.received
  capacity : l.stream.capacity = bufferSize
  at_end : l.shutdown = true → l.stream.eof = true
  finished_eq : l.finished = l.shutdown

namespace Sound

variable {l : Lane}

theorem take (h : l.Sound) {data : List UInt8} (hlen : data.length ≤ l.stream.remainingCapacity)
    (hopen : l.shutdown = false) : (l.take data).Sound := by
  have hall : l.stream.bytesToWrite data = data.length := by
    rw [ByteStream.bytesToWrite_eq]
    exact Nat.min_eq_left hlen
  refine ⟨?_, ?_, ?_, h.finished_eq⟩
  · show l.sent ++ (l.take data).stream.buffer = l.received ++ data
    simp [hall, ← h.conserved]
  · rw [take_capacity]
    exact h.capacity
  · intro hshut
    exact absurd (hopen.symm.trans hshut) (by decide)

theorem give (h : l.Sound) (n : Nat) : (l.give n).Sound := by
  have htake : l.stream.buffer.take (l.stream.bytesToRead n) = l.stream.buffer.take n := by
    rw [ByteStream.bytesToRead_eq, ← List.take_eq_take_min]
  refine ⟨?_, h.capacity, ?_, h.finished_eq⟩
  · show l.sent ++ l.stream.buffer.take n ++ l.stream.buffer.drop (l.stream.bytesToRead n) = _
    rw [← htake, List.append_assoc, List.take_append_drop]
    exact h.conserved
  · intro hshut
    obtain ⟨hended, hnil⟩ := (ByteStream.eof_iff _).mp (h.at_end hshut)
    rw [ByteStream.eof_iff]
    refine ⟨hended, ?_⟩
    show l.stream.buffer.drop _ = []
    rw [hnil, List.drop_nil]

theorem giveOrFinish (h : l.Sound) (n : Nat) : (l.giveOrFinish n).Sound := by
  have hgive := h.give n
  unfold Lane.giveOrFinish
  split
  · rename_i heof
    exact ⟨hgive.conserved, hgive.capacity, fun _ => heof, rfl⟩
  · exact hgive

theorem endInput (h : l.Sound) : l.endInput.Sound := by
  refine ⟨h.conserved, h.capacity, fun hshut => ?_, h.finished_eq⟩
  have hnil := ((ByteStream.eof_iff _).mp (h.at_end hshut)).2
  exact (ByteStream.eof_iff _).mpr ⟨rfl, hnil⟩

theorem setError (h : l.Sound) : l.setError.Sound :=
  ⟨h.conserved, h.capacity, h.at_end, h.finished_eq⟩

end Sound

end Lane

/-- Both directions. -/
abbrev Lanes := Way → Lane

/-- A stream has its error flag set: nothing more is read, in either direction. -/
def Broken (L : Lanes) : Prop := ∃ w, (L w).stream.error = true

/-- What never changes again, as seen from earlier: a finished direction, and what was read
    once a stream is broken. -/
structure Since (L₀ L : Lanes) : Prop where
  finished : ∀ w, (L₀ w).shutdown = true → (L w).shutdown = true ∧
    (L w).received = (L₀ w).received ∧ (L w).sent = (L₀ w).sent
  broken : Broken L₀ → Broken L ∧ ∀ w, (L w).received = (L₀ w).received

theorem Since.refl (L : Lanes) : Since L L :=
  ⟨fun _ h => ⟨h, rfl, rfl⟩, fun h => ⟨h, fun _ => rfl⟩⟩

/-- One direction goes on: it reads only if nothing is broken, and reads and writes only if
    it is not finished. -/
theorem Since.update {L₀ L : Lanes} (h : Since L₀ L) (w : Way) (l : Lane)
    (hreceived : l.received = (L w).received ∨ ¬ Broken L₀ ∧ (L w).shutdown = false)
    (hsent : l.sent = (L w).sent ∨ (L w).shutdown = false)
    (hshutdown : (L w).shutdown = true → l.shutdown = true)
    (herror : (L w).stream.error = true → l.stream.error = true) :
    Since L₀ (Function.update L w l) := by
  constructor
  · intro v hv
    obtain ⟨hshut, hr, hs⟩ := h.finished v hv
    by_cases hvw : v = w
    · subst hvw
      rw [Function.update_self]
      have hopen : (L v).shutdown ≠ false := by simp [hshut]
      exact ⟨hshutdown hshut, (hreceived.resolve_right fun h => hopen h.2).trans hr,
        (hsent.resolve_right hopen).trans hs⟩
    · rw [Function.update_of_ne hvw]
      exact ⟨hshut, hr, hs⟩
  · intro hbroken
    obtain ⟨⟨v, hv⟩, hr⟩ := h.broken hbroken
    refine ⟨⟨v, ?_⟩, fun v => ?_⟩
    · by_cases hvw : v = w
      · subst hvw
        rw [Function.update_self]
        exact herror hv
      · rwa [Function.update_of_ne hvw]
    · by_cases hvw : v = w
      · subst hvw
        rw [Function.update_self]
        exact (hreceived.resolve_right fun h => h.1 hbroken).trans (hr v)
      · rw [Function.update_of_ne hvw]
        exact hr v

-- ============================================================================
-- The rules
-- ============================================================================

/-- A kernel that refuses everything. -/
def noKernel : Kernel where
  reads := fun _ => .error 0
  writes := fun _ _ => .error 0
  controls := fun _ => .error 0

/-- A copy in which one descriptor can be told from the others. -/
def marked (f : CopyFd) : StreamCopy :=
  (new fun _ => noKernel).setFd f { FileDescriptor.new noKernel with eof := true }

theorem eof_marked (f g : CopyFd) : ((marked f).fd g).eof = true ↔ g = f := by
  cases f <;> cases g <;> decide

theorem readRule_inj {w v : Way} (h : readRule w = readRule v) : w = v := by
  have heof := congrArg (fun r => (r.fd (marked w.source)).eof) h
  have hself := (eof_marked w.source w.source).mpr rfl
  exact (Way.source_inj ((eof_marked w.source v.source).mp (heof.symm.trans hself))).symm

theorem writeRule_inj {w v : Way} (h : writeRule w = writeRule v) : w = v := by
  have heof := congrArg (fun r => (r.fd (marked w.sink)).eof) h
  have hself := (eof_marked w.sink w.sink).mpr rfl
  exact (Way.sink_inj ((eof_marked w.sink v.sink).mp (heof.symm.trans hself))).symm

theorem readRule_ne_writeRule (w v : Way) : readRule w ≠ writeRule v := by
  intro h
  cases congrArg Rule.direction h

theorem mem_rules {rule : Rule StreamCopy} (h : rule ∈ rules) :
    (∃ w, rule = readRule w) ∨ ∃ w, rule = writeRule w := by
  rcases List.mem_cons.mp h with h | h
  · exact Or.inl ⟨_, h⟩
  rcases List.mem_cons.mp h with h | h
  · exact Or.inr ⟨_, h⟩
  rcases List.mem_cons.mp h with h | h
  · exact Or.inl ⟨_, h⟩
  · exact Or.inr ⟨_, List.mem_singleton.mp h⟩

/-- The order of the rules: each of them once, and what reads into a stream before what
    writes from it. -/
def Before (a b : Rule StreamCopy) : Prop := a ≠ b ∧ ∀ w, a = writeRule w → b ≠ readRule w

theorem rules_pairwise : rules.Pairwise Before := by
  have hread : readRule .outbound ≠ readRule .inbound := fun h => nomatch readRule_inj h
  have hwrite : writeRule .outbound ≠ writeRule .inbound := fun h => nomatch writeRule_inj h
  have hafter : ∀ w v, Before (readRule w) (writeRule v) := fun w v =>
    ⟨readRule_ne_writeRule w v, fun _ h => absurd h (readRule_ne_writeRule w _)⟩
  have hreads : Before (readRule .outbound) (readRule .inbound) :=
    ⟨hread, fun _ h => absurd h (readRule_ne_writeRule _ _)⟩
  have hwrites : Before (writeRule .outbound) (writeRule .inbound) :=
    ⟨hwrite, fun w _ h => readRule_ne_writeRule w .inbound h.symm⟩
  have hmiddle : Before (writeRule .outbound) (readRule .inbound) := by
    refine ⟨(readRule_ne_writeRule _ _).symm, fun w hw h => hread ?_⟩
    rw [writeRule_inj hw, h]
  simp [rules, rule1, rule2, rule3, rule4, hafter, hreads, hwrites, hmiddle]

/-- The rules that are left and both directions: a rule that reads is removed once its
    stream has ended, a rule that writes when its descriptor fails. -/
structure Inv (L₀ : Lanes) (rules : List (Rule StreamCopy)) (L : Lanes) : Prop where
  sub : rules.Sublist StreamCopy.rules
  sound : ∀ w, (L w).Sound
  since : Since L₀ L
  ended : ∀ w, readRule w ∈ rules → (L w).stream.inputEnded = true → (L w).eof = true
  read_removed : ∀ w, readRule w ∉ rules → (L w).stream.inputEnded = true
  write_removed : ∀ w, writeRule w ∉ rules → (L w).stream.error = true

/-- What is known of a rule after it was asked whether it is interested. -/
structure Known (L₀ : Lanes) (events : Bool) (rule : Rule StreamCopy) (L : Lanes) : Prop where
  reads : ∀ w, rule = readRule w → events = true → (L w).eof = false ∧ ¬ Broken L₀
  full : ∀ w, rule = readRule w → events = false →
    Broken L ∨ (L w).stream.remainingCapacity = 0
  writes : ∀ w, rule = writeRule w → events = true → (L w).shutdown = false
  empty : ∀ w, rule = writeRule w → events = false → (L w).stream.buffer = [] ∧
    ((L w).stream.inputEnded = true → (L w).shutdown = true)

/-- What holds where the copy is left by an exception: it was the kernel's doing. -/
def Left (L₀ : Lanes) (e : Thrown) (L : Lanes) : Prop :=
  (OfKernel e ∨ e = EventLoop.pollError) ∧ (∀ w, (L w).Sound) ∧ Since L₀ L

section Steps

variable {L₀ L : Lanes} {front rest : List (Rule StreamCopy)} {rule : Rule StreamCopy}

/-- A rule is in the list once, and after what reads into its stream. -/
theorem Inv.split (h : Inv L₀ (front ++ rule :: rest) L) :
    (∀ other ∈ front, Before other rule) ∧ (∀ other ∈ rest, Before rule other) := by
  obtain ⟨-, hrule, hfront⟩ := List.pairwise_append.mp (rules_pairwise.sublist h.sub)
  exact ⟨fun other hother => hfront other hother rule (List.mem_cons_self ..),
    (List.pairwise_cons.mp hrule).1⟩

theorem Inv.not_mem (h : Inv L₀ (front ++ rule :: rest) L) : rule ∉ front ++ rest := by
  obtain ⟨hfront, hrest⟩ := h.split
  intro hmem
  rcases List.mem_append.mp hmem with hmem | hmem
  · exact (hfront rule hmem).1 rfl
  · exact (hrest rule hmem).1 rfl

theorem Inv.mem (h : Inv L₀ (front ++ rule :: rest) L) :
    (∃ w, rule = readRule w) ∨ ∃ w, rule = writeRule w :=
  mem_rules (h.sub.subset (by simp))

/-- A rule other than the one that is removed. -/
theorem not_mem_of_removed {other : Rule StreamCopy} (hne : other ≠ rule)
    (h : other ∉ front ++ rest) : other ∉ front ++ rule :: rest := by
  simp only [List.mem_append, List.mem_cons, not_or] at h ⊢
  exact ⟨h.1, hne, h.2⟩

theorem mem_of_removed {other : Rule StreamCopy} (h : other ∈ front ++ rest) :
    other ∈ front ++ rule :: rest := by
  simp only [List.mem_append, List.mem_cons] at h ⊢
  exact h.elim Or.inl fun h => Or.inr (Or.inr h)

/-- A rule that reads is cancelled. -/
theorem Inv.cancel_read {w : Way} (h : Inv L₀ (front ++ readRule w :: rest) L) :
    Inv L₀ (front ++ rest) (Function.update L w (L w).endInput) where
  sub := ((List.sublist_cons_self ..).append_left front).trans h.sub
  sound := (Function.forall_update_iff L fun _ l => l.Sound).mpr
    ⟨(h.sound w).endInput, fun v _ => h.sound v⟩
  since := h.since.update w _ (Or.inl rfl) (Or.inl rfl) id id
  ended := (Function.forall_update_iff L fun v l => readRule v ∈ front ++ rest →
      l.stream.inputEnded = true → l.eof = true).mpr
    ⟨fun hmem => absurd hmem h.not_mem, fun v _ hmem => h.ended v (mem_of_removed hmem)⟩
  read_removed := (Function.forall_update_iff L fun v l => readRule v ∉ front ++ rest →
      l.stream.inputEnded = true).mpr
    ⟨fun _ => rfl, fun v hvw hmem =>
      h.read_removed v (not_mem_of_removed (fun heq => hvw (readRule_inj heq)) hmem)⟩
  write_removed := by
    have hold := fun v hmem =>
      h.write_removed v (not_mem_of_removed (readRule_ne_writeRule w v).symm hmem)
    exact (Function.forall_update_iff L fun v l => writeRule v ∉ front ++ rest →
      l.stream.error = true).mpr ⟨hold w, fun v _ => hold v⟩

/-- A rule that writes is cancelled. -/
theorem Inv.cancel_write {w : Way} (h : Inv L₀ (front ++ writeRule w :: rest) L) :
    Inv L₀ (front ++ rest) (Function.update L w (L w).setError) where
  sub := ((List.sublist_cons_self ..).append_left front).trans h.sub
  sound := (Function.forall_update_iff L fun _ l => l.Sound).mpr
    ⟨(h.sound w).setError, fun v _ => h.sound v⟩
  since := h.since.update w _ (Or.inl rfl) (Or.inl rfl) id fun _ => rfl
  ended := by
    have hold := fun v hmem => h.ended v (mem_of_removed hmem)
    exact (Function.forall_update_iff L fun v l => readRule v ∈ front ++ rest →
      l.stream.inputEnded = true → l.eof = true).mpr ⟨hold w, fun v _ => hold v⟩
  read_removed := by
    have hold := fun v hmem =>
      h.read_removed v (not_mem_of_removed (readRule_ne_writeRule v w) hmem)
    exact (Function.forall_update_iff L fun v l => readRule v ∉ front ++ rest →
      l.stream.inputEnded = true).mpr ⟨hold w, fun v _ => hold v⟩
  write_removed := (Function.forall_update_iff L fun v l => writeRule v ∉ front ++ rest →
      l.stream.error = true).mpr
    ⟨fun _ => rfl, fun v hvw hmem =>
      h.write_removed v (not_mem_of_removed (fun heq => hvw (writeRule_inj heq)) hmem)⟩

/-- A direction whose source is not at its end is not finished. -/
theorem Inv.open_of_eof {rules : List (Rule StreamCopy)} {w : Way} (h : Inv L₀ rules L)
    (hmem : readRule w ∈ rules) (heof : (L w).eof = false) : (L w).shutdown = false := by
  by_contra hshut
  have hended := ((ByteStream.eof_iff _).mp ((h.sound w).at_end (by simpa using hshut))).1
  exact absurd (heof.symm.trans (h.ended w hmem hended)) (by decide)

/-- Bytes are read. -/
theorem Inv.take {rules : List (Rule StreamCopy)} {w : Way} (h : Inv L₀ rules L)
    (hmem : readRule w ∈ rules) (heof : (L w).eof = false) (hbroken : ¬ Broken L₀)
    {data : List UInt8} (hlen : data.length ≤ (L w).stream.remainingCapacity) :
    Inv L₀ rules (Function.update L w ((L w).take data)) where
  sub := h.sub
  sound := (Function.forall_update_iff L fun _ l => l.Sound).mpr
    ⟨(h.sound w).take hlen (h.open_of_eof hmem heof), fun v _ => h.sound v⟩
  since := h.since.update w _ (Or.inr ⟨hbroken, h.open_of_eof hmem heof⟩) (Or.inl rfl) id (by simp)
  ended := by
    refine (Function.forall_update_iff L fun v l => readRule v ∈ rules →
      l.stream.inputEnded = true → l.eof = true).mpr ⟨fun _ hended => ?_, fun v _ => h.ended v⟩
    rcases (L w).take_inputEnded data hended with hended | heof'
    · exact absurd (heof.symm.trans (h.ended w hmem hended)) (by decide)
    · exact heof'
  read_removed := (Function.forall_update_iff L fun v l => readRule v ∉ rules →
      l.stream.inputEnded = true).mpr
    ⟨fun hnot => absurd hmem hnot, fun v _ => h.read_removed v⟩
  write_removed := (Function.forall_update_iff L fun v l => writeRule v ∉ rules →
      l.stream.error = true).mpr
    ⟨fun hnot => by rw [Lane.take_error]; exact h.write_removed w hnot,
      fun v _ => h.write_removed v⟩

/-- Bytes are written. -/
theorem Inv.giveOrFinish {rules : List (Rule StreamCopy)} {w : Way} (h : Inv L₀ rules L)
    (hopen : (L w).shutdown = false) (n : Nat) :
    Inv L₀ rules (Function.update L w ((L w).giveOrFinish n)) where
  sub := h.sub
  sound := (Function.forall_update_iff L fun _ l => l.Sound).mpr
    ⟨(h.sound w).giveOrFinish n, fun v _ => h.sound v⟩
  since := h.since.update w _ (Or.inl (Lane.giveOrFinish_received ..)) (Or.inr hopen)
    (fun hshut => absurd (hopen.symm.trans hshut) (by decide)) (by simp)
  ended := (Function.forall_update_iff L fun v l => readRule v ∈ rules →
      l.stream.inputEnded = true → l.eof = true).mpr
    ⟨by simpa using h.ended w, fun v _ => h.ended v⟩
  read_removed := (Function.forall_update_iff L fun v l => readRule v ∉ rules →
      l.stream.inputEnded = true).mpr ⟨by simpa using h.read_removed w, fun v _ => h.read_removed v⟩
  write_removed := (Function.forall_update_iff L fun v l => writeRule v ∉ rules →
      l.stream.error = true).mpr ⟨by simpa using h.write_removed w, fun v _ => h.write_removed v⟩

/-- What is known of a rule is not touched by a change in a direction that keeps what the
    rule looks at. -/
theorem Known.update {events : Bool} (h : Known L₀ events rule L) (w : Way) (l : Lane)
    (hreads : rule = readRule w → events = true → l.eof = (L w).eof)
    (hfull : events = false → ((L w).stream.error = true → l.stream.error = true) ∧
      l.stream.remainingCapacity = (L w).stream.remainingCapacity)
    (hwrites : rule = writeRule w → events = true → l.shutdown = (L w).shutdown)
    (hempty : rule = writeRule w → events = false → l.stream.buffer = (L w).stream.buffer ∧
      l.stream.inputEnded = (L w).stream.inputEnded ∧ l.shutdown = (L w).shutdown) :
    Known L₀ events rule (Function.update L w l) where
  reads := (Function.forall_update_iff L fun v l => rule = readRule v → events = true →
      l.eof = false ∧ ¬ Broken L₀).mpr
    ⟨fun hrule hevents => by rw [hreads hrule hevents]; exact h.reads w hrule hevents,
      fun v _ => h.reads v⟩
  full := by
    intro v hrule hevents
    obtain ⟨herror, hcapacity⟩ := hfull hevents
    rcases h.full v hrule hevents with ⟨u, hu⟩ | hnone
    · refine Or.inl ⟨u, ?_⟩
      by_cases huw : u = w
      · subst huw
        rw [Function.update_self]
        exact herror hu
      · rwa [Function.update_of_ne huw]
    · refine Or.inr ?_
      by_cases hvw : v = w
      · subst hvw
        rw [Function.update_self, hcapacity]
        exact hnone
      · rwa [Function.update_of_ne hvw]
  writes := (Function.forall_update_iff L fun v l => rule = writeRule v → events = true →
      l.shutdown = false).mpr
    ⟨fun hrule hevents => by rw [hwrites hrule hevents]; exact h.writes w hrule hevents,
      fun v _ => h.writes v⟩
  empty := by
    refine (Function.forall_update_iff L fun v l => rule = writeRule v → events = false →
      l.stream.buffer = [] ∧ (l.stream.inputEnded = true → l.shutdown = true)).mpr
      ⟨fun hrule hevents => ?_, fun v _ => h.empty v⟩
    obtain ⟨hbuffer, hended, hshut⟩ := hempty hrule hevents
    rw [hbuffer, hended, hshut]
    exact h.empty w hrule hevents

/-- The same for a rule that was interested, which is all that counts in its turn. -/
theorem Known.update_true (h : Known L₀ true rule L) (w : Way) (l : Lane)
    (hreads : rule = readRule w → l.eof = (L w).eof)
    (hwrites : rule = writeRule w → l.shutdown = (L w).shutdown) :
    Known L₀ true rule (Function.update L w l) :=
  h.update w l (fun hrule _ => hreads hrule) nofun (fun hrule _ => hwrites hrule) fun _ => nofun

end Steps

-- ============================================================================
-- The copy keeps the invariant
-- ============================================================================

theorem broken_iff (L : Lanes) (w : Way) :
    Broken L ↔ (L w).stream.error = true ∨ (L w.other).stream.error = true := by
  constructor
  · rintro ⟨v, hv⟩
    cases w <;> cases v <;> simp [Way.other, hv]
  · rintro (h | h)
    · exact ⟨_, h⟩
    · exact ⟨_, h⟩

theorem interest_readRule (s : StreamCopy) (w : Way) :
    (readRule w).interest s = true ↔
      ¬ Broken s.lane ∧ 0 < (s.lane w).stream.remainingCapacity := by
  rw [broken_iff s.lane w]
  simp only [readRule, lane, Bool.and_eq_true, Bool.not_eq_eq_eq_not, Bool.not_true,
    decide_eq_true_eq, not_or, Bool.not_eq_true, gt_iff_lt]
  tauto

theorem interest_writeRule (s : StreamCopy) (w : Way) :
    (writeRule w).interest s = false ↔ (s.lane w).stream.buffer = [] ∧
      ((s.lane w).stream.inputEnded = true → (s.lane w).shutdown = true) := by
  simp only [writeRule, lane, ByteStream.eof, Bool.or_eq_false_iff, Bool.not_eq_eq_eq_not,
    Bool.not_false, ByteStream.bufferEmpty_iff]
  refine and_congr_right fun hnil => ?_
  have hempty : (s.stream w).bufferEmpty = true := (ByteStream.bufferEmpty_iff _).mpr hnil
  cases (s.stream w).inputEnded <;> cases s.shutdown w <;> simp [hempty]

theorem known_readRule {L₀ : Lanes} {rules : List (Rule StreamCopy)} {s : StreamCopy} {w : Way}
    (h : Inv L₀ rules s.lane) (hend : ¬ EventLoop.AtEnd (readRule w) s) :
    Known L₀ ((readRule w).interest s) (readRule w) s.lane := by
  refine ⟨fun v hv hevents => ?_, fun v hv hevents => ?_,
    fun v hv => absurd hv (readRule_ne_writeRule w v),
    fun v hv => absurd hv (readRule_ne_writeRule w v)⟩
  · obtain rfl := readRule_inj hv
    refine ⟨?_, fun hbroken => ?_⟩
    · show (s.fd w.source).eof = false
      by_contra heof
      exact hend (Or.inl ⟨rfl, (Bool.not_eq_false _).mp heof⟩)
    · exact ((interest_readRule s w).mp hevents).1 (h.since.broken hbroken).1
  · obtain rfl := readRule_inj hv
    by_contra hnot
    obtain ⟨hbroken, hcapacity⟩ := not_or.mp hnot
    have hinterest := (interest_readRule s w).mpr ⟨hbroken, Nat.pos_of_ne_zero hcapacity⟩
    exact absurd (hinterest.symm.trans hevents) (by decide)

theorem known_writeRule {L₀ : Lanes} {rules : List (Rule StreamCopy)} {s : StreamCopy}
    (h : Inv L₀ rules s.lane) (w : Way) :
    Known L₀ ((writeRule w).interest s) (writeRule w) s.lane := by
  refine ⟨fun v hv => absurd hv.symm (readRule_ne_writeRule v w),
    fun v hv => absurd hv.symm (readRule_ne_writeRule v w),
    fun v hv hevents => ?_, fun v hv hevents => ?_⟩
  · -- a finished direction has nothing to write
    obtain rfl := writeRule_inj hv
    by_contra hshut
    have hshut := (Bool.not_eq_false _).mp hshut
    have hnil := ((ByteStream.eof_iff _).mp ((h.sound w).at_end hshut)).2
    have hinterest := (interest_writeRule s w).mpr ⟨hnil, fun _ => hshut⟩
    exact absurd (hevents.symm.trans hinterest) (by decide)
  · obtain rfl := writeRule_inj hv
    exact (interest_writeRule s w).mp hevents

section Rules

variable {L₀ : Lanes} {front rest : List (Rule StreamCopy)} {s : StreamCopy} {w : Way}

theorem cancel_readRule (h : Inv L₀ (front ++ readRule w :: rest) s.lane) :
    Ends (readRule w).cancel s (fun _ s' => Inv L₀ (front ++ rest) s'.lane ∧
      (∀ other ∈ front, ∀ events, Known L₀ events other s.lane → Known L₀ events other s'.lane) ∧
      ∀ other ∈ rest, Known L₀ true other s.lane → Known L₀ true other s'.lane)
      (fun e s' => Left L₀ e s'.lane) := by
  have hlane : (s.setStream w (s.stream w).endInput).lane =
      Function.update s.lane w (s.lane w).endInput := lane_setStream ..
  rw [readRule, Lib.ends_modify, hlane]
  refine ⟨h.cancel_read, fun other hother events hknown => ?_, fun other _ hknown => ?_⟩
  · -- what writes from the stream comes later
    refine hknown.update w _ (fun _ _ => rfl) (fun _ => ⟨id, rfl⟩) (fun _ _ => rfl)
      fun hwrite => absurd rfl ((h.split.1 other hother).2 w hwrite)
  · exact hknown.update_true w _ (fun _ => rfl) fun _ => rfl

theorem cancel_writeRule (h : Inv L₀ (front ++ writeRule w :: rest) s.lane) :
    Ends (writeRule w).cancel s (fun _ s' => Inv L₀ (front ++ rest) s'.lane ∧
      (∀ other ∈ front, ∀ events, Known L₀ events other s.lane → Known L₀ events other s'.lane) ∧
      ∀ other ∈ rest, Known L₀ true other s.lane → Known L₀ true other s'.lane)
      (fun e s' => Left L₀ e s'.lane) := by
  have hlane : (s.setStream w (s.stream w).setError).lane =
      Function.update s.lane w (s.lane w).setError := lane_setStream ..
  rw [writeRule, Lib.ends_modify, hlane]
  refine ⟨h.cancel_write, fun other _ events hknown => ?_, fun other _ hknown => ?_⟩
  · exact hknown.update w _ (fun _ _ => rfl) (fun _ => ⟨fun _ => rfl, rfl⟩) (fun _ _ => rfl)
      fun _ _ => ⟨rfl, rfl, rfl⟩
  · exact hknown.update_true w _ (fun _ => rfl) fun _ => rfl

theorem callback_readRule (h : Inv L₀ (front ++ readRule w :: rest) s.lane)
    (hknown : Known L₀ true (readRule w) s.lane) :
    Ends (readRule w).callback s (fun _ s' => Inv L₀ (front ++ readRule w :: rest) s'.lane ∧
      (∀ other ∈ rest, Known L₀ true other s.lane → Known L₀ true other s'.lane) ∧
      (EventLoop.Moves (readRule w) s s' ∨ Left L₀ EventLoop.busyWait s'.lane))
      (fun e s' => Left L₀ e s'.lane) := by
  obtain ⟨heof, hbroken⟩ := hknown.reads w rfl rfl
  refine (readInto_ends s w).mono ?_ ?_
  · rintro _ s' ⟨⟨data, hlen, hlane⟩, hcount⟩
    rw [hlane]
    refine ⟨h.take (by simp) heof hbroken hlen, fun other hother hknown => ?_, Or.inl (Or.inl ?_)⟩
    · exact hknown.update_true w _ (fun hread => absurd hread.symm (h.split.2 other hother).1)
        fun _ => rfl
    · show (s.fd w.source).readCount ≠ (s'.fd w.source).readCount
      rw [hcount]
      grind
  · rintro e s' ⟨he, hlane⟩
    show Left L₀ e s'.lane
    rw [hlane]
    exact ⟨Or.inl he, h.sound, h.since⟩

theorem callback_writeRule (h : Inv L₀ (front ++ writeRule w :: rest) s.lane)
    (hknown : Known L₀ true (writeRule w) s.lane) :
    Ends (writeRule w).callback s (fun _ s' => Inv L₀ (front ++ writeRule w :: rest) s'.lane ∧
      (∀ other ∈ rest, Known L₀ true other s.lane → Known L₀ true other s'.lane) ∧
      (EventLoop.Moves (writeRule w) s s' ∨ Left L₀ EventLoop.busyWait s'.lane))
      (fun e s' => Left L₀ e s'.lane) := by
  have hopen := hknown.writes w rfl rfl
  refine (writeOut_ends s w).mono ?_ ?_
  · rintro _ s' ⟨⟨n, hlane⟩, hcount⟩
    rw [hlane]
    refine ⟨h.giveOrFinish hopen n, fun other hother hknown => ?_, Or.inl (Or.inl hcount.symm)⟩
    exact hknown.update_true w _ (fun _ => Lane.giveOrFinish_eof ..)
      fun hwrite => absurd hwrite.symm (h.split.2 other hother).1
  · rintro e s' ⟨he, hlane⟩
    show Left L₀ e s'.lane
    refine ⟨Or.inl he, ?_⟩
    rcases hlane with hlane | ⟨n, hlane⟩
    · rw [hlane]
      exact ⟨h.sound, h.since⟩
    · rw [hlane]
      exact ⟨(Function.forall_update_iff _ fun _ (l : Lane) => l.Sound).mpr
        ⟨(h.sound w).give n, fun v _ => h.sound v⟩,
        h.since.update w _ (Or.inl rfl) (Or.inr hopen) id id⟩

end Rules

theorem keeps (L₀ : Lanes) :
    Keeps (fun rules s => Inv L₀ rules s.lane) (fun events rule s => Known L₀ events rule s.lane)
      (fun e s => Left L₀ e s.lane) where
  asked := by
    intro rules rule s hmem h hend
    obtain ⟨w, rfl⟩ | ⟨w, rfl⟩ := mem_rules (h.sub.subset hmem)
    · exact known_readRule h hend
    · exact known_writeRule h w
  cancel := by
    intro front rule rest s h
    obtain ⟨w, rfl⟩ | ⟨w, rfl⟩ := h.mem
    · exact cancel_readRule h
    · exact cancel_writeRule h
  callback := by
    intro front rule rest s h hknown
    obtain ⟨w, rfl⟩ | ⟨w, rfl⟩ := h.mem
    · exact callback_readRule h hknown
    · exact callback_writeRule h hknown
  pollError := fun h => ⟨Or.inr rfl, h.sound, h.since⟩

theorem inv_new (kernel : CopyFd → Kernel) : Inv (new kernel).lane rules (new kernel).lane where
  sub := List.Sublist.refl _
  sound := fun w => by cases w <;> exact ⟨rfl, rfl, nofun, rfl⟩
  since := Since.refl _
  ended := fun w _ => by cases w <;> exact nofun
  read_removed := fun w h => by cases w <;> simp [rules, rule1, rule3] at h
  write_removed := fun w h => by cases w <;> simp [rules, rule2, rule4] at h

/-- A direction that is asked about from now on. -/
theorem Inv.rebase {L₀ L : Lanes} {rules : List (Rule StreamCopy)} (h : Inv L₀ rules L) :
    Inv L rules L :=
  { h with since := Since.refl L }

/-- The loop, for as long as it runs; when it leaves, the remaining rules were found
    uninterested. -/
theorem copyLoop_ends {L₀ : Lanes} (answers : List PollAnswer) {rules : List (Rule StreamCopy)}
    {s : StreamCopy} (h : Inv L₀ rules s.lane) :
    Ends (copyLoop answers rules) s
      (fun r s' => Inv L₀ r.2 s'.lane ∧ (r.1 = true → (∀ answer ∈ answers, answer ≠ .error eintr) →
        ∀ rule ∈ r.2, Known L₀ false rule s'.lane))
      (fun e s' => Left L₀ e s'.lane) := by
  induction answers generalizing rules s with
  | nil =>
      rw [copyLoop, Lib.ends_pure]
      exact ⟨h, nofun⟩
  | cons answer answers ih =>
      rw [copyLoop, Lib.ends_bind]
      refine ((keeps L₀).waitNextEvent answer h).mono ?_ fun _ _ he => he
      rintro result s' ⟨h', hexit⟩
      rw [Lib.ends_ite, Lib.ends_pure]
      refine ⟨fun hresult => ⟨h', fun _ hanswers => ?_⟩, fun _ => ?_⟩
      · exact hexit hresult (hanswers answer (List.mem_cons_self ..))
      · refine (ih h').mono ?_ fun _ _ he => he
        rintro r s'' ⟨h'', hknown⟩
        exact ⟨h'', fun hr hanswers =>
          hknown hr fun answer hmem => hanswers answer (List.mem_cons_of_mem _ hmem)⟩

/-- **Nothing is lost, repeated or reordered.**  Whatever the kernel answers, in both
    directions what was written followed by what is buffered is what was read, also when the
    copy is left by an exception; and the exceptions are complaints about the kernel. -/
theorem conserves (kernel : CopyFd → Kernel) (answers : List PollAnswer) :
    Ends (bidirectionalStreamCopy answers) (new kernel)
      (fun _ s => ∀ w, (s.lane w).Sound)
      (fun e s => (OfKernel e ∨ e = EventLoop.pollError) ∧ ∀ w, (s.lane w).Sound) :=
  (copyLoop_ends answers (inv_new kernel)).mono (fun _ _ h => h.1.sound)
    fun _ _ h => ⟨h.1, h.2.1⟩

/-- **A finished direction is complete and stays so.**  Once the sink of a direction was
    finished, all that was read has been written, and in all that follows nothing more is
    read or written in it; once an error flag is set nothing more is read in either
    direction. -/
theorem finished_stays (kernel : CopyFd → Kernel) (answers more : List PollAnswer) :
    Ends (bidirectionalStreamCopy answers) (new kernel)
      (fun r s => (∀ w, (s.lane w).finished = true → (s.lane w).sent = (s.lane w).received) ∧
        Ends (copyLoop more r.2) s (fun _ s' => Since s.lane s'.lane)
          (fun _ s' => Since s.lane s'.lane))
      (fun _ s => ∀ w, (s.lane w).finished = true → (s.lane w).sent = (s.lane w).received) := by
  have hcomplete : ∀ s : StreamCopy, (∀ w, (s.lane w).Sound) →
      ∀ w, (s.lane w).finished = true → (s.lane w).sent = (s.lane w).received := by
    intro s hsound w hfinished
    rw [(hsound w).finished_eq] at hfinished
    have hnil := ((ByteStream.eof_iff _).mp ((hsound w).at_end hfinished)).2
    rw [← (hsound w).conserved, hnil, List.append_nil]
  refine (copyLoop_ends answers (inv_new kernel)).mono ?_ fun _ s h => hcomplete s h.2.1
  intro r s h
  exact ⟨hcomplete s h.1.sound, (copyLoop_ends more h.1.rebase).mono (fun _ _ h => h.1.since)
    fun _ _ h => h.2.2⟩

/-- The sink has not failed before it was finished.  (Closing the standard output makes its
    rule fail, after the end.) -/
def SinkHeld (l : Lane) : Prop := l.stream.error = true → l.shutdown = true

instance (l : Lane) : Decidable (SinkHeld l) := inferInstanceAs (Decidable (_ → _))

/-- What holds of a direction when the copy has returned. -/
structure Returned (L : Lanes) (w : Way) : Prop where
  /-- All that was read has been written, unless the sink has failed before the end. -/
  passed : SinkHeld (L w) → (L w).sent = (L w).received
  /-- If the source has ended the sink was finished, unless it has failed before. -/
  finished : SinkHeld (L w) → (L w).stream.inputEnded = true → (L w).finished = true
  /-- Reading has stopped at the end of the source or because a stream is broken. -/
  stopped : (L w).stream.inputEnded = true ∨ Broken L

/-- **A copy that returns has passed on what it has read**, unless it was interrupted by a
    signal. -/
theorem returns_complete (kernel : CopyFd → Kernel) (answers : List PollAnswer)
    (hanswers : ∀ answer ∈ answers, answer ≠ .error eintr) :
    Ends (bidirectionalStreamCopy answers) (new kernel)
      (fun r s => r.1 = true → ∀ w, Returned s.lane w) (fun _ _ => True) := by
  refine (copyLoop_ends answers (inv_new kernel)).mono ?_ fun _ _ _ => trivial
  rintro r s ⟨h, hexit⟩ hr w
  have hknown := hexit hr hanswers
  have hsound := h.sound w
  by_cases hmem : writeRule w ∈ r.2
  · -- the rule that writes has nothing to write
    obtain ⟨hnil, hended⟩ := (hknown _ hmem).empty w rfl rfl
    refine ⟨fun _ => by rw [← hsound.conserved, hnil, List.append_nil], fun _ he => ?_, ?_⟩
    · rw [hsound.finished_eq]
      exact hended he
    · by_cases hread : readRule w ∈ r.2
      · have hcapacity : (s.lane w).stream.remainingCapacity ≠ 0 := by
          rw [ByteStream.remainingCapacity, ByteStream.bufferSize, hnil, hsound.capacity]
          decide
        exact Or.inr (((hknown _ hread).full w rfl rfl).resolve_right hcapacity)
      · exact Or.inl (h.read_removed w hread)
  · have herror := h.write_removed w hmem
    refine ⟨fun hheld => ?_, fun hheld _ => hsound.finished_eq.trans (hheld herror),
      Or.inr ⟨w, herror⟩⟩
    have hnil := ((ByteStream.eof_iff _).mp (hsound.at_end (hheld herror))).2
    rw [← hsound.conserved, hnil, List.append_nil]

/-- Two bytes and then the end on the standard input, nothing from the socket, and whatever
    is written is taken. -/
def twoBytes : CopyFd → Kernel
  | .input => { noKernel with reads := fun n => .ok (if n = 0 then [104, 105] else []) }
  | .output => { noKernel with writes := fun _ => .ok, controls := fun _ => .ok () }
  | .socket =>
      { reads := fun _ => .ok [], writes := fun _ => .ok, controls := fun _ => .ok () }

/-- The bytes are read, the end of the input comes as they are written, then the end from
    the socket, and the standard output is closed. -/
def shortSession : List PollAnswer :=
  [.ok [{ pollIn := true }], .ok [{ pollIn := true }, { pollOut := true }],
    .ok [{}, { pollIn := true }], .ok [{}, { pollOut := true }], .ok []]

theorem returns_complete_twoBytes :
    Ends (bidirectionalStreamCopy shortSession) (new twoBytes)
      (fun r s => (r.1 = true ∧ (s.lane .outbound).sent = [104, 105] ∧
        (s.lane .inbound).stream.error = true ∧ SinkHeld (s.lane .outbound) ∧
        SinkHeld (s.lane .inbound)) ∧ ∀ w, Returned s.lane w)
      (fun _ _ => False) := by
  have hrun : Ends (bidirectionalStreamCopy shortSession) (new twoBytes)
      (fun r s => r.1 = true ∧ (s.lane .outbound).sent = [104, 105] ∧
        (s.lane .inbound).stream.error = true ∧ SinkHeld (s.lane .outbound) ∧
        SinkHeld (s.lane .inbound)) (fun _ _ => False) := by
    decide +kernel
  have hreturned := hrun.and (returns_complete twoBytes shortSession (by decide))
  refine hreturned.mono ?_ ?_
  · rintro r s ⟨hrun, hreturned⟩
    exact ⟨hrun, hreturned hrun.1⟩
  · rintro e s ⟨h, -⟩
    exact h

end StreamCopy

end Sponge
