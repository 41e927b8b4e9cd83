/-
  Sponge.SpongeSocket.Refinement

  What the thread of a socket does, in terms of the operations of its connection.

  Every callback performs operations of the connection and passes on what they take in and
  give out, so that the ledger of the connection accounts for everything that the owner and
  the medium see (`Current`, and `Recorded` once an exception has cut a callback short).
  The adapter may be any that invents nothing; what its medium and the kernel do is left
  open.
-/

import Sponge.FdAdapter.Udp
import Sponge.SpongeSocket.Basic
import Sponge.SpongeSocket.Ledger

namespace Sponge

open Lib (Ends Run onPart)
open EventLoop (Keeps)

namespace TCPSpongeSocket

variable {α : Type} [Faithful α]

-- ============================================================================
-- The ledger of a socket
-- ============================================================================

/-- The ledger accounts for what the socket has read and written. -/
structure Recorded (l : Ledger) (s : TCPSpongeSocket α) : Prop where
  accepted : l.accepted = s.threadData.received.flatten
  delivered : l.delivered = s.threadData.sent.flatten
  heard : l.heard.Sublist ((taken s.datagramAdapter).filterMap (decode α))
  sends : Faithful.Sends l.net s.datagramAdapter

/-- The ledger is that of the socket's connection. -/
structure Current (l : Ledger) (s : TCPSpongeSocket α) : Prop extends Recorded l s where
  conn_eq : l.conn = s.tcp
  sound : l.Sound

/-- What is thrown: errors of the kernel and complaints about it, what the event loop says
    of a descriptor with an error, and what a segment does that cannot be taken in. -/
inductive Complaint : Thrown → Prop
  | medium {e : Thrown} : OfMedium e → Complaint e
  | polled : Complaint EventLoop.pollError
  | undefinedBehavior : Complaint .undefinedBehavior

/-- The socket is where some more operations of the connection lead. -/
def Goes (l : Ledger) (s : TCPSpongeSocket α) : Prop := ∃ l', l.Extends l' ∧ Current l' s

/-- The socket was left by an exception after some more operations. -/
def Stops (l : Ledger) (e : Thrown) (s : TCPSpongeSocket α) : Prop :=
  Complaint e ∧ ∃ l', l.Extends l' ∧ Recorded l' s

variable {l : Ledger} {s s' : TCPSpongeSocket α}

theorem Current.goes (h : Current l s) : Goes l s := ⟨l, .refl l, h⟩

theorem Recorded.stops (h : Recorded l s) {e : Thrown} (he : Complaint e) : Stops l e s :=
  ⟨he, l, .refl l, h⟩

theorem Goes.trans {l' : Ledger} (hs : Goes l' s) (h : l.Extends l') : Goes l s := by
  obtain ⟨l'', hl'', hcurrent⟩ := hs
  exact ⟨l'', h.trans hl'', hcurrent⟩

theorem Stops.trans {l' : Ledger} {e : Thrown} (hs : Stops l' e s) (h : l.Extends l') :
    Stops l e s := by
  obtain ⟨he, l'', hl'', hrecorded⟩ := hs
  exact ⟨he, l'', h.trans hl'', hrecorded⟩

/-- The socket performs an operation and passes on what it has taken in and given out. -/
theorem Current.perform (h : Current l s) (op : TCPConnection.Op) (s' : TCPSpongeSocket α)
    (hop : s.tcp.step op = some s'.tcp)
    (haccepted : s'.threadData.received.flatten =
      s.threadData.received.flatten ++ s.tcp.acceptedBy op)
    (hdelivered : s'.threadData.sent.flatten = s.threadData.sent.flatten ++ s.tcp.deliveredBy op)
    (hheard : (l.heard ++ Ledger.heardBy op).Sublist
      ((taken s'.datagramAdapter).filterMap (decode α)))
    (hsends : Faithful.Sends (l.net ++ World.emittedBy s.tcp op) s'.datagramAdapter) :
    ∃ l', l.step op = some l' ∧ Current l' s' := by
  have hstep : l.step op = some
      { conn := s'.tcp
        heard := l.heard ++ Ledger.heardBy op
        net := l.net ++ World.emittedBy s.tcp op
        accepted := l.accepted ++ s.tcp.acceptedBy op
        delivered := l.delivered ++ s.tcp.deliveredBy op } := by
    rw [Ledger.step, h.conn_eq, hop]
    rfl
  refine ⟨_, hstep, ⟨?_, ?_, hheard, hsends⟩, rfl, h.sound.step hstep⟩
  · rw [h.accepted, haccepted]
  · rw [h.delivered, hdelivered]

/-- An operation that nobody but the connection has to do with. -/
theorem Current.performTcp (h : Current l s) {op : TCPConnection.Op} {tcp : TCPConnection}
    (hop : s.tcp.step op = some tcp) (haccepted : s.tcp.acceptedBy op = [])
    (hdelivered : s.tcp.deliveredBy op = []) (hheard : Ledger.heardBy op = [])
    (hemitted : World.emittedBy s.tcp op = []) : Goes l { s with tcp } := by
  obtain ⟨l', hstep, hcurrent⟩ := h.perform op { s with tcp } hop
    (by rw [haccepted, List.append_nil]) (by rw [hdelivered, List.append_nil])
    (by rw [hheard, List.append_nil]; exact h.heard)
    (by rw [hemitted, List.append_nil]; exact h.sends)
  exact ⟨l', .of_step hstep, hcurrent⟩

/-- The flags are not among what the ledger is about. -/
theorem Current.setFlags (h : Current l s) (inbound outbound : Bool) :
    Current l { s with inboundShutdown := inbound, outboundShutdown := outbound } :=
  ⟨⟨h.accepted, h.delivered, h.heard, h.sends⟩, h.conn_eq, h.sound⟩

/-- Nor is the descriptor of the owner, apart from what was read and written. -/
theorem Recorded.setThreadData (h : Recorded l s) {fd : FileDescriptor}
    (hreceived : fd.received = s.threadData.received) (hsent : fd.sent = s.threadData.sent) :
    Recorded l { s with threadData := fd } where
  accepted := by rw [h.accepted, hreceived]
  delivered := by rw [h.delivered, hsent]
  heard := h.heard
  sends := h.sends

-- ============================================================================
-- The callbacks
-- ============================================================================

theorem endOutbound_ends (h : Current l s) {E : Thrown → TCPSpongeSocket α → Prop} :
    Ends endOutbound s (fun _ s' =>
      s' = { s with tcp := s.tcp.endInputStream, outboundShutdown := true } ∧ Goes l s') E := by
  have hop : s.tcp.step .endInputStream = some s.tcp.endInputStream := rfl
  obtain ⟨l', hextends, hcurrent⟩ := h.performTcp hop rfl rfl rfl rfl
  unfold endOutbound
  rw [Lib.ends_modify]
  exact ⟨rfl, l', hextends, hcurrent.setFlags _ _⟩

/-- Rule 1: at most one segment is given to the connection, the one in the packet read. -/
theorem receiveDatagram_ends (h : Current l s) :
    Ends receiveDatagram s (fun _ s' => Goes l s' ∧ s'.outboundShutdown = s.outboundShutdown ∧
      (FdAdapter.fd s.datagramAdapter).readCount ≠ (FdAdapter.fd s'.datagramAdapter).readCount)
      (Stops l) := by
  unfold receiveDatagram onAdapter
  simp only [Lib.ends_bind, Lib.ends_onPart]
  refine (Faithful.read_ends h.sends).mono ?_ ?_
  · rintro result a' ⟨hsends, htake⟩
    obtain ⟨packet, htaken, hresult⟩ := htake.taken
    have htaken' : (taken a').filterMap (decode α) =
        (taken s.datagramAdapter).filterMap (decode α) ++ (decode α packet).toList := by
      rw [htaken, List.filterMap_append]
      cases hpacket : decode α packet <;> simp [hpacket]
    have hcurrent : Current l { s with datagramAdapter := a' } := by
      refine ⟨⟨h.accepted, h.delivered, ?_, hsends⟩, h.conn_eq, h.sound⟩
      show l.heard.Sublist ((taken a').filterMap (decode α))
      rw [htaken']
      exact h.heard.trans (List.sublist_append_left ..)
    cases result with
    | none => exact Lib.ends_pure.mpr ⟨hcurrent.goes, rfl, htake.counted⟩
    | some seg =>
        simp only [segmentReceived, Lib.ends_bind, Lib.ends_get]
        cases hsegment : s.tcp.segmentReceived seg with
        | none =>
            rw [Lib.ends_throw]
            exact hcurrent.toRecorded.stops .undefinedBehavior
        | some tcp =>
            rw [Lib.ends_modify]
            refine ⟨?_, rfl, htake.counted⟩
            obtain ⟨l', hstep, hcurrent'⟩ := hcurrent.perform
              (.segmentReceived seg) { s with datagramAdapter := a', tcp } hsegment
              (List.append_nil _).symm (List.append_nil _).symm
              (by
                show (l.heard ++ [seg]).Sublist ((taken a').filterMap (decode α))
                rw [htaken', hresult seg rfl]
                exact h.heard.append (List.Sublist.refl _))
              (by
                show Faithful.Sends (l.net ++ []) a'
                rw [List.append_nil]
                exact hsends)
            exact ⟨l', .of_step hstep, hcurrent'⟩
  · rintro e a' ⟨he, hsends, rest, hrest⟩
    have hheard : l.heard.Sublist ((taken a').filterMap (decode α)) := by
      rw [← hrest, List.filterMap_append]
      exact h.heard.trans (List.sublist_append_left ..)
    have hrecorded : Recorded l { s with datagramAdapter := a' } :=
      ⟨h.accepted, h.delivered, hheard, hsends⟩
    exact hrecorded.stops (.medium he)

/-- Rule 2: all that was read is accepted. -/
theorem readOwner_ends (h : Current l s) :
    Ends readOwner s (fun _ s' => Goes l s' ∧
      (s.outboundShutdown = true → s'.outboundShutdown = true) ∧
      s.threadData.readCount ≠ s'.threadData.readCount) (Stops l) := by
  unfold readOwner onThreadData
  simp only [Lib.ends_bind, Lib.ends_get, Lib.ends_onPart, Lib.ends_modify, Lib.ends_ite,
    Lib.ends_throw, Lib.ends_pure]
  refine (s.threadData.read_ends _).mono ?_ ?_
  · intro data fd hread
    -- no more was asked for than the stream can take
    have hall : (s.tcp.write data).1 = data.length := by
      have hle := hread.length_le
      have hwrite := s.tcp.sender.stream.bytesToWrite_eq data
      show s.tcp.sender.stream.bytesToWrite data = data.length
      unfold TCPConnection.remainingOutboundCapacity ByteStream.remainingCapacity at hle
      unfold ByteStream.bufferSize at hle
      omega
    have hcount : s.threadData.readCount ≠ fd.readCount := by
      rw [show fd.readCount = s.threadData.readCount + 1 from
        congrArg FDWrapper.readCount hread.wrapper]
      grind
    obtain ⟨l', hstep, hcurrent⟩ := h.perform
      (.write data) { s with threadData := fd, tcp := (s.tcp.write data).2 } rfl
      (by
        show fd.received.flatten = _ ++ data.take (s.tcp.write data).1
        rw [hread.received, hall, List.take_length, List.flatten_append, List.flatten_singleton])
      (by
        show fd.sent.flatten = _ ++ []
        rw [hread.sent, List.append_nil])
      (by
        show (l.heard ++ []).Sublist _
        rw [List.append_nil]
        exact h.heard)
      (by
        show Faithful.Sends (l.net ++ []) _
        rw [List.append_nil]
        exact h.sends)
    refine ⟨fun hless => absurd hall hless, fun _ => ⟨fun _ => ?_, fun _ => ?_⟩⟩
    · refine (endOutbound_ends hcurrent).mono ?_ fun _ _ he => he
      rintro _ s' ⟨rfl, hgoes⟩
      exact ⟨hgoes.trans (.of_step hstep), fun _ => rfl, hcount⟩
    · exact ⟨⟨l', .of_step hstep, hcurrent⟩, id, hcount⟩
  · rintro e fd ⟨he, hsame⟩
    exact (h.toRecorded.setThreadData hsame.received hsame.sent).stops (.medium (.kernel he))

/-- Rule 3: what was written is taken out of the stream. -/
theorem writeOwner_ends (h : Current l s) :
    Ends writeOwner s (fun _ s' => Goes l s' ∧ s'.outboundShutdown = s.outboundShutdown ∧
      s.threadData.writeCount ≠ s'.threadData.writeCount) (Stops l) := by
  unfold writeOwner onThreadData
  simp only [Lib.ends_bind, Lib.ends_get, Lib.ends_onPart, Lib.ends_modify, Lib.ends_ite,
    Lib.ends_pure]
  refine (s.threadData.write_ends _ false).mono ?_ ?_
  · rintro n fd ⟨chunks, hwrite, hprogress⟩
    have hcount : fd.writeCount = s.threadData.writeCount + 1 := by
      rw [hwrite.wrapper, hprogress.one rfl]
      rfl
    obtain ⟨hchunks, hle⟩ := hprogress.of_take
    have hdelivered : chunks.flatten = s.tcp.deliveredBy (.popOutput n) := by
      show _ = s.tcp.inboundStream.buffer.take (s.tcp.inboundStream.bytesToRead n)
      rw [hchunks, ByteStream.bytesToRead_eq, Nat.min_eq_left hle]
    obtain ⟨l', hstep, hcurrent⟩ := h.perform
      (.popOutput n)
      { s with threadData := fd, tcp := { s.tcp with receiver := s.tcp.receiver.popOutput n } } rfl
      (by
        show fd.received.flatten = _ ++ []
        rw [hwrite.received, List.append_nil])
      (by
        show fd.sent.flatten = _
        rw [hwrite.sent, List.flatten_append, hdelivered])
      (by
        show (l.heard ++ []).Sublist _
        rw [List.append_nil]
        exact h.heard)
      (by
        show Faithful.Sends (l.net ++ []) _
        rw [List.append_nil]
        exact h.sends)
    refine ⟨fun _ => ?_, fun _ => ⟨⟨l', .of_step hstep, hcurrent⟩, trivial, by rw [hcount]; grind⟩⟩
    refine (fd.shutdownWr_ends).mono ?_ ?_
    · intro _ fd' hshut
      have hrecorded := hcurrent.toRecorded.setThreadData hshut.received hshut.sent
      refine ⟨⟨l', .of_step hstep, ⟨?_, ?_, ?_, ?_⟩, hcurrent.conn_eq, hcurrent.sound⟩, trivial, ?_⟩
      · exact hrecorded.accepted
      · exact hrecorded.delivered
      · exact hrecorded.heard
      · exact hrecorded.sends
      · show _ ≠ fd'.writeCount
        rw [show fd'.writeCount = fd.writeCount + 1 from congrArg FDWrapper.writeCount hshut.wrapper,
          hcount]
        grind
    · rintro e fd' ⟨he, hsame⟩
      have hrecorded := hcurrent.toRecorded.setThreadData hsame.received hsame.sent
      exact (hrecorded.stops (.medium (.kernel he))).trans (.of_step hstep)
  · rintro e fd ⟨he, chunks, hwrite, hfailed⟩
    have hnone := hfailed.none rfl
    have hsent : fd.sent = s.threadData.sent := by rw [hwrite.sent, hnone, List.append_nil]
    exact (h.toRecorded.setThreadData hwrite.received hsent).stops (.medium (.kernel he))

/-- Rule 4: the queue is sent. -/
theorem sendDatagrams_ends {segs : List TCPSegment} (h : Current l s)
    (hsegs : s.tcp.segmentsOut = segs) :
    Ends (sendDatagrams segs) s (fun _ s' => Goes l s' ∧
      s'.outboundShutdown = s.outboundShutdown ∧ s'.tcp.segmentsOut = []) (Stops l) := by
  induction segs generalizing l s with
  | nil =>
      rw [sendDatagrams, Lib.ends_pure]
      exact ⟨h.goes, rfl, hsegs⟩
  | cons seg segs ih =>
      have hplain : seg.Plain := h.sound.queue seg (by rw [h.conn_eq, hsegs]; exact List.mem_cons_self ..)
      have hstep : s.tcp.step .dequeue = some { s.tcp with segmentsOut := segs } := by
        rw [TCPConnection.step, hsegs]
      have hemitted : World.emittedBy s.tcp .dequeue = [seg] := by
        rw [World.emittedBy, hsegs]
        rfl
      have hnext : ∀ a' : α, Faithful.Sends (l.net ++ [seg]) a' → taken a' = taken s.datagramAdapter →
          ∃ l', l.step .dequeue = some l' ∧ Current l' { s with
            datagramAdapter := a', tcp := { s.tcp with segmentsOut := segs } } := by
        intro a' hsends htaken
        refine h.perform .dequeue _ hstep (List.append_nil _).symm (List.append_nil _).symm ?_ ?_
        · show (l.heard ++ []).Sublist ((taken a').filterMap (decode α))
          rw [List.append_nil, htaken]
          exact h.heard
        · rw [hemitted]
          exact hsends
      rw [sendDatagrams, onAdapter]
      simp only [Lib.ends_bind, Lib.ends_onPart, Lib.ends_modify]
      refine (Faithful.write_ends hplain h.sends).mono ?_ ?_
      · rintro _ a' ⟨hsends, htaken⟩
        obtain ⟨l', hl', hcurrent⟩ := hnext a' hsends htaken
        refine (ih hcurrent rfl).mono ?_ fun _ _ he => he.trans (.of_step hl')
        rintro _ s' ⟨hgoes, hflag, hempty⟩
        exact ⟨hgoes.trans (.of_step hl'), hflag, hempty⟩
      · rintro e a' ⟨he, hsends, htaken⟩
        -- the segment may be on the medium, though it is still in the queue
        obtain ⟨l', hl', hcurrent⟩ := hnext a' hsends htaken
        exact ⟨.medium he, l', .of_step hl', hcurrent.accepted, hcurrent.delivered, hcurrent.heard,
          hcurrent.sends⟩

theorem writeDatagrams_ends (h : Current l s) :
    Ends writeDatagrams s (fun _ s' => Goes l s' ∧
      s'.outboundShutdown = s.outboundShutdown ∧ s'.tcp.segmentsOut = []) (Stops l) := by
  unfold writeDatagrams
  simp only [Lib.ends_bind, Lib.ends_get]
  exact sendDatagrams_ends h rfl

-- ============================================================================
-- The event loop
-- ============================================================================

/-- The place of a rule. -/
def RuleName.idx : RuleName → Nat
  | .datagramIn => 0
  | .ownerIn => 1
  | .ownerOut => 2
  | .datagramOut => 3

theorem ruleNames_sorted : ruleNames.Pairwise (·.idx < ·.idx) := by decide

/-- The rules that are left, and where the socket is. -/
structure Inv (l : Ledger) (rules : List (Rule (TCPSpongeSocket α))) (s : TCPSpongeSocket α)
    (names : List RuleName) : Prop where
  sub : names.Sublist ruleNames
  rules_eq : rules = names.map rule
  goes : Goes l s
  /-- Rule 2 is not given up before the outbound stream has ended. -/
  ended : RuleName.ownerIn ∉ names → s.outboundShutdown = true

/-- What is known of a rule that was asked: if it has said no, it is not interested. -/
def Asked (events : Bool) (r : Rule (TCPSpongeSocket α)) (s : TCPSpongeSocket α) : Prop :=
  events = false → r.interest s = false

theorem Inv.split {front rest : List (Rule (TCPSpongeSocket α))} {r : Rule (TCPSpongeSocket α)}
    {names : List RuleName} (h : Inv l (front ++ r :: rest) s names) :
    ∃ before k after, names = before ++ k :: after ∧ front = before.map rule ∧ r = rule k ∧
      rest = after.map rule := by
  obtain ⟨before, later, rfl, hbefore, hlater⟩ := List.map_eq_append_iff.mp h.rules_eq.symm
  obtain ⟨k, after, rfl, hk, hafter⟩ := List.map_eq_cons_iff.mp hlater
  exact ⟨before, k, after, rfl, hbefore.symm, hk.symm, hafter.symm⟩

/-- Only rule 1 comes before rule 2. -/
theorem eq_datagramIn_of_mem {before after : List RuleName}
    (hsub : (before ++ .ownerIn :: after).Sublist ruleNames) {k : RuleName} (hk : k ∈ before) :
    k = .datagramIn := by
  have hsorted := ruleNames_sorted.sublist hsub
  have hlt : k.idx < 1 := (List.pairwise_append.mp hsorted).2.2 k hk .ownerIn (by simp)
  cases k with
  | datagramIn => rfl
  | ownerIn | ownerOut | datagramOut => exact absurd hlt (by decide)

theorem rule_cancel_ends {front rest : List (Rule (TCPSpongeSocket α))}
    {r : Rule (TCPSpongeSocket α)} (h : ∃ names, Inv l (front ++ r :: rest) s names) :
    Ends r.cancel s (fun _ s' => (∃ names, Inv l (front ++ rest) s' names) ∧
      (∀ other ∈ front, ∀ events, Asked events other s → Asked events other s') ∧
      ∀ other ∈ rest, Asked true other s → Asked true other s') (Stops l) := by
  obtain ⟨names, h⟩ := h
  obtain ⟨before, k, after, rfl, rfl, rfl, rfl⟩ := h.split
  have hsub : (before ++ after).Sublist ruleNames :=
    ((List.sublist_cons_self ..).append_left before).trans h.sub
  have hrest : ∀ s' : TCPSpongeSocket α, ∀ other ∈ after.map rule, Asked true other s →
      Asked true other s' := fun _ _ _ _ hfalse => by cases hfalse
  by_cases hk : k = .ownerIn
  · subst hk
    obtain ⟨l', hextends, hcurrent⟩ := h.goes
    refine (endOutbound_ends hcurrent).mono ?_ fun _ _ he => he
    rintro _ s' ⟨rfl, hgoes⟩
    refine ⟨⟨_, hsub, by rw [List.map_append], hgoes.trans hextends, fun _ => rfl⟩, ?_, hrest _⟩
    -- the end of the outbound stream leaves the connection as active as it was
    intro other hother events hasked hfalse
    obtain ⟨j, hj, rfl⟩ := List.mem_map.mp hother
    obtain rfl := eq_datagramIn_of_mem h.sub hj
    exact hasked hfalse
  · have hcancel : (rule k : Rule (TCPSpongeSocket α)).cancel = pure () := by
      cases k with
      | ownerIn => exact absurd rfl hk
      | datagramIn | ownerOut | datagramOut => rfl
    rw [hcancel, Lib.ends_pure]
    refine ⟨⟨_, hsub, by rw [List.map_append], h.goes, fun hnot => h.ended fun hmem => hnot ?_⟩,
      fun _ _ _ hasked => hasked, hrest _⟩
    rcases List.mem_append.mp hmem with hmem | hmem
    · exact List.mem_append_left _ hmem
    · rcases List.mem_cons.mp hmem with rfl | hmem
      · exact absurd rfl hk
      · exact List.mem_append_right _ hmem

/-- Every callback moves the counter of its descriptor or has nothing more to do. -/
theorem rule_callback_ends (k : RuleName) (h : Current l s) :
    Ends (rule k).callback s (fun _ s' => Goes l s' ∧
      (s.outboundShutdown = true → s'.outboundShutdown = true) ∧
      EventLoop.Moves (rule k) s s') (Stops l) := by
  cases k with
  | datagramIn =>
      refine (receiveDatagram_ends h).mono ?_ fun _ _ he => he
      rintro _ s' ⟨hgoes, hflag, hcount⟩
      exact ⟨hgoes, fun ht => hflag.trans ht, Or.inl hcount⟩
  | ownerIn =>
      refine (readOwner_ends h).mono ?_ fun _ _ he => he
      rintro _ s' ⟨hgoes, hflag, hcount⟩
      exact ⟨hgoes, hflag, Or.inl hcount⟩
  | ownerOut =>
      refine (writeOwner_ends h).mono ?_ fun _ _ he => he
      rintro _ s' ⟨hgoes, hflag, hcount⟩
      exact ⟨hgoes, fun ht => hflag.trans ht, Or.inl hcount⟩
  | datagramOut =>
      refine (writeDatagrams_ends h).mono ?_ fun _ _ he => he
      rintro _ s' ⟨hgoes, hflag, hempty⟩
      refine ⟨hgoes, fun ht => hflag.trans ht, Or.inr ?_⟩
      show (!s'.tcp.segmentsOut.isEmpty) = false
      rw [hempty]
      rfl

theorem keeps (l : Ledger) :
    Keeps (fun rules (s : TCPSpongeSocket α) => ∃ names, Inv l rules s names) Asked (Stops l) where
  asked := fun _ _ _ hinterest => hinterest
  cancel := rule_cancel_ends
  callback := by
    rintro front r rest s ⟨names, h⟩ -
    obtain ⟨before, k, after, rfl, rfl, rfl, rfl⟩ := h.split
    obtain ⟨l', hextends, hcurrent⟩ := h.goes
    refine (rule_callback_ends k hcurrent).mono ?_ fun _ _ he => he.trans hextends
    rintro _ s' ⟨hgoes, hflag, hmoves⟩
    refine ⟨⟨_, h.sub, h.rules_eq, hgoes.trans hextends, fun hnot => hflag (h.ended hnot)⟩, ?_,
      Or.inl hmoves⟩
    intro other _ _ hfalse
    cases hfalse
  pollError := by
    rintro rules s ⟨names, h⟩
    obtain ⟨l', hextends, hcurrent⟩ := h.goes
    exact (hcurrent.toRecorded.stops .polled).trans hextends

-- ============================================================================
-- The thread
-- ============================================================================

/-- A round that ends the loop by itself has found no rule interested. -/
theorem loopRound_ends (r : Round) {rules : List (Rule (TCPSpongeSocket α))}
    (h : ∃ names, Inv l rules s names) :
    Ends (loopRound r rules) s
      (fun result s' => (∃ names, Inv l result.2 s' names) ∧
        (result.1 = false → r.abort = false → r.answer ≠ .error eintr →
          ∀ other ∈ result.2, other.interest s' = false)) (Stops l) := by
  unfold loopRound onAdapter
  simp only [Lib.ends_bind, Lib.ends_ite, Lib.ends_pure, Lib.ends_get, Lib.ends_modify,
    Lib.ends_onPart]
  refine ((keeps l).waitNextEvent r.answer h).mono ?_ fun _ _ he => he
  rintro ret s₁ ⟨⟨names, hinv⟩, hexit⟩
  refine ⟨fun hends => ⟨⟨names, hinv⟩, fun _ habort hanswer other hother => ?_⟩, fun _ => ?_⟩
  · rcases hends with hret | habort'
    · exact hexit hret hanswer other hother rfl
    · rw [habort] at habort'
      cases habort'
  · have hgoesOn : ∀ s₂, Inv l ret.2 s₂ names → (∃ names, Inv l ret.2 s₂ names) ∧
        (true = false → r.abort = false → r.answer ≠ .error eintr →
          ∀ other ∈ ret.2, other.interest s₂ = false) :=
      fun s₂ h => ⟨⟨names, h⟩, fun hfalse => by cases hfalse⟩
    refine ⟨fun _ => ?_, fun _ => hgoesOn s₁ hinv⟩
    obtain ⟨l₁, hl₁, hcurrent⟩ := hinv.goes
    have hop : s₁.tcp.step (.tick r.ms) = some (s₁.tcp.tick r.ms) := rfl
    obtain ⟨l₂, hl₂, hcurrent₂⟩ := hcurrent.performTcp hop rfl rfl rfl rfl
    refine (Faithful.tick_ends r.ms hcurrent₂.sends).mono ?_ ?_
    · rintro _ a' ⟨hsends, htaken⟩
      refine hgoesOn _ ⟨hinv.sub, hinv.rules_eq, ⟨l₂, hl₁.trans hl₂, ?_⟩, hinv.ended⟩
      have hheard := hcurrent₂.heard
      exact ⟨⟨hcurrent₂.accepted, hcurrent₂.delivered, by rwa [← htaken] at hheard, hsends⟩,
        hcurrent₂.conn_eq, hcurrent₂.sound⟩
    · rintro e a' ⟨he, hsends, htaken⟩
      have hheard := hcurrent₂.heard
      exact ⟨.medium he, l₂, hl₁.trans hl₂, hcurrent₂.accepted, hcurrent₂.delivered,
        by rwa [← htaken] at hheard, hsends⟩

namespace Execution

/-- The ledger accounts for the execution. -/
structure Accounts (l : Ledger) (x : Execution α) : Prop where
  failed : ∀ e, x.stage = .failed e → Stops l e x.socket
  alive : (∀ e, x.stage ≠ .failed e) → ∃ names, Inv l x.rules x.socket names

theorem accounts_of_alive {x : Execution α} (h : ∃ names, Inv l x.rules x.socket names)
    (hstage : ∀ e, x.stage ≠ .failed e) : x.Accounts l :=
  ⟨fun e he => absurd he (hstage e), fun _ => h⟩

theorem round_accounts {x : Execution α} (h : ∃ names, Inv l x.rules x.socket names)
    (hstage : ∀ e, x.stage ≠ .failed e) (r : Round) {next : Stage} (hnext : ∀ e, next ≠ .failed e) :
    (x.round r next).Accounts l := by
  have hends := loopRound_ends r h
  unfold round
  cases hround : loopRound r x.rules x.socket with
  | ok result s' =>
      obtain ⟨goesOn, rules⟩ := result
      have hinv := (hends.of_ok hround).1
      cases goesOn with
      | true => exact accounts_of_alive hinv hstage
      | false => exact accounts_of_alive hinv hnext
  | error e s' =>
      have hstops := hends.of_error hround
      refine ⟨fun e' he' => ?_, fun halive => absurd rfl (halive e)⟩
      obtain rfl : e = e' := Stage.failed.inj he'
      exact hstops

theorem Accounts.step {x : Execution α} (h : x.Accounts l) (r : Round) : (x.step r).Accounts l := by
  unfold Execution.step
  cases hstage : x.stage with
  | opening o =>
      have halive : ∀ e, x.stage ≠ .failed e := fun e he => by rw [hstage] at he; cases he
      dsimp only
      split
      · exact round_accounts (h.alive halive) halive r fun e he => by cases he
      · exact accounts_of_alive (h.alive halive) fun e he => by cases he
  | running =>
      have halive : ∀ e, x.stage ≠ .failed e := fun e he => by rw [hstage] at he; cases he
      exact round_accounts (h.alive halive) halive r fun e he => by cases he
  | finished => exact h
  | failed e => exact h

/-- The operations so far. -/
theorem Accounts.current {x : Execution α} (h : x.Accounts l) :
    ∃ l', l.Extends l' ∧ Recorded l' x.socket ∧ x.Accounts l' ∧
      ((∀ e, x.stage ≠ .failed e) → Current l' x.socket) := by
  by_cases hstage : ∀ e, x.stage ≠ .failed e
  · obtain ⟨names, hinv⟩ := h.alive hstage
    obtain ⟨l', hextends, hcurrent⟩ := hinv.goes
    exact ⟨l', hextends, hcurrent.toRecorded, accounts_of_alive
      ⟨names, hinv.sub, hinv.rules_eq, hcurrent.goes, hinv.ended⟩ hstage, fun _ => hcurrent⟩
  · push Not at hstage
    obtain ⟨e, he⟩ := hstage
    obtain ⟨hcomplaint, l', hextends, hrecorded⟩ := h.failed e he
    refine ⟨l', hextends, hrecorded, ⟨fun e' he' => ?_, fun halive => absurd he (halive e)⟩,
      fun halive => absurd he (halive e)⟩
    obtain rfl : e = e' := Stage.failed.inj (he.symm.trans he')
    exact hrecorded.stops hcomplaint

end Execution

/-- The socket is opened one way or the other, up to the loop that waits for the peer. -/
def Opening.start (o : Opening) (endNode : List ByteString → Nat) (cTcp : TCPConfig)
    (isn : WrappingInt32) (cAd : FdAdapterConfig) (adapter : α) (threadData : FileDescriptor) :
    Except Thrown (Execution α) :=
  match o with
  | .connect => TCPSpongeSocket.connect endNode cTcp isn cAd adapter threadData
  | .listenAndAccept => .ok (TCPSpongeSocket.listenAndAccept endNode cTcp isn cAd adapter threadData)

/-- After `TCPConnection::connect()` the state is what `connect()` expects. -/
theorem state_connect (endNode : List ByteString → Nat) (cfg : TCPConfig) (isn : WrappingInt32) :
    (TCPConnection.new endNode cfg isn).connect.state = .ofState .synSent := rfl

theorem connect_eq (endNode : List ByteString → Nat) (cTcp : TCPConfig) (isn : WrappingInt32)
    (cAd : FdAdapterConfig) (adapter : α) (threadData : FileDescriptor) :
    TCPSpongeSocket.connect endNode cTcp isn cAd adapter threadData = .ok
      { socket := { initializeTCP endNode cTcp isn cAd adapter threadData with
          tcp := (TCPConnection.new endNode cTcp isn).connect }
        rules := ruleNames.map rule
        stage := .opening .connect } := by
  unfold TCPSpongeSocket.connect
  exact if_neg (not_not.mpr (state_connect endNode cTcp isn))

theorem initializeTCP_current (endNode : List ByteString → Nat) (cTcp : TCPConfig)
    (isn : WrappingInt32) (cAd : FdAdapterConfig) {adapter : α} (hadapter : Faithful.Sends [] adapter)
    (kernel : Kernel) :
    Current { conn := .new endNode cTcp isn }
      (initializeTCP endNode cTcp isn cAd adapter (.new kernel)) where
  accepted := rfl
  delivered := rfl
  heard := List.nil_sublist _
  sends := Faithful.setConfig_sends cAd hadapter
  conn_eq := rfl
  sound := .new endNode cTcp isn

/-- A socket can be opened, and the ledger is that of a new connection. -/
theorem Opening.start_accounts (o : Opening) (endNode : List ByteString → Nat) (cTcp : TCPConfig)
    (isn : WrappingInt32) (cAd : FdAdapterConfig) {adapter : α} (hadapter : Faithful.Sends [] adapter)
    (kernel : Kernel) :
    ∃ x, o.start endNode cTcp isn cAd adapter (.new kernel) = .ok x ∧
      x.Accounts { conn := .new endNode cTcp isn } := by
  have hcurrent := initializeTCP_current endNode cTcp isn cAd hadapter kernel
  have hinv : ∀ {s : TCPSpongeSocket α}, Goes { conn := .new endNode cTcp isn } s →
      ∃ names, Inv { conn := .new endNode cTcp isn } (ruleNames.map rule) s names :=
    fun hgoes => ⟨ruleNames, .refl _, rfl, hgoes, fun hnot => absurd (by decide) hnot⟩
  cases o with
  | connect =>
      have hop : (initializeTCP endNode cTcp isn cAd adapter (.new kernel)).tcp.step .connect =
          some (TCPConnection.new endNode cTcp isn).connect := rfl
      refine ⟨_, connect_eq endNode cTcp isn cAd adapter _, ?_⟩
      exact Execution.accounts_of_alive (hinv (hcurrent.performTcp hop rfl rfl rfl rfl))
        fun e he => by cases he
  | listenAndAccept =>
      refine ⟨_, rfl, Execution.accounts_of_alive (hinv (Current.goes ?_)) fun e he => by cases he⟩
      exact ⟨⟨rfl, rfl, List.nil_sublist _, Faithful.setListening_sends true hcurrent.sends⟩, rfl,
        hcurrent.sound⟩

-- ============================================================================
-- Results
-- ============================================================================

/-- What the thread of a socket has done, by the operations of its connection. -/
structure Refines (c : TCPConnection) (x : Execution α) (l : Ledger) : Prop where
  /-- The operations start from the connection. -/
  operations : Ledger.Extends { conn := c } l
  /-- What the owner has written is what the connection has accepted, what the owner can
      read is what was taken from its inbound stream, the connection was given segments
      from the packets in their order, and no packet carries a segment that the connection
      has not sent. -/
  recorded : Recorded l x.socket
  /-- Until an exception the connection is where the operations lead. -/
  tcp_eq : (∀ e, x.stage ≠ .failed e) → x.socket.tcp = l.conn
  /-- An exception is a complaint about the surroundings or the segment. -/
  complains : ∀ e, x.stage = .failed e → Complaint e

/-- **The thread refines the connection.**  A socket can be opened, and whatever its owner,
    its medium and the kernel do, every round of its loops is a sequence of operations of
    its connection; the loops do not wait busily, and the connection takes all that it was
    said to take. -/
theorem thread_refines (o : Opening) (endNode : List ByteString → Nat) (cTcp : TCPConfig)
    (isn : WrappingInt32) (cAd : FdAdapterConfig) (adapter : α) (kernel : Kernel)
    (hadapter : Faithful.Sends [] adapter) (rounds : List Round) :
    ∃ x l, o.start endNode cTcp isn cAd adapter (.new kernel) = .ok x ∧
      Refines (.new endNode cTcp isn) (rounds.foldl Execution.step x) l := by
  obtain ⟨x, hx, haccounts⟩ := o.start_accounts endNode cTcp isn cAd hadapter kernel
  have hrun : (rounds.foldl Execution.step x).Accounts { conn := .new endNode cTcp isn } :=
    List.foldlRecOn rounds Execution.step haccounts fun _ h r _ => h.step r
  obtain ⟨l, hextends, hrecorded, haccounts', hcurrent⟩ := hrun.current
  exact ⟨x, l, hx, hextends, hrecorded, fun halive => (hcurrent halive).conn_eq.symm,
    fun e he => (haccounts'.failed e he).1⟩

/-- A UDP socket on which nothing comes in and everything goes out. -/
def quietUdp : TCPOverUDPSocketAdapter where
  sock := { recvs := fun _ => .error 11, sends := fun _ size => .ok size }

theorem quietUdp_sends : Faithful.Sends [] quietUdp := by
  refine ⟨fun i size n hn => ?_, Carried.nil⟩
  exact (Except.ok.inj hn).symm

/-- The owner has written two bytes and no more. -/
def twoBytesThenEof : Kernel where
  reads := fun | 0 => .ok [104, 105] | _ => .ok []
  writes := fun _ size => .ok size
  controls := fun _ => .ok ()

/-- The SYN is sent and the bytes are taken in, while nothing is heard from the peer. -/
theorem thread_refines_unanswered :
    ∃ x l, Opening.start .connect List.length {} ⟨7⟩ {} quietUdp (.new twoBytesThenEof) = .ok x ∧
      Refines (.new List.length {} ⟨7⟩)
        ([⟨.ok [{}, { pollIn := true }, {}, { pollOut := true }], false, 10⟩].foldl
          Execution.step x) l :=
  thread_refines .connect List.length {} ⟨7⟩ {} quietUdp twoBytesThenEof quietUdp_sends _

/-- What is left when the thread ends: each of the rules `names` that have not been
    cancelled has nothing to do. -/
structure Settled (x : Execution α) (names : List RuleName) : Prop where
  sub : names.Sublist ruleNames
  rules_eq : x.rules = names.map rule
  /-- The connection is not active any more, if rule 1 is left. -/
  inactive : RuleName.datagramIn ∈ names → x.socket.tcp.active = false
  /-- The outbound stream has ended, or nothing can be written to it, if rule 2 is left. -/
  outbound : RuleName.ownerIn ∈ names → x.socket.tcp.active = true →
    x.socket.outboundShutdown = true ∨ x.socket.tcp.remainingOutboundCapacity = 0
  /-- The cancellation of rule 2 has ended the outbound stream. -/
  ended : RuleName.ownerIn ∉ names → x.socket.outboundShutdown = true
  /-- The owner has been given everything, and told that there is no more, if rule 3 is
      left. -/
  inbound : RuleName.ownerOut ∈ names → x.socket.tcp.inboundStream.buffer = [] ∧
    (x.socket.tcp.inboundStream.inputEnded = true ∨ x.socket.tcp.inboundStream.error = true →
      x.socket.inboundShutdown = true)
  /-- Every segment has been sent, if rule 4 is left. -/
  flushed : RuleName.datagramOut ∈ names → x.socket.tcp.segmentsOut = []

theorem settled_of_idle {x : Execution α} {names : List RuleName}
    (h : Inv l x.rules x.socket names) (hidle : ∀ other ∈ x.rules, other.interest x.socket = false) :
    Settled x names := by
  have hrule : ∀ k ∈ names, (rule k).interest x.socket = false := fun k hk =>
    hidle _ (by rw [h.rules_eq]; exact List.mem_map_of_mem hk)
  refine ⟨h.sub, h.rules_eq, hrule .datagramIn, fun hk hactive => ?_, h.ended, fun hk => ?_,
    fun hk => ?_⟩
  · have hinterest := hrule _ hk
    simp only [rule, hactive, Bool.true_and, Bool.and_eq_false_iff, Bool.not_eq_eq_eq_not,
      Bool.not_false, decide_eq_false_iff_not] at hinterest
    exact hinterest.imp id fun hle => by omega
  · have hinterest := hrule _ hk
    simp only [rule, Bool.or_eq_false_iff, Bool.not_eq_eq_eq_not, Bool.not_false,
      Bool.and_eq_false_iff] at hinterest
    have hempty := (ByteStream.bufferEmpty_iff _).mp hinterest.1
    refine ⟨hempty, fun hend => hinterest.2.resolve_left fun hnot => ?_⟩
    rcases hend with hend | hend
    · have heof := (ByteStream.eof_iff _).mpr ⟨hend, hempty⟩
      rw [heof] at hnot
      cases hnot.1
    · rw [hend] at hnot
      cases hnot.2
  · have hinterest := hrule _ hk
    simpa [rule] using hinterest

/-- **A thread that ends by itself has settled its business.**  If the loop of the thread
    ends and neither an abort nor a signal has ended it, then whatever has happened before,
    each rule was cancelled or has nothing to do. -/
theorem finished_settled (o : Opening) (endNode : List ByteString → Nat) (cTcp : TCPConfig)
    (isn : WrappingInt32) (cAd : FdAdapterConfig) (adapter : α) (kernel : Kernel)
    (hadapter : Faithful.Sends [] adapter) (rounds : List Round) (r : Round)
    (habort : r.abort = false) (hanswer : r.answer ≠ .error eintr) :
    ∃ x, o.start endNode cTcp isn cAd adapter (.new kernel) = .ok x ∧
      ((rounds.foldl Execution.step x).stage = .running →
        ((rounds.foldl Execution.step x).step r).stage = .finished →
        ∃ names, Settled ((rounds.foldl Execution.step x).step r) names) := by
  obtain ⟨x, hx, haccounts⟩ := o.start_accounts endNode cTcp isn cAd hadapter kernel
  refine ⟨x, hx, fun hrunning hfinished => ?_⟩
  have hrun : (rounds.foldl Execution.step x).Accounts { conn := .new endNode cTcp isn } :=
    List.foldlRecOn rounds Execution.step haccounts fun _ h r _ => h.step r
  generalize rounds.foldl Execution.step x = y at hrun hrunning hfinished ⊢
  have hinv := hrun.alive fun e he => by rw [hrunning] at he; cases he
  have hends := loopRound_ends r hinv
  simp only [Execution.step, hrunning, Execution.round] at hfinished ⊢
  cases hround : loopRound r y.rules y.socket with
  | error e s' =>
      rw [hround] at hfinished
      cases hfinished
  | ok result s' =>
      obtain ⟨goesOn, rules⟩ := result
      rw [hround] at hfinished
      cases goesOn with
      | true => cases hfinished
      | false =>
          obtain ⟨⟨names, hnames⟩, hidle⟩ := hends.of_ok hround
          exact ⟨names, settled_of_idle hnames (hidle rfl habort hanswer)⟩

/-- The peer answers the SYN with a RST. -/
def resetting : TCPOverUDPSocketAdapter :=
  { quietUdp with
    sock := { quietUdp.sock with
      recvs := fun _ => .ok ({}, (quietUdp.onWire { header := { rst := true } }).wire) } }

/-- The RST comes in, and the owner is told that there is nothing to read. -/
def resetRounds : List Round :=
  [⟨.ok [{ pollIn := true }, {}, {}, { pollOut := true }], false, 0⟩, ⟨.ok [], false, 0⟩,
    ⟨.ok [{}, {}, { pollOut := true }], false, 0⟩]

/-- The thread then ends by itself. -/
theorem finished_settled_reset :
    ∃ x, Opening.start .connect List.length {} ⟨7⟩ {} resetting (.new twoBytesThenEof) = .ok x ∧
      ∃ names, Settled ((resetRounds.foldl Execution.step x).step ⟨.ok [], false, 0⟩) names := by
  have hsends : Faithful.Sends [] resetting := quietUdp_sends
  obtain ⟨x, hx, hsettled⟩ := finished_settled .connect List.length {} ⟨7⟩ {} resetting
    twoBytesThenEof hsends resetRounds ⟨.ok [], false, 0⟩ rfl (by decide)
  obtain rfl := Except.ok.inj ((connect_eq List.length {} ⟨7⟩ {} resetting _).symm.trans hx)
  exact ⟨_, hx, hsettled (by decide +kernel) (by decide +kernel)⟩

end TCPSpongeSocket

end Sponge
