/-
  Sponge.SpongeSocket.Pair

  Two sockets that talk to each other over a medium that drops, duplicates, delays and
  reorders packets.

  A packet that a socket reads was put on the medium by the other one, or carries no
  segment.  Each socket refines its connection (`Accounts`), so the two of them are a run of
  the `World` of their connections, and what holds there holds for the owners: what an
  owner can read is the front of what the other one has written (`owner_prefix`).
-/

import Sponge.SpongeSocket.Refinement

namespace Sponge

open Lib (Ends Run Guarded)

/-- One of the two sockets makes a round. -/
structure PairRound where
  side : Side
  round : TCPSpongeSocket.Round

/-- The two sockets. -/
abbrev SocketPair (α : Type) := Side → TCPSpongeSocket.Execution α

namespace SocketPair

open TCPSpongeSocket

variable {α : Type} [Faithful α]

def step (S : SocketPair α) (e : PairRound) : SocketPair α :=
  Function.update S e.side ((S e.side).step e.round)

/-- What the socket has read and written so far. -/
def adapter (S : SocketPair α) (x : Side) : α := (S x).socket.datagramAdapter

/-- What the socket has read after its round was put on the medium by the other one, or
    carries no segment. -/
def Delivers (S : SocketPair α) (e : PairRound) : Prop :=
  ∀ packet ∈ taken ((S.step e).adapter e.side),
    packet ∈ put (S.adapter e.side.other) ∨ decode α packet = none

instance (S : SocketPair α) (e : PairRound) : Decidable (S.Delivers e) :=
  inferInstanceAs (Decidable (∀ packet ∈ _, _ ∨ _))

/-- A round of one socket whose packets come from the other one. -/
def Step : SocketPair α → PairRound → SocketPair α → Prop :=
  Guarded Delivers fun S e => some (S.step e)

/-- The bytes that the owner has written. -/
def written (S : SocketPair α) (x : Side) : List UInt8 := (S x).socket.threadData.received.flatten

/-- The bytes that the owner has been given to read. -/
def readable (S : SocketPair α) (x : Side) : List UInt8 := (S x).socket.threadData.sent.flatten

-- ============================================================================
-- The world of the two connections
-- ============================================================================

/-- The sockets are accounted for by the two sides of a world that is reached from `w₀`. -/
structure Accounted (w₀ : World) (S : SocketPair α) (L : Side → Ledger) : Prop where
  run : ∃ es, Run (Guarded World.FromNetwork World.step) w₀ es (World.ofLedgers L)
  accounts : ∀ x, (S x).Accounts (L x)
  recorded : ∀ x, Recorded (L x) (S x).socket
  sound : ∀ x, (L x).Sound

/-- What one socket hears was sent by the other one. -/
theorem Accounted.heard {w₀ : World} {S : SocketPair α} {L : Side → Ledger}
    (h : Accounted w₀ S L) {e : PairRound} (hdelivers : S.Delivers e) {l' : Ledger}
    (hl' : Recorded l' (S.step e e.side).socket) :
    ∀ seg ∈ l'.heard, ∃ sent ∈ (L e.side.other).net, seg.Agrees sent := by
  intro seg hseg
  obtain ⟨packet, hpacket, hdecode⟩ := List.mem_filterMap.mp (hl'.heard.subset hseg)
  rcases hdelivers packet hpacket with hput | hnone
  · exact Faithful.carried (h.recorded e.side.other).sends packet hput seg hdecode
  · rw [hnone] at hdecode
    cases hdecode

theorem Accounted.step {w₀ : World} {S : SocketPair α} {L : Side → Ledger}
    (h : Accounted w₀ S L) {e : PairRound} (hdelivers : S.Delivers e) :
    ∃ L', Accounted w₀ (S.step e) L' := by
  have hself : S.step e e.side = (S e.side).step e.round := Function.update_self ..
  have haccounts : (S.step e e.side).Accounts (L e.side) := hself ▸ (h.accounts e.side).step e.round
  obtain ⟨l', hextends, hrecorded, haccounts', -⟩ := haccounts.current
  obtain ⟨es, hes⟩ := h.run
  obtain ⟨es', hes'⟩ := World.ofLedgers_run hextends (h.heard hdelivers hrecorded)
  have hsound : l'.Sound := hextends.invariant (h.sound e.side) fun _ _ _ hm hs => hm.step hs
  refine ⟨Function.update L e.side l', ⟨es ++ es', hes.append hes'⟩, ?_, ?_, ?_⟩
  · intro x
    by_cases hx : x = e.side
    · subst hx
      rwa [Function.update_self]
    · rw [Function.update_of_ne hx, SocketPair.step, Function.update_of_ne hx]
      exact h.accounts x
  · intro x
    by_cases hx : x = e.side
    · subst hx
      rwa [Function.update_self]
    · rw [Function.update_of_ne hx, SocketPair.step, Function.update_of_ne hx]
      exact h.recorded x
  · intro x
    by_cases hx : x = e.side
    · subst hx
      rwa [Function.update_self]
    · rw [Function.update_of_ne hx]
      exact h.sound x

section Owners

variable (o : Side → Opening) (endNode : Side → List ByteString → Nat) (cTcp : Side → TCPConfig)
  (isn : Side → WrappingInt32) (cAd : Side → FdAdapterConfig) (adapters : Side → α)
  (kernel : Side → Kernel)

/-- The two sockets have been opened, on adapters that have read and sent nothing. -/
structure Opened (S : SocketPair α) : Prop where
  sends : ∀ x, Faithful.Sends [] (adapters x)
  taken : ∀ x, taken (adapters x) = []
  start : ∀ x, (o x).start (endNode x) (cTcp x) (isn x) (cAd x) (adapters x) (.new (kernel x)) =
    .ok (S x)

variable {o endNode cTcp isn cAd adapters kernel}

/-- Opening a socket reads nothing. -/
theorem Opened.taken_eq {S : SocketPair α} (h : Opened o endNode cTcp isn cAd adapters kernel S)
    (x : Side) : Medium.taken (S x).socket.datagramAdapter = [] := by
  have hstart := h.start x
  cases ho : o x with
  | connect =>
      rw [ho, Opening.start, connect_eq] at hstart
      rw [← Except.ok.inj hstart]
      exact (Faithful.setConfig_taken _ _).trans (h.taken x)
  | listenAndAccept =>
      rw [ho, Opening.start] at hstart
      rw [← Except.ok.inj hstart]
      exact (Faithful.setListening_taken _ _).trans
        ((Faithful.setConfig_taken _ _).trans (h.taken x))

/-- The ledger of a socket that was just opened. -/
theorem Opened.ledger {S : SocketPair α} (h : Opened o endNode cTcp isn cAd adapters kernel S)
    (x : Side) :
    ∃ l, Ledger.Extends { conn := .new (endNode x) (cTcp x) (isn x) } l ∧ l.heard = [] ∧
      Recorded l (S x).socket ∧ (S x).Accounts l := by
  obtain ⟨y, hy, haccounts⟩ :=
    (o x).start_accounts (endNode x) (cTcp x) (isn x) (cAd x) (h.sends x) (kernel x)
  obtain rfl := Except.ok.inj (hy.symm.trans (h.start x))
  obtain ⟨l, hextends, hrecorded, haccounts', -⟩ := haccounts.current
  have hheard := hrecorded.heard
  rw [h.taken_eq x] at hheard
  exact ⟨l, hextends, List.sublist_nil.mp hheard, hrecorded, haccounts'⟩

theorem Opened.accounted {S : SocketPair α} (h : Opened o endNode cTcp isn cAd adapters kernel S) :
    ∃ L, Accounted (.new endNode cTcp isn) S L := by
  choose L hextends hheard hrecorded haccounts using h.ledger
  refine ⟨L, ?_, haccounts, hrecorded, fun x => (hextends x).invariant (.new ..) fun _ _ _ hm hs =>
    hm.step hs⟩
  -- one side after the other
  let L₀ : Side → Ledger := fun x => { conn := .new (endNode x) (cTcp x) (isn x) }
  obtain ⟨es, hes⟩ := World.ofLedgers_run (L := L₀) (hextends .a) (by simp [hheard])
  have hb : (Function.update L₀ .a (L .a) .b).Extends (L .b) := hextends .b
  obtain ⟨es', hes'⟩ := World.ofLedgers_run hb (by simp [hheard])
  have hL : Function.update (Function.update L₀ .a (L .a)) .b (L .b) = L := by
    funext x
    cases x <;> rfl
  rw [hL] at hes'
  exact ⟨es ++ es', hes.append hes'⟩

/-- Every run of the two sockets is a run of the world of their connections. -/
theorem accounted_run {S S' : SocketPair α} {es : List PairRound}
    (hopened : Opened o endNode cTcp isn cAd adapters kernel S) (hrun : Run Step S es S') :
    ∃ L, Accounted (.new endNode cTcp isn) S' L := by
  refine hrun.invariant (I := fun S => ∃ L, Accounted (.new endNode cTcp isn) S L)
    hopened.accounted ?_
  rintro S e S' ⟨L, h⟩ ⟨hdelivers, hstep⟩
  obtain rfl := Option.some.inj hstep
  exact h.step hdelivers

end Owners

/-- **Owner to owner.**  Two sockets on adapters that invent nothing are opened, and the
    medium between them drops, duplicates, delays and reorders.  Then in every state what an
    owner has been given to read is the front of what the other owner has written, also
    when a thread was ended by an exception, as long as neither has written so much that
    the sequence numbers come back. -/
theorem owner_prefix (o : Side → Opening) (endNode : Side → List ByteString → Nat)
    (cTcp : Side → TCPConfig) (isn : Side → WrappingInt32) (cAd : Side → FdAdapterConfig)
    (adapters : Side → α) (kernel : Side → Kernel) {S S' : SocketPair α}
    (hopened : Opened o endNode cTcp isn cAd adapters kernel S) {es : List PairRound}
    (hrun : Run Step S es S') (hbytes : ∀ x, (S'.written x).length + 2 < 2 ^ 31) (x : Side) :
    S'.readable x <+: S'.written x.other := by
  obtain ⟨L, h⟩ := accounted_run hopened hrun
  obtain ⟨es, hworld⟩ := h.run
  have hnext : ∀ y, ((World.ofLedgers L).conn y).sender.nextSeqnoAbsolute < 2 ^ 31 := by
    intro y
    have hle := (h.sound y).nextSeqnoAbsolute_le
    have hlt := hbytes y
    rw [(h.recorded y).accepted] at hle
    exact Nat.lt_of_le_of_lt hle hlt
  obtain ⟨finAt, t, hflow⟩ := World.flow_run hworld hnext x.other
  have hprefix := hflow.isPrefix
  rw [Side.other_other] at hprefix
  have hdelivered : (L x).delivered <+: (L x.other).accepted := (List.prefix_append ..).trans hprefix
  rwa [(h.recorded x).delivered, (h.recorded x.other).accepted] at hdelivered

-- ============================================================================
-- Two bytes over UDP
-- ============================================================================

namespace Hello

def client : Endpoint := ⟨0x0a000001, 1024⟩

def server : Endpoint := ⟨0x0a000002, 80⟩

/-- Side `a` connects to side `b`, which listens. -/
def opening : Side → Opening
  | .a => .connect
  | .b => .listenAndAccept

def cTcp : Side → TCPConfig
  | .a => { fixedIsn := some ⟨7⟩ }
  | .b => { fixedIsn := some ⟨100⟩ }

def cAd : Side → FdAdapterConfig
  | .a => { source := client, destination := server }
  | .b => { source := server }

/-- The payload of a datagram from the client. -/
def fromClient (seg : TCPSegment) : Buffer :=
  ({ quietUdp with config := cAd .a }.onWire seg).wire

/-- The payload of a datagram from the server, which knows the client by now. -/
def fromServer (seg : TCPSegment) : Buffer :=
  ({ quietUdp with config := { source := server, destination := client } }.onWire seg).wire

def syn : TCPSegment := { header := { seqno := ⟨7⟩, syn := true } }

def synAck : TCPSegment :=
  { header := { seqno := ⟨100⟩, ackno := ⟨8⟩, win := 64000, syn := true, ack := true } }

def data : TCPSegment :=
  { header := { seqno := ⟨8⟩, ackno := ⟨101⟩, win := 64000, ack := true }, payload := [104, 105] }

/-- The acknowledgement of the client is lost, and its data comes in twice. -/
def adapters : Side → TCPOverUDPSocketAdapter
  | .a => { sock := { recvs := fun _ => .ok (server, fromServer synAck), sends := fun _ => .ok } }
  | .b =>
      { sock := {
          recvs := fun
            | 0 => .ok (client, fromClient syn)
            | _ => .ok (client, fromClient data)
          sends := fun _ => .ok } }

/-- The owner of the client has written two bytes. -/
def kernel : Side → Kernel
  | .a => twoBytesThenEof
  | .b => { reads := fun _ => .error 11, writes := fun _ => .ok, controls := fun _ => .ok () }

def start : SocketPair TCPOverUDPSocketAdapter
  | .a =>
      { socket := { initializeTCP List.length (cTcp .a) ⟨0⟩ (cAd .a) (adapters .a) (.new (kernel .a)) with
          tcp := (TCPConnection.new List.length (cTcp .a) ⟨0⟩).connect }
        rules := ruleNames.map rule
        stage := .opening .connect }
  | .b => listenAndAccept List.length (cTcp .b) ⟨0⟩ (cAd .b) (adapters .b) (.new (kernel .b))

theorem opened :
    Opened opening (fun _ => List.length) cTcp (fun _ => ⟨0⟩) cAd adapters kernel start := by
  refine ⟨fun x => ?_, fun x => ?_, fun x => ?_⟩
  · cases x <;>
      exact ⟨fun i size n hn => (Except.ok.inj hn).symm, Carried.nil⟩
  · cases x <;> rfl
  · cases x with
    | a => exact connect_eq ..
    | b => rfl

def rounds : List PairRound :=
  [⟨.a, { answer := .ok [{}, {}, {}, { pollOut := true }] }⟩,
    ⟨.b, { answer := .ok [{ pollIn := true }] }⟩,
    ⟨.b, { answer := .ok [{}, {}, {}, { pollOut := true }] }⟩,
    ⟨.a, { answer := .ok [{ pollIn := true }] }⟩, ⟨.a, { answer := .ok [] }⟩,
    ⟨.a, { answer := .ok [{}, { pollIn := true }, {}, { pollOut := true }] }⟩,
    ⟨.b, { answer := .ok [{ pollIn := true }] }⟩, ⟨.b, { answer := .ok [] }⟩,
    ⟨.b, { answer := .ok [{ pollIn := true }, {}, { pollOut := true }] }⟩]

end Hello

/-- The two bytes of the client's owner get to that of the server. -/
theorem owner_prefix_hello :
    ∃ S, Run Step Hello.start Hello.rounds S ∧ S.readable .b = [104, 105] ∧
      S.readable .b <+: S.written .a := by
  have hrun := Run.of_exec Delivers (fun S e => some (step S e)) Hello.start Hello.rounds
    (by decide +kernel)
  refine ⟨_, hrun, by decide +kernel, ?_⟩
  exact owner_prefix _ _ _ _ _ _ _ Hello.opened hrun
    (fun x => by cases x <;> decide +kernel) .b

end SocketPair

end Sponge
