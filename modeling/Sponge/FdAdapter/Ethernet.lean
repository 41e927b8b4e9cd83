/-
  Sponge.FdAdapter.Ethernet

  TCP segments in IPv4 datagrams in Ethernet frames on a TAP device
  (`TCPOverIPv4OverEthernetAdapter` of `tuntap_adapter.hh`, `tuntap_adapter.cc`).

  The adapter puts all layers together: `wrap_tcp_in_ip`, the network interface with its
  ARP messages and the datagrams that it holds back, and the device.  A segment may so
  leave the adapter long after it was written, when a frame with an ARP message comes in,
  or never.
-/

import Sponge.Ethernet.Codec
import Sponge.FdAdapter.Tun
import Sponge.NetworkInterface.Basic

namespace Sponge

open Lib (Ends onPart)

/-- The segment in the bytes of a frame, whoever it is for. -/
def EthernetFrame.segmentIn (bytes : Buffer) : Option TCPSegment :=
  let frame := (EthernetFrame.parse {} bytes).2
  if frame.header.type = EthernetHeader.typeIPv4 then
    IPv4Datagram.segmentIn frame.payload.flatten
  else none

/-- `TCPOverIPv4OverEthernetAdapter` -/
structure TCPOverIPv4OverEthernetAdapter extends TCPOverIPv4Adapter where
  /-- `_tap` -/
  tap : FileDescriptor
  /-- `_interface` -/
  interface : NetworkInterface
  /-- `_next_hop` -/
  nextHop : Address

namespace TCPOverIPv4OverEthernetAdapter

/-- What is done with the device. -/
def onTap {β : Type} (p : EStateM Thrown FileDescriptor β) :
    EStateM Thrown TCPOverIPv4OverEthernetAdapter β :=
  onPart tap (fun a tap => { a with tap }) p

/-- The interface is replaced by what a call has made of it. -/
def setInterface (n : NetworkInterface) : EStateM Thrown TCPOverIPv4OverEthernetAdapter Unit :=
  modify fun a => { a with interface := n }

/-- The loop of `send_pending`, with the frames that are still in the queue. -/
def sendFrames : List EthernetFrame → EStateM Thrown TCPOverIPv4OverEthernetAdapter Unit
  | [] => pure ()
  | frame :: frames => do
      let _ ← onTap (FileDescriptor.write frame.serialize true)
      modify fun a => { a with interface := { a.interface with framesOut := frames } }
      sendFrames frames

/-- `send_pending()` -/
def sendPending : EStateM Thrown TCPOverIPv4OverEthernetAdapter Unit := do
  let a ← get
  sendFrames a.interface.framesOut

/-- The constructor; the dummy frame is there to prime the device. -/
def new (ethAddress : EthernetAddress) (ipAddress nextHop : Address) :
    EStateM Thrown FileDescriptor TCPOverIPv4OverEthernetAdapter := do
  let _ ← FileDescriptor.write ({} : EthernetFrame).serialize true
  let tap ← get
  pure { tap, interface := .new ethAddress ipAddress, nextHop }

/-- `read()` -/
def read : EStateM Thrown TCPOverIPv4OverEthernetAdapter (Option TCPSegment) := do
  let bytes ← onTap (FileDescriptor.read FileDescriptor.noLimit)
  let parsed := EthernetFrame.parse {} bytes
  if parsed.1 ≠ .noError then pure none
  else do
    let a ← get
    let received := a.interface.recvFrame parsed.2
    setInterface received.2
    let dgram ← raise received.1
    sendPending
    match dgram with
    | some dgram =>
        onPart toTCPOverIPv4Adapter (fun a base => { a with toTCPOverIPv4Adapter := base })
          (TCPOverIPv4Adapter.unwrap dgram)
    | none => pure none

/-- `write(seg)` -/
def write (seg : TCPSegment) : EStateM Thrown TCPOverIPv4OverEthernetAdapter Unit := do
  let a ← get
  let dgram ← raise (a.wrapTcpInIp seg).1
  let n ← raise (a.interface.sendDatagram dgram a.nextHop)
  setInterface n
  sendPending

/-- `tick(ms_since_last_tick)` -/
def tick (msSinceLastTick : Nat) : EStateM Thrown TCPOverIPv4OverEthernetAdapter Unit := do
  let a ← get
  setInterface (a.interface.tick msSinceLastTick)
  sendPending

instance : Medium TCPOverIPv4OverEthernetAdapter where
  fd a := a.tap.toFDWrapper
  config a := a.config
  setConfig config a := { a with config }
  setListening listening a := { a with listening }
  read := read
  write := write
  tick := tick
  taken a := a.tap.received
  put a := a.tap.sent
  decode := EthernetFrame.segmentIn

-- ============================================================================
-- What the frames carry
-- ============================================================================

theorem segmentIn_serialize (frame : EthernetFrame) :
    EthernetFrame.segmentIn frame.serialize.flatten =
      if frame.header.type = EthernetHeader.typeIPv4 then
        IPv4Datagram.segmentIn frame.payload.flatten
      else none := by
  rw [EthernetFrame.segmentIn, EthernetFrame.serialize, List.flatten_cons,
    EthernetFrame.parse_serialize_append]
  simp

/-- The frame carries nothing but the segments. -/
def FrameCarries (segs : List TCPSegment) (frame : EthernetFrame) : Prop :=
  Carried EthernetFrame.segmentIn segs [frame.serialize.flatten]

theorem FrameCarries.mono {segs segs' : List TCPSegment} {frame : EthernetFrame}
    (h : FrameCarries segs frame) (hsegs : segs ⊆ segs') : FrameCarries segs' frame :=
  Carried.mono h hsegs

/-- A frame that does not carry a datagram carries no segment. -/
theorem frameCarries_of_type {segs : List TCPSegment} {frame : EthernetFrame}
    (h : frame.header.type ≠ EthernetHeader.typeIPv4) : FrameCarries segs frame := by
  refine .singleton fun seg hseg => ?_
  rw [segmentIn_serialize, if_neg h] at hseg
  cases hseg

/-- The datagram can be sent, and carries nothing but the segments. -/
structure DatagramCarries (segs : List TCPSegment) (dgram : IPv4Datagram) : Prop where
  serializes : dgram.Serializes
  carries : ∀ (n : NetworkInterface) (address : EthernetAddress),
    FrameCarries segs (n.datagramFrame dgram.wireBytes address)

theorem DatagramCarries.mono {segs segs' : List TCPSegment} {dgram : IPv4Datagram}
    (h : DatagramCarries segs dgram) (hsegs : segs ⊆ segs') : DatagramCarries segs' dgram :=
  ⟨h.serializes, fun n address => (h.carries n address).mono hsegs⟩

theorem datagramCarries_wrapped {segs : List TCPSegment} {seg : TCPSegment} (h : seg.Plain)
    (hseg : seg ∈ segs) (a : TCPOverIPv4Adapter) : DatagramCarries segs (a.wrapped seg) := by
  have hserialize := IPv4Datagram.serialize_eq (TCPOverIPv4Adapter.plain_wrapped h a)
  have hserializes := IPv4Datagram.serializes_of_eq_ok hserialize
  refine ⟨hserializes, fun n address => .singleton fun seg' hseg' => ⟨seg, hseg, ?_⟩⟩
  have hbytes : (a.wrapped seg).wireBytes = (a.wrapped seg).headerOut.wire :: (a.wrapped seg).payload :=
    Except.ok.inj (hserializes.symm.trans hserialize)
  have htype : (n.datagramFrame (a.wrapped seg).wireBytes address).header.type =
      EthernetHeader.typeIPv4 := rfl
  rw [segmentIn_serialize, if_pos htype] at hseg'
  have hwire : (n.datagramFrame (a.wrapped seg).wireBytes address).payload.flatten =
      (a.wrapped seg).wire := by
    show (a.wrapped seg).wireBytes.flatten = _
    rw [hbytes]
    rfl
  rw [hwire, TCPOverIPv4Adapter.segmentIn_wrapped h a] at hseg'
  obtain rfl := Option.some.inj hseg'
  exact TCPOverIPv4Adapter.delivered_agrees a seg

/-- Neither the queue of frames nor the datagrams that are held back carry anything but the
    segments. -/
structure InterfaceCarries (segs : List TCPSegment) (n : NetworkInterface) : Prop where
  frames : ∀ frame ∈ n.framesOut, FrameCarries segs frame
  held : ∀ nextHop, ∀ dgram ∈ n.pending nextHop, DatagramCarries segs dgram

namespace InterfaceCarries

variable {segs segs' : List TCPSegment} {n n' : NetworkInterface}

theorem mono (h : InterfaceCarries segs n) (hsegs : segs ⊆ segs') : InterfaceCarries segs' n :=
  ⟨fun frame hframe => (h.frames frame hframe).mono hsegs,
    fun nextHop dgram hdgram => (h.held nextHop dgram hdgram).mono hsegs⟩

theorem queueSound (h : InterfaceCarries segs n) : n.QueueSound :=
  fun nextHop dgram hdgram => (h.held nextHop dgram hdgram).serializes

theorem push (h : InterfaceCarries segs n) {frames : List EthernetFrame}
    (hframes : ∀ frame ∈ frames, FrameCarries segs frame) : InterfaceCarries segs (n.push frames) := by
  refine ⟨fun frame hframe => ?_, h.held⟩
  rcases List.mem_append.mp hframe with hframe | hframe
  · exact h.frames frame hframe
  · exact hframes frame hframe

/-- What an operation does to an interface that is only given datagrams with the segments. -/
theorem acts (h : InterfaceCarries segs n) {op : InterfaceOp} (hacts : n.Acts op n')
    (hop : ∀ dgram nextHop, op = .sendDatagram dgram nextHop → DatagramCarries segs dgram) :
    InterfaceCarries segs n' := by
  have harp : ∀ (payload : Buffer) (address : EthernetAddress),
      FrameCarries segs (n.arpFrame payload address) :=
    fun payload address => frameCarries_of_type
      (show EthernetHeader.typeARP ≠ EthernetHeader.typeIPv4 by decide)
  cases hacts with
  | @forward dgram nextHop cached hcached =>
      refine h.push fun frame hframe => ?_
      obtain rfl := List.mem_singleton.mp hframe
      exact (hop _ _ rfl).carries n _
  | ignore => exact h
  | @ask dgram nextHop hcached htimer =>
      have hpush : InterfaceCarries segs (n.push [n.request nextHop]) := by
        refine h.push fun frame hframe => ?_
        obtain rfl := List.mem_singleton.mp hframe
        exact harp _ _
      refine ⟨hpush.frames, fun hop' dgram' hdgram' => ?_⟩
      by_cases heq : hop' = nextHop
      · subst heq
        simp only [NetworkInterface.pending, AList.lookup_insert, Option.getD_some] at hdgram'
        rcases List.mem_append.mp hdgram' with hdgram' | hdgram'
        · exact h.held _ _ hdgram'
        · obtain rfl := List.mem_singleton.mp hdgram'
          exact hop _ _ rfl
      · simp only [NetworkInterface.pending, AList.lookup_insert_ne heq] at hdgram'
        exact h.held _ _ hdgram'
  | pass => exact h
  | @learn frame arp _ =>
      have hpush : ∀ x ∈ (n.pending arp.senderIpAddress).map
            (fun d => n.datagramFrame d.wireBytes arp.senderEthernetAddress) ++
          n.replies frame.header arp, FrameCarries segs x := by
        intro x hx
        rcases List.mem_append.mp hx with hx | hx
        · obtain ⟨dgram, hdgram, rfl⟩ := List.mem_map.mp hx
          exact (h.held _ _ hdgram).carries n _
        · unfold NetworkInterface.replies at hx
          split at hx
          · obtain rfl := List.mem_singleton.mp hx
            exact harp _ _
          · cases hx
      have hlearn : InterfaceCarries segs (n.learn arp) := ⟨h.frames, h.held⟩
      refine ⟨(hlearn.push hpush).frames, fun hop' dgram' hdgram' => ?_⟩
      by_cases heq : hop' = arp.senderIpAddress
      · subst heq
        simp only [NetworkInterface.pending, AList.lookup_erase, Option.getD_none] at hdgram'
        cases hdgram'
      · simp only [NetworkInterface.pending, AList.lookup_erase_ne heq] at hdgram'
        exact h.held _ _ hdgram'
  | tick => exact ⟨h.frames, h.held⟩
  | popFrame =>
      exact ⟨fun frame hframe => h.frames frame (List.mem_of_mem_tail hframe), h.held⟩

end InterfaceCarries

-- ============================================================================
-- What a call can do
-- ============================================================================

/-- The adapter holds and has sent nothing but the segments. -/
structure Holds (segs : List TCPSegment) (a : TCPOverIPv4OverEthernetAdapter) : Prop where
  whole : Whole a.tap.writes
  put : Carried EthernetFrame.segmentIn segs a.tap.sent
  interface : InterfaceCarries segs a.interface

theorem Holds.mono {segs segs' : List TCPSegment} {a : TCPOverIPv4OverEthernetAdapter}
    (h : Holds segs a) (hsegs : segs ⊆ segs') : Holds segs' a :=
  ⟨h.whole, h.put.mono hsegs, h.interface.mono hsegs⟩

/-- Nothing was read from the device. -/
structure Unread (a a' : TCPOverIPv4OverEthernetAdapter) : Prop where
  received : a'.tap.received = a.tap.received
  readCount : a'.tap.readCount = a.tap.readCount

theorem sendFrames_ends {segs : List TCPSegment} {frames : List EthernetFrame}
    {a : TCPOverIPv4OverEthernetAdapter} (h : Holds segs a) (hframes : a.interface.framesOut = frames) :
    Ends (sendFrames frames) a (fun _ a' => Holds segs a' ∧ Unread a a')
      (fun e a' => OfMedium e ∧ Holds segs a' ∧ a'.tap.received = a.tap.received) := by
  induction frames generalizing a with
  | nil =>
      rw [sendFrames, Lib.ends_pure]
      exact ⟨h, rfl, rfl⟩
  | cons frame frames ih =>
      have hframe : ∀ x ∈ frame :: frames, FrameCarries segs x := hframes ▸ h.interface.frames
      rw [sendFrames, onTap]
      simp only [Lib.ends_bind, Lib.ends_onPart, Lib.ends_modify]
      refine (FileDescriptor.write_whole h.whole _).mono ?_ ?_
      · rintro _ tap ⟨hwhole, hreceived, hcount, hsent⟩
        have hput : Carried EthernetFrame.segmentIn segs tap.sent := by
          rw [hsent]
          exact h.put.append (hframe frame (List.mem_cons_self ..))
        have hpopped : InterfaceCarries segs { a.interface with framesOut := frames } :=
          ⟨fun x hx => hframe x (List.mem_cons_of_mem _ hx), h.interface.held⟩
        have hrest := ih (a := { a with
          tap, interface := { a.interface with framesOut := frames } }) ⟨hwhole, hput, hpopped⟩ rfl
        refine hrest.mono ?_ ?_
        · rintro _ a' ⟨h', hunread⟩
          exact ⟨h', hunread.received.trans hreceived, hunread.readCount.trans hcount⟩
        · rintro e a' ⟨he, h', hsame⟩
          exact ⟨he, h', hsame.trans hreceived⟩
      · rintro e tap ⟨he, hwhole, hreceived, hsent⟩
        exact ⟨.kernel he, ⟨hwhole, hsent ▸ h.put, h.interface⟩, hreceived⟩

theorem sendPending_ends {segs : List TCPSegment} {a : TCPOverIPv4OverEthernetAdapter}
    (h : Holds segs a) :
    Ends sendPending a (fun _ a' => Holds segs a' ∧ Unread a a')
      (fun e a' => OfMedium e ∧ Holds segs a' ∧ a'.tap.received = a.tap.received) := by
  unfold sendPending
  simp only [Lib.ends_bind, Lib.ends_get]
  exact sendFrames_ends h rfl

/-- What `recv_frame` returns for a frame that was read from the device. -/
theorem recvFrame_segment {n : NetworkInterface} (hqueue : n.QueueSound) (bytes : Buffer) :
    ∃ out, (n.recvFrame (EthernetFrame.parse {} bytes).2).1 = .ok out ∧ ∀ dgram, out = some dgram →
      (∃ buffer, dgram.payload = [buffer]) ∧ EthernetFrame.segmentIn bytes = dgram.segment := by
  obtain ⟨buffer, hbuffer⟩ : ∃ buffer, (EthernetFrame.parse {} bytes).2.payload = [buffer] :=
    ⟨_, rfl⟩
  obtain ⟨out, hout, hdgram⟩ := NetworkInterface.recvFrame_returns hqueue hbuffer
  refine ⟨out, hout, fun dgram h => ?_⟩
  obtain ⟨htype, -, hparse⟩ := hdgram dgram h
  have hpayload := IPv4Datagram.parse_payload {} buffer
  rw [hparse] at hpayload
  refine ⟨hpayload, ?_⟩
  simp only [EthernetFrame.segmentIn, htype, if_true, hbuffer, List.flatten_singleton,
    IPv4Datagram.segmentIn, hparse]

theorem read_ends {segs : List TCPSegment} {a : TCPOverIPv4OverEthernetAdapter} (h : Holds segs a) :
    Ends read a (fun result a' => Holds segs a' ∧ DidTake a result a')
      (fun e a' => OfMedium e ∧ Holds segs a' ∧ taken a <+: taken a') := by
  unfold read onTap setInterface
  simp only [Lib.ends_bind, Lib.ends_onPart, Lib.ends_ite, Lib.ends_pure, Lib.ends_get,
    Lib.ends_modify, ends_raise]
  refine ((a.tap.read_ends _).and (FileDescriptor.read_writes _ a.tap)).mono ?_ ?_
  · rintro bytes tap ⟨hread, hwrites⟩
    have hwhole : Whole tap.writes := hwrites ▸ h.whole
    have hput : Carried EthernetFrame.segmentIn segs tap.sent := hread.sent ▸ h.put
    have hcount : a.tap.readCount ≠ tap.readCount := by
      rw [show tap.readCount = a.tap.readCount + 1 from congrArg FDWrapper.readCount hread.wrapper]
      grind
    have hqueue := h.interface.queueSound
    refine ⟨fun _ => ⟨⟨hwhole, hput, h.interface⟩, ⟨bytes, hread.received, by simp⟩, hcount⟩,
      fun _ => ?_⟩
    obtain ⟨out, hout, hdgram⟩ := recvFrame_segment hqueue bytes
    rw [hout]
    refine ⟨fun dgram hok => ?_, fun e he => by cases he⟩
    obtain rfl := Except.ok.inj hok
    -- the queue of the interface is sent before the datagram is looked at
    have hinterface := h.interface.acts (NetworkInterface.recvFrame_acts hqueue
      (EthernetFrame.parse {} bytes).2) (by simp)
    refine (sendPending_ends ⟨hwhole, hput, hinterface⟩).mono ?_ ?_
    · rintro _ a' ⟨h', hunread⟩
      have htaken : taken a' = taken a ++ [bytes] := hunread.received.trans hread.received
      have hcounted : (FdAdapter.fd a).readCount ≠ (FdAdapter.fd a').readCount :=
        fun heq => hcount (heq.trans hunread.readCount)
      cases out with
      | none => exact Lib.ends_pure.mpr ⟨h', ⟨bytes, htaken, by simp⟩, hcounted⟩
      | some dgram =>
          obtain ⟨⟨buffer, hbuffer⟩, hsegment⟩ := hdgram dgram rfl
          simp only [Lib.ends_onPart]
          refine (TCPOverIPv4Adapter.unwrap_ends _ hbuffer).mono ?_ fun _ _ he => he.elim
          intro result base hresult
          exact ⟨⟨h'.whole, h'.put, h'.interface⟩,
            ⟨bytes, htaken, fun seg hseg => hsegment.trans (hresult seg hseg)⟩, hcounted⟩
    · rintro e a' ⟨he, h', hreceived⟩
      refine ⟨he, h', ?_⟩
      show _ <+: a'.tap.received
      rw [hreceived]
      exact hread.received ▸ List.prefix_append ..
  · rintro e tap ⟨⟨he, hsame⟩, hwrites⟩
    refine ⟨.kernel he, ⟨hwrites ▸ h.whole, hsame.sent ▸ h.put, h.interface⟩, ?_⟩
    show _ <+: tap.received
    rw [hsame.received]
    exact List.prefix_refl _

theorem write_ends {segs : List TCPSegment} {a : TCPOverIPv4OverEthernetAdapter} {seg : TCPSegment}
    (hseg : seg.Plain) (h : Holds segs a) :
    Ends (write seg) a (fun _ a' => Holds (segs ++ [seg]) a' ∧ taken a' = taken a)
      (fun e a' => OfMedium e ∧ Holds (segs ++ [seg]) a' ∧ taken a' = taken a) := by
  have h' := h.mono (List.subset_append_left segs [seg])
  have hdgram := datagramCarries_wrapped hseg (List.mem_append_right segs (List.mem_singleton_self seg))
    a.toTCPOverIPv4Adapter
  obtain ⟨n', hn'⟩ := NetworkInterface.sendDatagram_ok (n := a.interface) hdgram.serializes a.nextHop
  have hcarries : InterfaceCarries (segs ++ [seg]) n' := by
    refine h'.interface.acts (NetworkInterface.acts_of_sendDatagram hn') ?_
    rintro dgram nextHop heq
    injection heq with hdgram' hnext
    exact hdgram' ▸ hdgram
  unfold write setInterface
  simp only [Lib.ends_bind, Lib.ends_get, ends_raise, Lib.ends_modify]
  rw [TCPOverIPv4Adapter.wrapTcpInIp_eq (TCPOverIPv4Adapter.plain_encodable hseg _)]
  refine ⟨fun dgram hdgram => ?_, fun e he => by cases he⟩
  obtain rfl := Except.ok.inj hdgram
  rw [hn']
  refine ⟨fun n hn => ?_, fun e he => by cases he⟩
  obtain rfl := Except.ok.inj hn
  have hholds : Holds (segs ++ [seg]) { a with interface := n' } := ⟨h'.whole, h'.put, hcarries⟩
  exact (sendPending_ends hholds).mono (fun _ _ hsent => ⟨hsent.1, hsent.2.received⟩) fun _ _ he => he

theorem tick_ends {segs : List TCPSegment} {a : TCPOverIPv4OverEthernetAdapter} (ms : Nat)
    (h : Holds segs a) :
    Ends (tick ms) a (fun _ a' => Holds segs a' ∧ taken a' = taken a)
      (fun e a' => OfMedium e ∧ Holds segs a' ∧ taken a' = taken a) := by
  unfold tick setInterface
  simp only [Lib.ends_bind, Lib.ends_get, Lib.ends_modify]
  have hholds : Holds segs { a with interface := a.interface.tick ms } :=
    ⟨h.whole, h.put, h.interface.frames, h.interface.held⟩
  exact (sendPending_ends hholds).mono (fun _ _ hsent => ⟨hsent.1, hsent.2.received⟩) fun _ _ he => he

/-- A TAP device with a network interface carries what it is given. -/
instance : Faithful TCPOverIPv4OverEthernetAdapter where
  Sends := Holds
  sends_mono := Holds.mono
  carried h := h.put
  setConfig_sends _ h := ⟨h.whole, h.put, h.interface⟩
  setConfig_taken _ _ := rfl
  setListening_sends _ h := ⟨h.whole, h.put, h.interface⟩
  setListening_taken _ _ := rfl
  read_ends := read_ends
  write_ends := write_ends
  tick_ends := tick_ends

/-- The adapter that the constructor returns has sent nothing yet: there is no segment in the
    dummy frame. -/
theorem new_ends {tap : FileDescriptor} (hwhole : Whole tap.writes) (hfresh : tap.sent = [])
    (ethAddress : EthernetAddress) (ipAddress nextHop : Address) :
    Ends (new ethAddress ipAddress nextHop) tap
      (fun a tap' => a.tap = tap' ∧ Faithful.Sends [] a) (fun e _ => FileDescriptor.OfKernel e) := by
  have hdummy : EthernetFrame.segmentIn ({} : EthernetFrame).serialize.flatten = none := by
    decide +kernel
  unfold new
  simp only [Lib.ends_bind, Lib.ends_get, Lib.ends_pure]
  refine (FileDescriptor.write_whole hwhole _).mono ?_ fun _ _ he => he.1
  rintro _ tap' ⟨hwhole', -, -, hsent⟩
  refine ⟨trivial, hwhole', ?_, ?_, ?_⟩
  · rw [hsent, hfresh, List.nil_append]
    exact Carried.singleton fun seg hseg => by rw [hdummy] at hseg; cases hseg
  · exact List.forall_mem_nil _
  · intro hop dgram hdgram
    cases hdgram

end TCPOverIPv4OverEthernetAdapter

end Sponge
