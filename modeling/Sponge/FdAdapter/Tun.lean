/-
  Sponge.FdAdapter.Tun

  TCP segments in IPv4 datagrams on a TUN device (`tuntap_adapter.hh`).

  A device takes packets whole (`Whole`), so a call of `write` is one packet.  What another
  host finds in such a packet is the segment that was wrapped, since both codecs read back
  what they have written.
-/

import Sponge.FdAdapter.Basic

namespace Sponge

open Lib (Ends onPart)

-- ============================================================================
-- Devices
-- ============================================================================

namespace FileDescriptor

/-- The default of the parameter `limit` of `read`. -/
def noLimit : Nat := 2 ^ 64 - 1

theorem read_writes (limit : Nat) (fd : FileDescriptor) :
    Ends (read limit) fd (fun _ fd' => fd'.writes = fd.writes) (fun _ fd' => fd'.writes = fd.writes) := by
  unfold read
  simp only [Lib.ends_bind, Lib.ends_get, Lib.ends_modify, ends_systemCall, Lib.ends_ite,
    Lib.ends_throw, Lib.ends_pure, registerRead]
  exact ⟨fun _ _ => ⟨fun _ => trivial, fun _ => trivial⟩, fun _ _ => trivial⟩

/-- A device that takes packets whole needs one round. -/
theorem write_whole {fd : FileDescriptor} (hwhole : Whole fd.writes) (buffer : BufferViewList) :
    Ends (write buffer true) fd
      (fun _ fd' => Whole fd'.writes ∧ fd'.received = fd.received ∧ fd'.readCount = fd.readCount ∧
        fd'.sent = fd.sent ++ [buffer.flatten])
      (fun e fd' => OfKernel e ∧ Whole fd'.writes ∧ fd'.received = fd.received ∧
        fd'.sent = fd.sent) := by
  unfold write
  rw [writeLoop]
  simp only [Lib.ends_bind, Lib.ends_get, Lib.ends_modify, ends_systemCall, Lib.ends_ite,
    Lib.ends_throw, Lib.ends_pure, registerWrite, ends_raise]
  refine ⟨fun n hn => ?_, fun _ _ => ⟨.unix _ _, hwhole.tail, trivial, trivial⟩⟩
  obtain rfl : n = buffer.size := hwhole.head hn
  obtain ⟨rest, hremove, -, hsize⟩ := BufferViewList.removePrefix_ok (Nat.le_refl buffer.size)
  refine ⟨fun hnone => absurd hnone.1 hnone.2, fun _ => ⟨fun hmore => absurd hmore (Nat.lt_irrefl _),
    fun _ => ⟨fun rest' hrest' => ?_, fun e he => by rw [hremove] at he; cases he⟩⟩⟩
  obtain rfl : rest = rest' := Except.ok.inj (hremove.symm.trans hrest')
  refine ⟨fun hmore => absurd (by omega) hmore.2, fun _ => ⟨hwhole.tail, trivial, trivial, ?_⟩⟩
  rw [BufferViewList.size_eq, List.take_length]

end FileDescriptor

-- ============================================================================
-- Segments in datagrams
-- ============================================================================

/-- A parsed datagram has its payload in one piece. -/
theorem IPv4Datagram.parse_payload (d : IPv4Datagram) (bytes : Buffer) :
    ∃ buffer, (d.parse bytes).2.payload = [buffer] := by
  refine ⟨(d.header.parse { buffer := bytes }).2.2.buffer, ?_⟩
  unfold IPv4Datagram.parse
  dsimp only
  split <;> rfl

/-- The segment in a datagram, whoever it is for. -/
def IPv4Datagram.segment (dgram : IPv4Datagram) : Option TCPSegment :=
  if dgram.header.proto ≠ IPv4Header.protoTcp then none
  else
    match dgram.payload.toBuffer with
    | .error _ => none
    | .ok buffer =>
        let parsed := ({} : TCPSegment).parse buffer dgram.header.pseudoCksum
        if parsed.1 = .noError then some parsed.2 else none

/-- The segment in the bytes of a datagram. -/
def IPv4Datagram.segmentIn (bytes : Buffer) : Option TCPSegment :=
  let parsed := IPv4Datagram.parse {} bytes
  if parsed.1 = .noError then parsed.2.segment else none

namespace TCPOverIPv4Adapter

/-- `unwrap_tcp_in_ip(ip_dgram)` -/
def unwrap (dgram : IPv4Datagram) : EStateM Thrown TCPOverIPv4Adapter (Option TCPSegment) := fun a =>
  match a.unwrapTcpInIp dgram with
  | (.ok seg, a) => .ok seg a
  | (.error e, a) => .error (.exn e) a

theorem unwrapSegment_eq_some {a a' : TCPOverIPv4Adapter} {dgram : IPv4Datagram}
    {seg seg' : TCPSegment} (h : a.unwrapSegment dgram seg = (.ok (some seg'), a')) : seg' = seg := by
  unfold unwrapSegment fromPeer at h
  grind

theorem unwrapTcpInIp_ok (a : TCPOverIPv4Adapter) {dgram : IPv4Datagram} {buffer : Buffer}
    (hpayload : dgram.payload = [buffer]) :
    ∃ result, (a.unwrapTcpInIp dgram).1 = .ok result ∧
      ∀ seg, result = some seg → dgram.segment = some seg := by
  have hbuffer : dgram.payload.toBuffer = .ok buffer := by rw [hpayload]; rfl
  unfold unwrapTcpInIp IPv4Datagram.segment
  split
  · exact ⟨none, rfl, by simp⟩
  split
  · exact ⟨none, rfl, by simp⟩
  split
  · exact ⟨none, rfl, by simp⟩
  simp only [hbuffer]
  split
  · exact ⟨none, rfl, by simp⟩
  · rename_i hparse
    have hparse := not_not.mp hparse
    rw [if_pos hparse]
    rcases hresult : a.unwrapSegment dgram (({} : TCPSegment).parse buffer
      dgram.header.pseudoCksum).2 with ⟨result, a'⟩
    cases result with
    | error e =>
        exfalso
        unfold unwrapSegment fromPeer at hresult
        grind
    | ok result =>
        refine ⟨result, rfl, ?_⟩
        rintro seg rfl
        rw [unwrapSegment_eq_some hresult]

theorem unwrap_ends (a : TCPOverIPv4Adapter) {dgram : IPv4Datagram} {buffer : Buffer}
    (hpayload : dgram.payload = [buffer]) :
    Ends (unwrap dgram) a (fun result _ => ∀ seg, result = some seg → dgram.segment = some seg)
      (fun _ _ => False) := by
  obtain ⟨result, hresult, hsegment⟩ := a.unwrapTcpInIp_ok hpayload
  have hrun : unwrap dgram a = .ok result (a.unwrapTcpInIp dgram).2 := by
    unfold unwrap
    rw [show a.unwrapTcpInIp dgram = (.ok result, (a.unwrapTcpInIp dgram).2) from
      Prod.ext hresult rfl]
  exact .of_eq_ok hrun hsegment

variable {a : TCPOverIPv4Adapter} {seg : TCPSegment}

theorem plain_encodable (h : seg.Plain) (a : TCPOverIPv4Adapter) : (a.setPorts seg).Encodable :=
  TCPSegment.Plain.encodable ⟨h.doff_eq, h.payload_le⟩

theorem plain_wrapped (h : seg.Plain) (a : TCPOverIPv4Adapter) : (a.wrapped seg).Encodable := by
  refine wrapped_encodable (plain_encodable h a) ?_
  have hdoff : seg.header.doff.toNat = 5 := by
    rw [h.doff_eq]
    rfl
  have hpayload : seg.payload.length ≤ 1452 := h.payload_le
  omega

/-- What is wrapped and serialized is read back. -/
theorem segmentIn_wrapped (h : seg.Plain) (a : TCPOverIPv4Adapter) :
    IPv4Datagram.segmentIn (a.wrapped seg).wire = some (a.delivered seg) := by
  have hproto : (a.wrapped seg).headerOut.proto = IPv4Header.protoTcp := rfl
  simp only [IPv4Datagram.segmentIn, IPv4Datagram.parse_wire {} (plain_wrapped h a), if_true,
    IPv4Datagram.segment, hproto, BufferList.toBuffer, parse_delivered (plain_encodable h a)]
  simp

theorem delivered_agrees (a : TCPOverIPv4Adapter) (seg : TCPSegment) :
    (a.delivered seg).Agrees seg := ⟨rfl, rfl, rfl, rfl, rfl, rfl, rfl, rfl⟩

end TCPOverIPv4Adapter

-- ============================================================================
-- TUN
-- ============================================================================

/-- `TCPOverIPv4OverTunFdAdapter` -/
structure TCPOverIPv4OverTunFdAdapter extends TCPOverIPv4Adapter where
  tun : FileDescriptor

namespace TCPOverIPv4OverTunFdAdapter

/-- What is done with the device. -/
def onTun {β : Type} (p : EStateM Thrown FileDescriptor β) :
    EStateM Thrown TCPOverIPv4OverTunFdAdapter β :=
  onPart tun (fun a tun => { a with tun }) p

/-- `read()` -/
def read : EStateM Thrown TCPOverIPv4OverTunFdAdapter (Option TCPSegment) := do
  let bytes ← onTun (FileDescriptor.read FileDescriptor.noLimit)
  let parsed := IPv4Datagram.parse {} bytes
  if parsed.1 ≠ .noError then pure none
  else
    onPart toTCPOverIPv4Adapter (fun a base => { a with toTCPOverIPv4Adapter := base })
      (TCPOverIPv4Adapter.unwrap parsed.2)

/-- `write(seg)` -/
def write (seg : TCPSegment) : EStateM Thrown TCPOverIPv4OverTunFdAdapter Unit := do
  let a ← get
  let dgram ← raise (a.wrapTcpInIp seg).1
  let bytes ← raise dgram.serialize
  let _ ← onTun (FileDescriptor.write bytes true)

instance : Medium TCPOverIPv4OverTunFdAdapter where
  fd a := a.tun.toFDWrapper
  config a := a.config
  setConfig config a := { a with config }
  setListening listening a := { a with listening }
  read := read
  write := write
  tick _ := pure ()
  taken a := a.tun.received
  put a := a.tun.sent
  decode := IPv4Datagram.segmentIn

/-- What is sent on the device are the segments. -/
def Sends (segs : List TCPSegment) (a : TCPOverIPv4OverTunFdAdapter) : Prop :=
  Whole a.tun.writes ∧ Carried IPv4Datagram.segmentIn segs a.tun.sent

theorem read_ends {segs : List TCPSegment} {a : TCPOverIPv4OverTunFdAdapter} (h : Sends segs a) :
    Ends read a (fun result a' => Sends segs a' ∧ DidTake a result a')
      (fun e a' => OfMedium e ∧ Sends segs a' ∧ taken a <+: taken a') := by
  obtain ⟨hwhole, hput⟩ := h
  unfold read onTun
  simp only [Lib.ends_bind, Lib.ends_onPart, Lib.ends_ite, Lib.ends_pure]
  refine ((a.tun.read_ends _).and (FileDescriptor.read_writes _ a.tun)).mono ?_ ?_
  · rintro bytes tun ⟨hread, hwrites⟩
    have hsends : Whole tun.writes ∧ Carried IPv4Datagram.segmentIn segs tun.sent := by
      rw [hwrites, hread.sent]
      exact ⟨hwhole, hput⟩
    have hcount : a.tun.readCount ≠ tun.readCount := by
      rw [show tun.readCount = a.tun.readCount + 1 from
        congrArg FDWrapper.readCount hread.wrapper]
      grind
    refine ⟨fun _ => ⟨hsends, ⟨bytes, hread.received, by simp⟩, hcount⟩, fun hparse => ?_⟩
    obtain ⟨buffer, hbuffer⟩ := IPv4Datagram.parse_payload {} bytes
    refine (TCPOverIPv4Adapter.unwrap_ends _ hbuffer).mono ?_ fun _ _ he => he.elim
    intro result base hresult
    refine ⟨hsends, ⟨bytes, hread.received, fun seg hseg => ?_⟩, hcount⟩
    exact (if_pos (not_not.mp hparse)).trans (hresult seg hseg)
  · rintro e tun ⟨⟨he, hsame⟩, hwrites⟩
    refine ⟨.kernel he, ⟨hwrites ▸ hwhole, hsame.sent ▸ hput⟩, ?_⟩
    show _ <+: tun.received
    rw [hsame.received]
    exact List.prefix_refl _

theorem write_ends {segs : List TCPSegment} {a : TCPOverIPv4OverTunFdAdapter} {seg : TCPSegment}
    (hseg : seg.Plain) (h : Sends segs a) :
    Ends (write seg) a (fun _ a' => Sends (segs ++ [seg]) a' ∧ taken a' = taken a)
      (fun e a' => OfMedium e ∧ Sends (segs ++ [seg]) a' ∧ taken a' = taken a) := by
  obtain ⟨hwhole, hput⟩ := h
  have hput' := hput.mono (List.subset_append_left segs [seg])
  unfold write onTun
  simp only [Lib.ends_bind, Lib.ends_get, ends_raise, Lib.ends_onPart, Lib.ends_pure]
  rw [TCPOverIPv4Adapter.wrapTcpInIp_eq (TCPOverIPv4Adapter.plain_encodable hseg _)]
  refine ⟨fun dgram hdgram => ?_, fun e he => by cases he⟩
  obtain rfl := Except.ok.inj hdgram
  rw [IPv4Datagram.serialize_eq (TCPOverIPv4Adapter.plain_wrapped hseg _)]
  refine ⟨fun bytes hbytes => ?_, fun e he => by cases he⟩
  obtain rfl := Except.ok.inj hbytes
  refine (FileDescriptor.write_whole hwhole _).mono ?_ ?_
  · rintro _ tun ⟨hwhole', hreceived, -, hsent⟩
    refine ⟨⟨hwhole', ?_⟩, hreceived⟩
    rw [hsent]
    refine hput'.append (.singleton fun seg' hseg' => ⟨seg, by simp, ?_⟩)
    obtain rfl := Option.some.inj
      ((TCPOverIPv4Adapter.segmentIn_wrapped hseg a.toTCPOverIPv4Adapter).symm.trans hseg')
    exact TCPOverIPv4Adapter.delivered_agrees _ seg
  · rintro e tun ⟨he, hwhole', hreceived, hsent⟩
    exact ⟨.kernel he, ⟨hwhole', hsent ▸ hput'⟩, hreceived⟩

/-- A TUN device carries what it is given. -/
instance : Faithful TCPOverIPv4OverTunFdAdapter where
  Sends := Sends
  sends_mono h hsegs := ⟨h.1, h.2.mono hsegs⟩
  carried h := h.2
  setConfig_sends _ h := h
  setConfig_taken _ _ := rfl
  setListening_sends _ h := h
  setListening_taken _ _ := rfl
  read_ends := read_ends
  write_ends := write_ends
  tick_ends _ h := Lib.ends_pure.mpr ⟨h, rfl⟩

end TCPOverIPv4OverTunFdAdapter

end Sponge
