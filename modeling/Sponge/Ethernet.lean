/-
  Sponge.Ethernet

  Ethernet frames and ARP messages (`ethernet_header.hh`, `ethernet_header.cc`,
  `ethernet_frame.hh`, `ethernet_frame.cc`, `arp_message.hh`, `arp_message.cc`).
-/

import Mathlib.Data.Vector.Basic
import Sponge.Util.Parser

namespace Sponge

open Lib.BigEndian (toBytes)

/-- `EthernetAddress` -/
abbrev EthernetAddress := List.Vector UInt8 6

namespace EthernetAddress

/-- `EthernetAddress{}` -/
def zero : EthernetAddress := List.Vector.replicate 6 0

/-- `ETHERNET_BROADCAST` -/
def broadcast : EthernetAddress := List.Vector.replicate 6 0xff

end EthernetAddress

/-- The loop that reads an address byte by byte. -/
def NetParser.bytes : (n : Nat) → Reader (List.Vector UInt8 n)
  | 0 => pure .nil
  | n + 1 => do
      let byte ← NetParser.u8
      let rest ← NetParser.bytes n
      return byte ::ᵥ rest

/-- The loop that writes an address byte by byte. -/
def NetUnparser.bytes (s : Buffer) (address : EthernetAddress) : Buffer :=
  address.toList.foldl NetUnparser.u8 s

theorem NetUnparser.bytes_eq (s : Buffer) (address : EthernetAddress) :
    NetUnparser.bytes s address = s ++ address.toList := by
  have hfold : ∀ (l : List UInt8) (s : Buffer), l.foldl NetUnparser.u8 s = s ++ l := by
    intro l
    induction l with
    | nil => simp
    | cons b l ih =>
        intro s
        rw [List.foldl_cons, ih, NetUnparser.u8, NetUnparser.unparseInt_eq]
        simp [toBytes]
  exact hfold address.toList s

theorem NetParser.bytes_append {n : Nat} (address : List.Vector UInt8 n) (rest : Buffer) :
    NetParser.bytes n ⟨address.toList ++ rest, .noError⟩ = (address, ⟨rest, .noError⟩) := by
  induction n with
  | zero =>
      rw [address.eq_nil]
      rfl
  | succ n ih =>
      obtain ⟨byte, tail, rfl⟩ := address.exists_eq_cons
      have hu8 := NetParser.u8_toBytes byte (tail.toList ++ rest)
      have hbyte : toBytes 1 byte.toNat = [byte] := by simp [toBytes]
      rw [hbyte, List.singleton_append] at hu8
      rw [List.Vector.toList_cons, List.cons_append]
      simp only [NetParser.bytes, Reader.bind_apply, Reader.pure_apply, hu8, ih]

-- ============================================================================
-- Frames
-- ============================================================================

/-- `EthernetHeader`; `EthernetFrame` zero-initializes it. -/
structure EthernetHeader where
  dst : EthernetAddress := .zero
  src : EthernetAddress := .zero
  type : UInt16 := 0
deriving DecidableEq

namespace EthernetHeader

/-- `LENGTH` -/
def length : Nat := 14

/-- `TYPE_IPv4` -/
def typeIPv4 : UInt16 := 0x800

/-- `TYPE_ARP` -/
def typeARP : UInt16 := 0x806

/-- The reads of `parse`. -/
def readFields : Reader EthernetHeader := do
  let dst ← NetParser.bytes 6
  let src ← NetParser.bytes 6
  let type ← NetParser.u16
  return { dst, src, type }

/-- `parse(p)` -/
def parse (h : EthernetHeader) (p : NetParser) : ParseResult × EthernetHeader × NetParser :=
  if p.buffer.length < length then (.packetTooShort, h, p) else
  let (h, p) := readFields p
  (p.error, h, p)

/-- `serialize()` -/
def serialize (h : EthernetHeader) : Buffer :=
  let ret := NetUnparser.bytes [] h.dst
  let ret := NetUnparser.bytes ret h.src
  NetUnparser.u16 ret h.type

end EthernetHeader

/-- `EthernetFrame` -/
structure EthernetFrame where
  header : EthernetHeader := {}
  payload : BufferList := []
deriving DecidableEq

/-- `EthernetFrame::parse(buffer)`: here too the header's verdict is thrown away. -/
def EthernetFrame.parse (frame : EthernetFrame) (buffer : Buffer) : ParseResult × EthernetFrame :=
  let (_, header, p) := frame.header.parse { buffer }
  (p.error, { header, payload := [p.buffer] })

/-- `EthernetFrame::serialize()` -/
def EthernetFrame.serialize (frame : EthernetFrame) : BufferList :=
  frame.header.serialize :: frame.payload

-- ============================================================================
-- ARP messages
-- ============================================================================

/-- `ARPMessage` -/
structure ARPMessage where
  hardwareType : UInt16 := 1
  protocolType : UInt16 := EthernetHeader.typeIPv4
  hardwareAddressSize : UInt8 := 6
  protocolAddressSize : UInt8 := 4
  opcode : UInt16 := 0
  senderEthernetAddress : EthernetAddress := .zero
  senderIpAddress : UInt32 := 0
  targetEthernetAddress : EthernetAddress := .zero
  targetIpAddress : UInt32 := 0
deriving DecidableEq

namespace ARPMessage

/-- `LENGTH` -/
def length : Nat := 28

/-- `TYPE_ETHERNET` -/
def typeEthernet : UInt16 := 1

/-- `OPCODE_REQUEST` -/
def opcodeRequest : UInt16 := 1

/-- `OPCODE_REPLY` -/
def opcodeReply : UInt16 := 2

/-- `supported()` -/
def supported (arp : ARPMessage) : Bool :=
  arp.hardwareType = typeEthernet ∧ arp.protocolType = EthernetHeader.typeIPv4 ∧
    arp.hardwareAddressSize = 6 ∧ arp.protocolAddressSize = 4 ∧
    (arp.opcode = opcodeRequest ∨ arp.opcode = opcodeReply)

/-- The reads of `parse` that decide whether the message is supported. -/
def readTypes (arp : ARPMessage) : Reader ARPMessage := do
  let hardwareType ← NetParser.u16
  let protocolType ← NetParser.u16
  let hardwareAddressSize ← NetParser.u8
  let protocolAddressSize ← NetParser.u8
  let opcode ← NetParser.u16
  return { arp with hardwareType, protocolType, hardwareAddressSize, protocolAddressSize, opcode }

/-- The reads of `parse` behind them. -/
def readAddresses (arp : ARPMessage) : Reader ARPMessage := do
  let senderEthernetAddress ← NetParser.bytes 6
  let senderIpAddress ← NetParser.u32
  let targetEthernetAddress ← NetParser.bytes 6
  let targetIpAddress ← NetParser.u32
  return { arp with
    senderEthernetAddress, senderIpAddress, targetEthernetAddress, targetIpAddress }

/-- `parse(buffer)` -/
def parse (arp : ARPMessage) (buffer : Buffer) : ParseResult × ARPMessage :=
  if buffer.length < length then (.packetTooShort, arp) else
  let (arp, p) := arp.readTypes { buffer }
  if ¬ arp.supported then (.unsupported, arp) else
  let (arp, p) := arp.readAddresses p
  (p.error, arp)

/-- `serialize()` -/
def serialize (arp : ARPMessage) : Except Exn Buffer :=
  if ¬ arp.supported then
    .error (.runtimeError
      "ARPMessage::serialize(): unsupported field combination (must be Ethernet/IP, and request or reply)")
  else
    let ret := NetUnparser.u16 [] arp.hardwareType
    let ret := NetUnparser.u16 ret arp.protocolType
    let ret := NetUnparser.u8 ret arp.hardwareAddressSize
    let ret := NetUnparser.u8 ret arp.protocolAddressSize
    let ret := NetUnparser.u16 ret arp.opcode
    let ret := NetUnparser.bytes ret arp.senderEthernetAddress
    let ret := NetUnparser.u32 ret arp.senderIpAddress
    let ret := NetUnparser.bytes ret arp.targetEthernetAddress
    .ok (NetUnparser.u32 ret arp.targetIpAddress)

/-- What the message is on the wire; nothing if `serialize()` throws. -/
def wireBytes (arp : ARPMessage) : Buffer :=
  match arp.serialize with
  | .ok bytes => bytes
  | .error _ => []

theorem serialize_of_supported {arp : ARPMessage} (h : arp.supported = true) :
    arp.serialize = .ok arp.wireBytes := by
  unfold wireBytes serialize
  rw [if_neg (by simp [h])]

-- ============================================================================
-- Reading back what was written
-- ============================================================================

/-- The fields in the order of the wire, whatever they hold. -/
def fieldBytes (arp : ARPMessage) : Buffer :=
  toBytes 2 arp.hardwareType.toNat ++ (toBytes 2 arp.protocolType.toNat ++
  (toBytes 1 arp.hardwareAddressSize.toNat ++ (toBytes 1 arp.protocolAddressSize.toNat ++
  (toBytes 2 arp.opcode.toNat ++ (arp.senderEthernetAddress.toList ++
  (toBytes 4 arp.senderIpAddress.toNat ++ (arp.targetEthernetAddress.toList ++
  toBytes 4 arp.targetIpAddress.toNat)))))))

@[simp] theorem fieldBytes_length (arp : ARPMessage) : arp.fieldBytes.length = length := by
  simp [fieldBytes, length]

/-- The message on the wire, field by field. -/
theorem wireBytes_eq {arp : ARPMessage} (h : arp.supported = true) :
    arp.wireBytes = arp.fieldBytes := by
  have hserialize := serialize_of_supported h
  simp only [serialize, h, not_true, if_false, NetUnparser.u8, NetUnparser.u16, NetUnparser.u32,
    NetUnparser.unparseInt_eq, NetUnparser.bytes_eq, List.nil_append, List.append_assoc] at hserialize
  exact (Except.ok.inj hserialize).symm

/-- The message with the types of another one. -/
def withTypes (arp₀ arp : ARPMessage) : ARPMessage :=
  { arp₀ with
    hardwareType := arp.hardwareType, protocolType := arp.protocolType,
    hardwareAddressSize := arp.hardwareAddressSize,
    protocolAddressSize := arp.protocolAddressSize, opcode := arp.opcode }

/-- The fields of a message are read one after the other; what comes behind them does not
    matter. -/
theorem parse_fieldBytes (arp₀ arp : ARPMessage) (rest : Buffer) :
    arp₀.parse (arp.fieldBytes ++ rest) =
      if arp.supported then (.noError, arp) else (.unsupported, arp₀.withTypes arp) := by
  have hlen : ¬ (arp.fieldBytes ++ rest).length < length := by
    rw [List.length_append, fieldBytes_length]
    omega
  have htypes : arp₀.readTypes { buffer := arp.fieldBytes ++ rest } =
      (arp₀.withTypes arp,
        ⟨arp.senderEthernetAddress.toList ++ (toBytes 4 arp.senderIpAddress.toNat ++
          (arp.targetEthernetAddress.toList ++ (toBytes 4 arp.targetIpAddress.toNat ++ rest))),
          .noError⟩) := by
    simp only [fieldBytes, List.append_assoc, readTypes, Reader.bind_apply, Reader.pure_apply,
      NetParser.u8_toBytes, NetParser.u16_toBytes]
    rfl
  -- whether the message is supported depends on the types only
  have hsupported : (arp₀.withTypes arp).supported = arp.supported := rfl
  simp only [parse, if_neg hlen, htypes, hsupported]
  cases arp.supported with
  | false => rfl
  | true =>
      simp only [readAddresses, withTypes, Reader.bind_apply, Reader.pure_apply,
        NetParser.bytes_append, NetParser.u32_toBytes]
      rfl

/-- A message that the interface can send is read back. -/
theorem parse_wireBytes {arp : ARPMessage} (h : arp.supported = true) (arp₀ : ARPMessage) :
    arp₀.parse arp.wireBytes = (.noError, arp) := by
  have hparse := arp₀.parse_fieldBytes arp []
  rwa [List.append_nil, if_pos h, ← wireBytes_eq h] at hparse

end ARPMessage

end Sponge
