/-
  Sponge.Ethernet.Codec

  Ethernet frames and ARP messages as byte strings, in both directions.

  A string that is long enough is the fields of one header, or of one message, with a rest
  behind them, so reading it comes down to reading what was written.  For ARP that settles
  acceptance as well: it depends on the first eight bytes alone (`arpCodec`).

  `EthernetHeader::parse` refuses a string shorter than a header without reading from it,
  and so without leaving an error in the parser, and the error in the parser is what
  `EthernetFrame::parse` returns.  A frame is therefore never refused: of a short string
  the header stays as it was and all of it becomes the payload (`frameCodec_iff`).
-/

import Sponge.Ethernet

namespace Sponge

open Lib.BigEndian

-- ============================================================================
-- Taking a string apart
-- ============================================================================

/-- The first bytes of a string, as an address. -/
theorem exists_address_append (bytes : Buffer) (h : 6 ≤ bytes.length) :
    ∃ (address : EthernetAddress) (rest : Buffer),
      bytes = address.toList ++ rest ∧ rest.length + 6 = bytes.length := by
  refine ⟨⟨bytes.take 6, by rw [List.length_take]; omega⟩, bytes.drop 6, ?_, ?_⟩
  · exact (List.take_append_drop 6 bytes).symm
  · rw [List.length_drop]
    omega

/-- The first bytes of a string, as a number. -/
theorem exists_toBytes_append {n : Nat} {bytes : Buffer} (h : n ≤ bytes.length) :
    ∃ (v : Nat) (rest : Buffer),
      v < 256 ^ n ∧ bytes = toBytes n v ++ rest ∧ rest.length + n = bytes.length := by
  refine ⟨field bytes 0 n, bytes.drop n, field_lt bytes 0 n, ?_, ?_⟩
  · have hfield := toBytes_field_append (show 0 + n ≤ bytes.length by omega)
    rw [Nat.zero_add, List.drop_zero] at hfield
    exact hfield.symm
  · rw [List.length_drop]
    omega

theorem exists_u8_append (bytes : Buffer) (h : 1 ≤ bytes.length) :
    ∃ (v : UInt8) (rest : Buffer),
      bytes = toBytes 1 v.toNat ++ rest ∧ rest.length + 1 = bytes.length := by
  obtain ⟨v, rest, hv, hbytes, hlen⟩ := exists_toBytes_append h
  exact ⟨UInt8.ofNatLT v hv, rest, hbytes, hlen⟩

theorem exists_u16_append (bytes : Buffer) (h : 2 ≤ bytes.length) :
    ∃ (v : UInt16) (rest : Buffer),
      bytes = toBytes 2 v.toNat ++ rest ∧ rest.length + 2 = bytes.length := by
  obtain ⟨v, rest, hv, hbytes, hlen⟩ := exists_toBytes_append h
  exact ⟨UInt16.ofNatLT v hv, rest, hbytes, hlen⟩

theorem exists_u32_append (bytes : Buffer) (h : 4 ≤ bytes.length) :
    ∃ (v : UInt32) (rest : Buffer),
      bytes = toBytes 4 v.toNat ++ rest ∧ rest.length + 4 = bytes.length := by
  obtain ⟨v, rest, hv, hbytes, hlen⟩ := exists_toBytes_append h
  exact ⟨UInt32.ofNatLT v hv, rest, hbytes, hlen⟩

-- ============================================================================
-- Frames
-- ============================================================================

namespace EthernetHeader

theorem serialize_eq (h : EthernetHeader) :
    h.serialize = h.dst.toList ++ (h.src.toList ++ toBytes 2 h.type.toNat) := by
  simp only [serialize, NetUnparser.u16, NetUnparser.unparseInt_eq, NetUnparser.bytes_eq,
    List.nil_append, List.append_assoc]

@[simp] theorem serialize_length (h : EthernetHeader) : h.serialize.length = length := by
  rw [serialize_eq]
  simp [length]

/-- A header is read back from the front of a string. -/
theorem parse_serialize (h₀ h : EthernetHeader) (rest : Buffer) :
    h₀.parse { buffer := h.serialize ++ rest } = (.noError, h, ⟨rest, .noError⟩) := by
  have hlen : ¬ (h.serialize ++ rest).length < length := by
    rw [List.length_append, serialize_length]
    omega
  have hread : readFields { buffer := h.serialize ++ rest } = (h, ⟨rest, .noError⟩) := by
    rw [serialize_eq]
    simp only [List.append_assoc, readFields, Reader.bind_apply, Reader.pure_apply,
      NetParser.bytes_append, NetParser.u16_toBytes]
  simp only [parse, if_neg hlen, hread]

/-- A string of at least 14 bytes starts with a header. -/
theorem exists_serialize_append {bytes : Buffer} (hlen : length ≤ bytes.length) :
    ∃ (h : EthernetHeader) (rest : Buffer), bytes = h.serialize ++ rest := by
  unfold length at hlen
  obtain ⟨dst, rest, rfl, hrest⟩ := exists_address_append bytes (by omega)
  obtain ⟨src, rest', rfl, hrest'⟩ := exists_address_append rest (by omega)
  obtain ⟨type, rest'', rfl, -⟩ := exists_u16_append rest' (by omega)
  refine ⟨{ dst, src, type }, rest'', ?_⟩
  rw [serialize_eq, List.append_assoc, List.append_assoc]

end EthernetHeader

namespace EthernetFrame

/-- A string that starts with a header is that header and a payload. -/
theorem parse_serialize_append (frame₀ : EthernetFrame) (h : EthernetHeader) (rest : Buffer) :
    frame₀.parse (h.serialize ++ rest) = (.noError, { header := h, payload := [rest] }) := by
  simp only [parse, EthernetHeader.parse_serialize]

/-- A string that is shorter than a header is all payload, and no error is reported. -/
theorem parse_short (frame₀ : EthernetFrame) {bytes : Buffer}
    (h : bytes.length < EthernetHeader.length) :
    frame₀.parse bytes = (.noError, { header := frame₀.header, payload := [bytes] }) := by
  simp only [parse, EthernetHeader.parse, if_pos h]

/-- The codec on a frame and on a byte string: the frame is read back with its payload in
    one piece, and the string is accepted if it is as long as a header, and then written
    out again as it was. -/
structure Codec (frame : EthernetFrame) (bytes : Buffer) : Prop where
  readsBack : ∀ frame₀ : EthernetFrame, frame₀.parse frame.serialize.flatten =
    (.noError, { header := frame.header, payload := [frame.payload.flatten] })
  accepts_iff : (parse {} bytes).1 = .noError ↔ EthernetHeader.length ≤ bytes.length
  reproduces : EthernetHeader.length ≤ bytes.length →
    (parse {} bytes).2.serialize.flatten = bytes

/-- **Frame codec.**  Frames are read back, and a string is treated as it should be exactly
    if it is as long as a header. -/
theorem frameCodec_iff (frame : EthernetFrame) (bytes : Buffer) :
    frame.Codec bytes ↔ EthernetHeader.length ≤ bytes.length := by
  constructor
  · intro h
    by_contra hshort
    refine hshort (h.accepts_iff.mp ?_)
    rw [parse_short _ (Nat.not_le.mp hshort)]
  · intro hlong
    obtain ⟨header, rest, rfl⟩ := EthernetHeader.exists_serialize_append hlong
    refine ⟨fun frame₀ => ?_, ?_, fun _ => ?_⟩
    · rw [serialize, List.flatten_cons, parse_serialize_append]
    · rw [parse_serialize_append]
      exact iff_of_true rfl hlong
    · rw [parse_serialize_append]
      simp [serialize]

/-- The empty string is accepted. -/
theorem frameCodec_fails :
    (parse {} []).1 = .noError ∧ ¬ EthernetHeader.length ≤ ([] : Buffer).length ∧
      ¬ Codec {} [] :=
  ⟨by decide, by decide, fun h => absurd (h.accepts_iff.mp (by decide)) (by decide)⟩

end EthernetFrame

-- ============================================================================
-- ARP messages
-- ============================================================================

namespace ARPMessage

/-- A string of at least 28 bytes starts with the fields of a message. -/
theorem exists_fieldBytes_append {bytes : Buffer} (hlen : length ≤ bytes.length) :
    ∃ (arp : ARPMessage) (rest : Buffer), bytes = arp.fieldBytes ++ rest := by
  unfold length at hlen
  obtain ⟨hardwareType, r₁, rfl, h₁⟩ := exists_u16_append bytes (by omega)
  obtain ⟨protocolType, r₂, rfl, h₂⟩ := exists_u16_append r₁ (by omega)
  obtain ⟨hardwareAddressSize, r₃, rfl, h₃⟩ := exists_u8_append r₂ (by omega)
  obtain ⟨protocolAddressSize, r₄, rfl, h₄⟩ := exists_u8_append r₃ (by omega)
  obtain ⟨opcode, r₅, rfl, h₅⟩ := exists_u16_append r₄ (by omega)
  obtain ⟨senderEthernetAddress, r₆, rfl, h₆⟩ := exists_address_append r₅ (by omega)
  obtain ⟨senderIpAddress, r₇, rfl, h₇⟩ := exists_u32_append r₆ (by omega)
  obtain ⟨targetEthernetAddress, r₈, rfl, h₈⟩ := exists_address_append r₇ (by omega)
  obtain ⟨targetIpAddress, rest, rfl, -⟩ := exists_u32_append r₈ (by omega)
  refine ⟨⟨hardwareType, protocolType, hardwareAddressSize, protocolAddressSize, opcode,
    senderEthernetAddress, senderIpAddress, targetEthernetAddress, targetIpAddress⟩, rest, ?_⟩
  simp only [fieldBytes, List.append_assoc]

/-- The first eight bytes of a message that is supported: Ethernet, IPv4, addresses of 6
    and 4 bytes, and the opcode. -/
def typeBytes (opcode : UInt8) : Buffer := [0, 1, 8, 0, 6, 4, 0, opcode]

/-- The string starts as a request or a reply does. -/
def StartsSupported (bytes : Buffer) : Prop :=
  bytes.take 8 = typeBytes 1 ∨ bytes.take 8 = typeBytes 2

instance (bytes : Buffer) : Decidable (StartsSupported bytes) :=
  inferInstanceAs (Decidable (_ ∨ _))

/-- The fields that decide whether a message is supported. -/
theorem take_fieldBytes (arp : ARPMessage) (rest : Buffer) :
    (arp.fieldBytes ++ rest).take 8 =
      toBytes 2 arp.hardwareType.toNat ++ (toBytes 2 arp.protocolType.toNat ++
      (toBytes 1 arp.hardwareAddressSize.toNat ++ (toBytes 1 arp.protocolAddressSize.toNat ++
      (toBytes 2 arp.opcode.toNat ++ [])))) := by
  have hsplit : arp.fieldBytes ++ rest =
      (toBytes 2 arp.hardwareType.toNat ++ (toBytes 2 arp.protocolType.toNat ++
      (toBytes 1 arp.hardwareAddressSize.toNat ++ (toBytes 1 arp.protocolAddressSize.toNat ++
      (toBytes 2 arp.opcode.toNat ++ []))))) ++ (arp.senderEthernetAddress.toList ++
      (toBytes 4 arp.senderIpAddress.toNat ++ (arp.targetEthernetAddress.toList ++
      (toBytes 4 arp.targetIpAddress.toNat ++ rest)))) := by
    simp only [fieldBytes, List.append_assoc, List.nil_append]
  rw [hsplit, List.take_left' (by simp)]

theorem take_fieldBytes_eq_iff (arp : ARPMessage) (rest : Buffer) {opcode : UInt8} :
    (arp.fieldBytes ++ rest).take 8 = typeBytes opcode ↔
      arp.hardwareType = typeEthernet ∧ arp.protocolType = EthernetHeader.typeIPv4 ∧
        arp.hardwareAddressSize = 6 ∧ arp.protocolAddressSize = 4 ∧
        arp.opcode = opcode.toUInt16 := by
  have htypes : typeBytes opcode = toBytes 2 typeEthernet.toNat ++
      (toBytes 2 EthernetHeader.typeIPv4.toNat ++ (toBytes 1 (6 : UInt8).toNat ++
      (toBytes 1 (4 : UInt8).toNat ++ (toBytes 2 opcode.toUInt16.toNat ++ [])))) := by
    have hlt := opcode.toNat_lt
    have hopcode : toBytes 2 opcode.toUInt16.toNat = [0, opcode] := by
      rw [UInt8.toNat_toUInt16]
      simp [toBytes, Nat.div_eq_of_lt hlt]
    rw [hopcode]
    rfl
  rw [take_fieldBytes, htypes, toBytes_append_inj (UInt16.toNat_lt _) (UInt16.toNat_lt _),
    toBytes_append_inj (UInt16.toNat_lt _) (UInt16.toNat_lt _),
    toBytes_append_inj (UInt8.toNat_lt _) (UInt8.toNat_lt _),
    toBytes_append_inj (UInt8.toNat_lt _) (UInt8.toNat_lt _),
    toBytes_append_inj (UInt16.toNat_lt _) (UInt16.toNat_lt _)]
  simp only [UInt16.toNat_inj, UInt8.toNat_inj, and_true]

theorem startsSupported_iff (arp : ARPMessage) (rest : Buffer) :
    StartsSupported (arp.fieldBytes ++ rest) ↔ arp.supported = true := by
  have hsupported : arp.supported = true ↔
      arp.hardwareType = typeEthernet ∧ arp.protocolType = EthernetHeader.typeIPv4 ∧
        arp.hardwareAddressSize = 6 ∧ arp.protocolAddressSize = 4 ∧
        (arp.opcode = opcodeRequest ∨ arp.opcode = opcodeReply) := decide_eq_true_iff
  have hrequest : (1 : UInt8).toUInt16 = opcodeRequest := rfl
  have hreply : (2 : UInt8).toUInt16 = opcodeReply := rfl
  rw [StartsSupported, take_fieldBytes_eq_iff, take_fieldBytes_eq_iff, hsupported, hrequest,
    hreply]
  simp only [← and_or_left]

/-- The codec on a message and on a byte string. -/
structure Codec (arp : ARPMessage) (bytes : Buffer) : Prop where
  readsBack : arp.supported = true → ∃ wire, arp.serialize = .ok wire ∧
    ∀ arp₀ : ARPMessage, arp₀.parse wire = (.noError, arp)
  accepts_iff : ∀ arp₀ : ARPMessage, (arp₀.parse bytes).1 = .noError ↔
    length ≤ bytes.length ∧ StartsSupported bytes
  reproduces : ∀ arp₀ : ARPMessage, (arp₀.parse bytes).1 = .noError →
    (arp₀.parse bytes).2.serialize = .ok (bytes.take length)

/-- **ARP codec.**  What is supported is written and read back, and what is accepted is
    written out again as it came. -/
theorem arpCodec (arp : ARPMessage) (bytes : Buffer) : arp.Codec bytes := by
  have hback : arp.supported = true → ∃ wire, arp.serialize = .ok wire ∧
      ∀ arp₀ : ARPMessage, arp₀.parse wire = (.noError, arp) :=
    fun h => ⟨_, serialize_of_supported h, parse_wireBytes h⟩
  by_cases hlong : length ≤ bytes.length
  · obtain ⟨found, rest, rfl⟩ := exists_fieldBytes_append hlong
    refine ⟨hback, fun arp₀ => ?_, fun arp₀ hok => ?_⟩
    · rw [parse_fieldBytes, startsSupported_iff]
      cases found.supported with
      | false => simp
      | true => simp
    · rw [parse_fieldBytes] at hok ⊢
      cases hsupported : found.supported with
      | false => simp [hsupported] at hok
      | true =>
          rw [if_pos rfl, serialize_of_supported hsupported, wireBytes_eq hsupported,
            List.take_left' found.fieldBytes_length]
  · have hparse : ∀ arp₀ : ARPMessage, arp₀.parse bytes = (.packetTooShort, arp₀) :=
      fun arp₀ => if_pos (Nat.not_le.mp hlong)
    refine ⟨hback, fun arp₀ => ?_, fun arp₀ hok => ?_⟩
    · rw [hparse]
      exact iff_of_false (by simp) fun h => hlong h.1
    · rw [hparse] at hok
      cases hok

end ARPMessage

end Sponge
