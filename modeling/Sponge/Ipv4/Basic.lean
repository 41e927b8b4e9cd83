/-
  Sponge.Ipv4.Basic

  IPv4 headers and datagrams (`ipv4_header.hh`, `ipv4_header.cc`,
  `ipv4_datagram.hh`, `ipv4_datagram.cc`).

  `IPv4Header.parse` reports its verdict by its return value and leaves the parser's own
  error alone, and `IPv4Datagram.parse` looks only at the latter and at the length of
  the payload.  Serializing checks what parsing did not insist on, and throws.
-/

import Sponge.Util.Parser
import Sponge.Util.Checksum

namespace Sponge

open Lib.BigEndian

/-- `IPv4Header` -/
structure IPv4Header where
  ver : UInt8 := 4
  hlen : UInt8 := 5
  tos : UInt8 := 0
  len : UInt16 := 0
  id : UInt16 := 0
  df : Bool := true
  mf : Bool := false
  offset : UInt16 := 0
  ttl : UInt8 := 128
  proto : UInt8 := 6
  cksum : UInt16 := 0
  src : UInt32 := 0
  dst : UInt32 := 0
deriving DecidableEq, Repr

namespace IPv4Header

/-- `LENGTH`: the length of a header without options. -/
def length : Nat := 20

/-- `payload_length()` -/
def payloadLength (h : IPv4Header) : UInt16 := h.len - 4 * h.hlen.toUInt16

/-- `pseudo_cksum()` -/
def pseudoCksum (h : IPv4Header) : UInt32 :=
  let pcksum := (h.src >>> 16) + (h.src &&& 0xffff)
  let pcksum := pcksum + ((h.dst >>> 16) + (h.dst &&& 0xffff))
  let pcksum := pcksum + h.proto.toUInt32
  pcksum + h.payloadLength.toUInt32

/-- The reads of `parse`. -/
def readFields : Reader IPv4Header := do
  let firstByte ← NetParser.u8
  let tos ← NetParser.u8
  let len ← NetParser.u16
  let id ← NetParser.u16
  let foVal ← NetParser.u16
  let ttl ← NetParser.u8
  let proto ← NetParser.u8
  let cksum ← NetParser.u16
  let src ← NetParser.u32
  let dst ← NetParser.u32
  return { ver := firstByte >>> 4, hlen := firstByte &&& 0x0f, tos, len, id,
           df := foVal &&& 0x4000 ≠ 0, mf := foVal &&& 0x2000 ≠ 0, offset := foVal &&& 0x1fff,
           ttl, proto, cksum, src, dst }

/-- `parse(p)` -/
def parse (h : IPv4Header) (p : NetParser) : ParseResult × IPv4Header × NetParser :=
  let originalSerializedVersion := p.buffer
  let dataSize := p.buffer.length
  if dataSize < length then (.packetTooShort, h, p) else
  let (h, p) := readFields p
  if dataSize < 4 * h.hlen.toNat then (.packetTooShort, h, p) else
  if h.ver ≠ 4 then (.wrongIPVersion, h, p) else
  if h.hlen < 5 then (.headerTooShort, h, p) else
  if dataSize ≠ h.len.toNat then (.truncatedPacket, h, p) else
  let p := p.removePrefix (h.hlen.toNat * 4 - length)
  if p.error ≠ .noError then (p.error, h, p) else
  let check := InternetChecksum.new.add (originalSerializedVersion.take (4 * h.hlen.toNat))
  if check.value ≠ 0 then (.badChecksum, h, p) else (.noError, h, p)

/-- `serialize()` -/
def serialize (h : IPv4Header) : Except Exn Buffer :=
  if h.ver ≠ 4 then .error (.runtimeError "wrong IP version") else
  if 4 * h.hlen.toNat < length then .error (.runtimeError "IP header too short") else
  let firstByte := (h.ver <<< 4) ||| (h.hlen &&& 0xf)
  let ret := NetUnparser.u8 [] firstByte
  let ret := NetUnparser.u8 ret h.tos
  let ret := NetUnparser.u16 ret h.len
  let ret := NetUnparser.u16 ret h.id
  let foVal := (if h.df then 0x4000 else 0) ||| (if h.mf then 0x2000 else 0) ||| (h.offset &&& 0x1fff)
  let ret := NetUnparser.u16 ret foVal
  let ret := NetUnparser.u8 ret h.ttl
  let ret := NetUnparser.u8 ret h.proto
  let ret := NetUnparser.u16 ret h.cksum
  let ret := NetUnparser.u32 ret h.src
  let ret := NetUnparser.u32 ret h.dst
  -- expand header to advertised size
  .ok (ret.rightpad (4 * h.hlen.toNat) 0)

end IPv4Header

/-- `IPv4Datagram`, also called `InternetDatagram` -/
structure IPv4Datagram where
  header : IPv4Header := {}
  payload : BufferList := []
deriving DecidableEq, Repr

namespace IPv4Datagram

/-- `parse(buffer)` -/
def parse (d : IPv4Datagram) (buffer : Buffer) : ParseResult × IPv4Datagram :=
  let (_, header, p) := d.header.parse { buffer }
  let d : IPv4Datagram := { header, payload := [p.buffer] }
  if d.payload.size ≠ d.header.payloadLength.toNat then (.packetTooShort, d) else (p.error, d)

/-- `serialize()` -/
def serialize (d : IPv4Datagram) : Except Exn BufferList :=
  if d.payload.size ≠ d.header.payloadLength.toNat then
    .error (.runtimeError "IPv4Datagram::serialize: payload is wrong size")
  else do
    let headerOut := { d.header with cksum := 0 }
    let headerZeroChecksum ← headerOut.serialize
    let check := InternetChecksum.new.add headerZeroChecksum
    let headerOut := { headerOut with cksum := check.value }
    let header ← headerOut.serialize
    return header :: d.payload

end IPv4Datagram

-- ============================================================================
-- Datagrams that serialize
-- ============================================================================

namespace IPv4Datagram

/-- What the datagram is on the wire; nothing if `serialize()` throws. -/
def wireBytes (d : IPv4Datagram) : BufferList :=
  match d.serialize with
  | .ok bytes => bytes
  | .error _ => []

/-- `serialize()` does not throw. -/
def Serializes (d : IPv4Datagram) : Prop := d.serialize = .ok d.wireBytes

theorem serializes_of_eq_ok {d : IPv4Datagram} {b : BufferList} (h : d.serialize = .ok b) :
    d.Serializes := by
  unfold Serializes wireBytes
  rw [h]

instance (d : IPv4Datagram) : Decidable d.Serializes :=
  match h : d.serialize with
  | .ok _ => isTrue (serializes_of_eq_ok h)
  | .error e => isFalse (by unfold Serializes; rw [h]; exact fun h => nomatch h)

/-- What `serialize()` insists on. -/
theorem serializes_iff {d : IPv4Datagram} :
    d.Serializes ↔ d.payload.size = d.header.payloadLength.toNat ∧ d.header.ver = 4 ∧
      IPv4Header.length ≤ 4 * d.header.hlen.toNat := by
  constructor
  · intro h
    unfold Serializes at h
    generalize d.wireBytes = bytes at h
    unfold serialize at h
    split at h
    · cases h
    · rename_i hsize
      by_cases hver : d.header.ver = 4
      · by_cases hlen : 4 * d.header.hlen.toNat < IPv4Header.length
        · simp only [IPv4Header.serialize, hver, hlen] at h
          cases h
        · exact ⟨not_not.mp hsize, hver, Nat.not_lt.mp hlen⟩
      · simp only [IPv4Header.serialize, if_pos hver] at h
        cases h
  · rintro ⟨hsize, hver, hlen⟩
    have hserialize : ∀ cksum : UInt16,
        ∃ bytes, ({ d.header with cksum } : IPv4Header).serialize = .ok bytes := by
      intro cksum
      unfold IPv4Header.serialize
      rw [if_neg (not_not.mpr hver), if_neg (Nat.not_lt.mpr hlen)]
      exact ⟨_, rfl⟩
    obtain ⟨zeroed, hzeroed⟩ := hserialize 0
    obtain ⟨bytes, hbytes⟩ := hserialize (InternetChecksum.new.add zeroed).value
    apply serializes_of_eq_ok (b := bytes :: d.payload)
    unfold serialize
    rw [if_neg (not_not.mpr hsize)]
    simp only [hzeroed, bind, Except.bind, hbytes]
    rfl

end IPv4Datagram

-- ============================================================================
-- The fields of a header
-- ============================================================================

/-- The version nibble. -/
def versionOf (bytes : Buffer) : Nat := field bytes 0 1 / 16

/-- The header length field, in units of four bytes. -/
def hlenOf (bytes : Buffer) : Nat := field bytes 0 1 % 16

/-- The total length field. -/
def totalLengthOf (bytes : Buffer) : Nat := field bytes 2 2

/-- The payload length the header declares, in 16-bit arithmetic. -/
def declaredPayloadLength (bytes : Buffer) : Nat :=
  (totalLengthOf bytes + (65536 - 4 * hlenOf bytes)) % 65536

theorem hlenOf_lt (bytes : Buffer) : hlenOf bytes < 16 := Nat.mod_lt _ (by decide)

namespace IPv4Header

/-- The header that the first 20 bytes spell. -/
def ofBytes (bytes : Buffer) : IPv4Header :=
  let firstByte := (field bytes 0 1).toUInt8
  let foVal := (field bytes 6 2).toUInt16
  { ver := firstByte >>> 4, hlen := firstByte &&& 0x0f, tos := (field bytes 1 1).toUInt8,
    len := (field bytes 2 2).toUInt16, id := (field bytes 4 2).toUInt16,
    df := foVal &&& 0x4000 ≠ 0, mf := foVal &&& 0x2000 ≠ 0, offset := foVal &&& 0x1fff,
    ttl := (field bytes 8 1).toUInt8, proto := (field bytes 9 1).toUInt8,
    cksum := (field bytes 10 2).toUInt16, src := (field bytes 12 4).toUInt32,
    dst := (field bytes 16 4).toUInt32 }

theorem readFields_eq {bytes : Buffer} (h : 20 ≤ bytes.length) :
    readFields { buffer := bytes } = (ofBytes bytes, ⟨bytes.drop 20, .noError⟩) := by
  show readFields ⟨bytes.drop 0, .noError⟩ = _
  simp (disch := omega) only [readFields, Reader.bind_apply, Reader.pure_apply, NetParser.u8_at,
    NetParser.u16_at, NetParser.u32_at]
  rfl

section

variable (bytes : Buffer)

theorem ver_ofBytes : (ofBytes bytes).ver.toNat = versionOf bytes :=
  NetParser.toNat_upperHalf bytes 0

theorem hlen_ofBytes : (ofBytes bytes).hlen.toNat = hlenOf bytes :=
  NetParser.toNat_lowerHalf bytes 0

theorem len_ofBytes : (ofBytes bytes).len.toNat = totalLengthOf bytes := by
  have hlt := field_lt bytes 2 2
  show ((field bytes 2 2).toUInt16).toNat = _
  simp only [Nat.toUInt16_eq, UInt16.toNat_ofNat', Nat.reducePow] at hlt ⊢
  exact Nat.mod_eq_of_lt hlt

theorem payloadLength_ofBytes :
    (ofBytes bytes).payloadLength.toNat = declaredPayloadLength bytes := by
  have hlen := hlen_ofBytes bytes
  have htotal := len_ofBytes bytes
  have hlt := hlenOf_lt bytes
  unfold payloadLength declaredPayloadLength
  simp only [UInt16.toNat_sub, UInt16.toNat_mul, UInt8.toNat_toUInt16, hlen, htotal,
    UInt16.reduceToNat]
  omega

end

/-- The sum over the pseudo-header, which does not overflow. -/
theorem pseudoCksum_toNat (h : IPv4Header) :
    h.pseudoCksum.toNat = Lib.OnesComplement.carry h.src.toNat +
      Lib.OnesComplement.carry h.dst.toNat + h.proto.toNat + h.payloadLength.toNat := by
  have hsrc := Lib.OnesComplement.carry_le h.src.toNat_lt
  have hdst := Lib.OnesComplement.carry_le h.dst.toNat_lt
  have hproto := h.proto.toNat_lt
  have hlen := h.payloadLength.toNat_lt
  rw [← InternetChecksum.toNat_carry] at hsrc hdst ⊢
  rw [← InternetChecksum.toNat_carry]
  simp only [pseudoCksum]
  generalize (h.src >>> 16) + (h.src &&& 0xffff) = src at hsrc ⊢
  generalize (h.dst >>> 16) + (h.dst &&& 0xffff) = dst at hdst ⊢
  simp only [UInt32.toNat_add, UInt8.toNat_toUInt32, UInt16.toNat_toUInt32]
  omega

theorem pseudoCksum_lt (h : IPv4Header) : h.pseudoCksum.toNat < 2 ^ 19 := by
  have hsrc := Lib.OnesComplement.carry_le h.src.toNat_lt
  have hdst := Lib.OnesComplement.carry_le h.dst.toNat_lt
  have hproto := h.proto.toNat_lt
  have hlen := h.payloadLength.toNat_lt
  rw [pseudoCksum_toNat]
  omega

end IPv4Header

end Sponge
