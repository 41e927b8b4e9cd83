/-
  Sponge.Ipv4.Codec

  Parsing undoes the serialization of IPv4 datagrams.

  The header's fixed part is a `Layout` of ten fields.  Two of them are shared: version
  and header length are the halves of the first byte, and the fragment offset has two
  flags above it.  The checksum is taken over the header alone, options included.  What
  comes back is judged well formed, so the header's own parser accepts it as well.
-/

import Mathlib.Data.Nat.Bitwise
import Sponge.Ipv4.Acceptance

namespace Sponge

open Lib.BigEndian
open Lib.OnesComplement (checksum checksum_completed)

namespace IPv4Header

-- ============================================================================
-- Shared fields
-- ============================================================================

/-- The first byte, with the version above the header length. -/
def firstByte (h : IPv4Header) : UInt8 := (h.ver <<< 4) ||| (h.hlen &&& 0xf)

/-- `fo_val`: the two flags above the fragment offset. -/
def foVal (h : IPv4Header) : UInt16 :=
  (if h.df then 0x4000 else 0) ||| (if h.mf then 0x2000 else 0) ||| (h.offset &&& 0x1fff)

theorem firstByte_toNat {h : IPv4Header} (hver : h.ver = 4) (hhlen : h.hlen.toNat < 16) :
    h.firstByte.toNat = 64 + h.hlen.toNat := by
  have hand : h.hlen.toNat &&& 15 = h.hlen.toNat :=
    (Nat.and_two_pow_sub_one_eq_mod _ 4).trans (Nat.mod_eq_of_lt hhlen)
  have hor := Nat.two_pow_add_eq_or_of_lt (i := 4) hhlen 4
  rw [firstByte, hver, UInt8.toNat_or, UInt8.toNat_and]
  show 64 ||| (h.hlen.toNat &&& 15) = _
  rw [hand]
  exact hor.symm

theorem foVal_toNat {h : IPv4Header} (hoffset : h.offset.toNat < 2 ^ 13) :
    h.foVal.toNat =
      2 ^ 13 * ((if h.df then 2 else 0) + if h.mf then 1 else 0) + h.offset.toNat := by
  have hand : h.offset.toNat &&& 8191 = h.offset.toNat :=
    (Nat.and_two_pow_sub_one_eq_mod _ 13).trans (Nat.mod_eq_of_lt hoffset)
  have hflags : ((if h.df then 0x4000 else 0) ||| (if h.mf then 0x2000 else 0) : UInt16).toNat =
      2 ^ 13 * ((if h.df then 2 else 0) + if h.mf then 1 else 0) := by
    cases h.df <;> cases h.mf <;> rfl
  rw [foVal, UInt16.toNat_or, hflags, UInt16.toNat_and]
  show _ ||| (h.offset.toNat &&& 8191) = _
  rw [hand]
  exact (Nat.two_pow_add_eq_or_of_lt hoffset _).symm

/-- Testing one bit of a word. -/
theorem and_two_pow_ne_zero_iff {x mask : UInt16} {i : Nat} (hmask : mask.toNat = 2 ^ i) :
    x &&& mask ≠ 0 ↔ x.toNat / 2 ^ i % 2 = 1 := by
  rw [← UInt16.toNat_inj.ne, UInt16.toNat_and, hmask, Nat.and_two_pow,
    Nat.testBit_eq_decide_div_mod_eq]
  by_cases h : x.toNat / 2 ^ i % 2 = 1 <;> simp [h]

/-- The two flags and the offset are read back from the word they share. -/
theorem foVal_bits {h : IPv4Header} (hoffset : h.offset.toNat < 2 ^ 13) :
    decide (h.foVal &&& 0x4000 ≠ 0) = h.df ∧ decide (h.foVal &&& 0x2000 ≠ 0) = h.mf ∧
      h.foVal &&& 0x1fff = h.offset := by
  have hval := foVal_toNat hoffset
  have hdf : h.foVal &&& 0x4000 ≠ 0 ↔ h.df = true := by
    rw [and_two_pow_ne_zero_iff (i := 14) rfl, hval]
    cases h.df <;> cases h.mf <;> simp <;> omega
  have hmf : h.foVal &&& 0x2000 ≠ 0 ↔ h.mf = true := by
    rw [and_two_pow_ne_zero_iff (i := 13) rfl, hval]
    cases h.df <;> cases h.mf <;> simp <;> omega
  refine ⟨by simp [hdf], by simp [hmf], ?_⟩
  apply UInt16.toNat_inj.mp
  rw [UInt16.toNat_and, hval]
  exact (Nat.and_two_pow_sub_one_eq_mod _ 13).trans (by omega)

-- ============================================================================
-- The header
-- ============================================================================

/-- What can be sent: the fields fit in their bits, and the header has room for them. -/
structure Encodable (h : IPv4Header) : Prop where
  ver_eq : h.ver = 4
  hlen_ge : 5 ≤ h.hlen.toNat
  hlen_le : h.hlen.toNat ≤ 15
  offset_lt : h.offset.toNat < 2 ^ 13

/-- The fields in the order of the wire. -/
def layout (h : IPv4Header) : Layout :=
  [(1, h.firstByte.toNat), (1, h.tos.toNat), (2, h.len.toNat), (2, h.id.toNat),
   (2, h.foVal.toNat), (1, h.ttl.toNat), (1, h.proto.toNat), (2, h.cksum.toNat),
   (4, h.src.toNat), (4, h.dst.toNat)]

/-- The header on the wire: its fields, and zeros for the options. -/
def wire (h : IPv4Header) : Buffer :=
  h.layout.bytes ++ List.replicate (4 * h.hlen.toNat - 20) 0

variable {h : IPv4Header}

theorem Encodable.setCksum (he : h.Encodable) (cksum : UInt16) :
    ({ h with cksum } : IPv4Header).Encodable :=
  ⟨he.ver_eq, he.hlen_ge, he.hlen_le, he.offset_lt⟩

theorem serialize_eq (he : h.Encodable) : h.serialize = .ok h.wire := by
  have hge : ¬ 4 * h.hlen.toNat < length := by
    have := he.hlen_ge
    unfold length
    omega
  simp only [serialize, if_neg (not_not.mpr he.ver_eq), if_neg hge, NetUnparser.u8,
    NetUnparser.u16, NetUnparser.u32, NetUnparser.unparseInt_eq, List.nil_append]
  simp only [wire, layout, firstByte, foVal, Layout.bytes_cons, Layout.bytes_nil, List.rightpad,
    List.append_assoc, List.append_nil, List.length_append, toBytes_length]

theorem wire_length (he : h.Encodable) : h.wire.length = 4 * h.hlen.toNat := by
  have hge := he.hlen_ge
  have hwidth : h.layout.width = 20 := by simp [layout, Layout.width]
  rw [wire, List.length_append, List.length_replicate, Layout.bytes_length, hwidth]
  omega

/-- Reading the fields back. -/
theorem ofBytes_layout (he : h.Encodable) (rest : List UInt8) :
    ofBytes (h.layout.bytes ++ rest) = h := by
  have hfirst : field (h.layout.bytes ++ rest) 0 1 = h.firstByte.toNat :=
    Layout.field_bytes (i := 0) rfl h.firstByte.toNat_lt rest
  have htos : field (h.layout.bytes ++ rest) 1 1 = h.tos.toNat :=
    Layout.field_bytes (i := 1) rfl h.tos.toNat_lt rest
  have hlen : field (h.layout.bytes ++ rest) 2 2 = h.len.toNat :=
    Layout.field_bytes (i := 2) rfl h.len.toNat_lt rest
  have hid : field (h.layout.bytes ++ rest) 4 2 = h.id.toNat :=
    Layout.field_bytes (i := 3) rfl h.id.toNat_lt rest
  have hfo : field (h.layout.bytes ++ rest) 6 2 = h.foVal.toNat :=
    Layout.field_bytes (i := 4) rfl h.foVal.toNat_lt rest
  have httl : field (h.layout.bytes ++ rest) 8 1 = h.ttl.toNat :=
    Layout.field_bytes (i := 5) rfl h.ttl.toNat_lt rest
  have hproto : field (h.layout.bytes ++ rest) 9 1 = h.proto.toNat :=
    Layout.field_bytes (i := 6) rfl h.proto.toNat_lt rest
  have hcksum : field (h.layout.bytes ++ rest) 10 2 = h.cksum.toNat :=
    Layout.field_bytes (i := 7) rfl h.cksum.toNat_lt rest
  have hsrc : field (h.layout.bytes ++ rest) 12 4 = h.src.toNat :=
    Layout.field_bytes (i := 8) rfl h.src.toNat_lt rest
  have hdst : field (h.layout.bytes ++ rest) 16 4 = h.dst.toNat :=
    Layout.field_bytes (i := 9) rfl h.dst.toNat_lt rest
  have hval := firstByte_toNat he.ver_eq (Nat.lt_succ_of_le he.hlen_le)
  have hver : (ofBytes (h.layout.bytes ++ rest)).ver = h.ver := by
    have hle := he.hlen_le
    apply UInt8.toNat_inj.mp
    rw [ver_ofBytes, versionOf, hfirst, hval, he.ver_eq]
    show _ = 4
    omega
  have hhlen : (ofBytes (h.layout.bytes ++ rest)).hlen = h.hlen := by
    have hle := he.hlen_le
    apply UInt8.toNat_inj.mp
    rw [hlen_ofBytes, hlenOf, hfirst, hval]
    omega
  obtain ⟨hdf, hmf, hoffset⟩ := foVal_bits he.offset_lt
  simp only [ofBytes] at hver hhlen ⊢
  simp only [hver, hhlen, htos, hlen, hid, hfo, httl, hproto, hcksum, hsrc, hdst,
    Nat.toUInt8_eq, Nat.toUInt16_eq, Nat.toUInt32_eq, UInt8.ofNat_toNat, UInt16.ofNat_toNat,
    UInt32.ofNat_toNat, hdf, hmf, hoffset]

/-- The bytes around the checksum field. -/
theorem wire_setCksum (h : IPv4Header) : ∃ before after : Buffer, before.length = 10 ∧
    ∀ cksum, ({ h with cksum } : IPv4Header).wire =
      before ++ (toBytes 2 cksum.toNat ++ after) := by
  refine ⟨Layout.bytes (h.layout.take 7), toBytes 4 h.src.toNat ++ (toBytes 4 h.dst.toNat ++
    List.replicate (4 * h.hlen.toNat - 20) 0), ?_, ?_⟩
  · rw [Layout.bytes_length]
    rfl
  · intro cksum
    have hlayout : ({ h with cksum } : IPv4Header).layout =
        h.layout.take 7 ++ [(2, cksum.toNat), (4, h.src.toNat), (4, h.dst.toNat)] := rfl
    rw [wire, hlayout]
    simp only [Layout.bytes_append, Layout.bytes_cons, Layout.bytes_nil, List.append_assoc,
      List.nil_append]

/-- The checksum that `IPv4Datagram.serialize` puts into the header. -/
def computedCksum (h : IPv4Header) : UInt16 :=
  (InternetChecksum.new.add ({ h with cksum := 0 } : IPv4Header).wire).value

/-- The computed checksum completes the sum. -/
theorem checksum_wire (he : h.Encodable) :
    checksum 0 ({ h with cksum := h.computedCksum } : IPv4Header).wire = 0 := by
  obtain ⟨before, after, hlen, hwire⟩ := h.wire_setCksum
  have hcksum : checksum 0 ({ h with cksum := 0 } : IPv4Header).wire = h.computedCksum.toNat := by
    have hle := he.hlen_le
    have hlength := wire_length (he.setCksum 0)
    have hzero : (0 : UInt32).toNat = 0 := rfl
    refine (InternetChecksum.value_add 0 ?_).symm
    simp only at hlength
    omega
  rw [hwire] at hcksum ⊢
  exact checksum_completed (by rw [hlen]) hcksum

end IPv4Header

-- ============================================================================
-- The datagram
-- ============================================================================

namespace IPv4Datagram

/-- What can be sent: an encodable header that announces the length of the payload. -/
structure Encodable (d : IPv4Datagram) : Prop where
  header : d.header.Encodable
  len_eq : d.header.len.toNat = 4 * d.header.hlen.toNat + d.payload.size

/-- The header as it is sent. -/
def headerOut (d : IPv4Datagram) : IPv4Header := { d.header with cksum := d.header.computedCksum }

variable {d : IPv4Datagram}

/-- The pseudo-header sum does not depend on the header's own checksum. -/
theorem pseudoCksum_headerOut (d : IPv4Datagram) :
    d.headerOut.pseudoCksum = d.header.pseudoCksum := rfl

theorem Encodable.payloadLength (h : d.Encodable) :
    d.header.payloadLength.toNat = d.payload.size := by
  have hlen := h.len_eq
  have hle := h.header.hlen_le
  have hlt := d.header.len.toNat_lt
  unfold IPv4Header.payloadLength
  simp only [UInt16.toNat_sub, UInt16.toNat_mul, UInt8.toNat_toUInt16, UInt16.reduceToNat]
  omega

theorem serialize_eq (h : d.Encodable) : d.serialize = .ok (d.headerOut.wire :: d.payload) := by
  have hsize : ¬ d.payload.size ≠ d.header.payloadLength.toNat :=
    not_not.mpr h.payloadLength.symm
  have hwire : ∀ cksum : UInt16, ({ d.header with cksum } : IPv4Header).serialize =
      .ok ({ d.header with cksum } : IPv4Header).wire :=
    fun cksum => IPv4Header.serialize_eq (h.header.setCksum cksum)
  simp only [serialize, if_neg hsize, hwire, bind, Except.bind]
  rfl

/-- The bytes of a datagram. -/
def wire (d : IPv4Datagram) : Buffer := d.headerOut.wire ++ d.payload.flatten

theorem length_flatten_payload (buffers : BufferList) :
    buffers.flatten.length = buffers.size := List.length_flatten

theorem wire_length (h : d.Encodable) : d.wire.length = d.header.len.toNat := by
  have hlen := IPv4Header.wire_length (h.header.setCksum d.header.computedCksum)
  rw [wire, List.length_append, length_flatten_payload, headerOut, hlen]
  exact h.len_eq.symm

theorem ofBytes_wire (h : d.Encodable) : IPv4Header.ofBytes d.wire = d.headerOut := by
  rw [wire, IPv4Header.wire, List.append_assoc]
  exact IPv4Header.ofBytes_layout (h.header.setCksum _) _

theorem hlenOf_wire (h : d.Encodable) : hlenOf d.wire = d.header.hlen.toNat := by
  rw [← IPv4Header.hlen_ofBytes, ofBytes_wire h]
  rfl

theorem wire_split (h : d.Encodable) :
    d.wire.take (4 * d.header.hlen.toNat) = d.headerOut.wire ∧
      d.wire.drop (4 * d.header.hlen.toNat) = d.payload.flatten := by
  have hlen : d.headerOut.wire.length = 4 * d.header.hlen.toNat :=
    IPv4Header.wire_length (h.header.setCksum _)
  rw [← hlen, wire]
  exact ⟨List.take_left, List.drop_left⟩

theorem wellFormed_wire (h : d.Encodable) : WellFormedDatagram d.wire := by
  have hlength := wire_length h
  have hhlen := hlenOf_wire h
  have hge := h.header.hlen_ge
  have hlen := h.len_eq
  refine ⟨by omega, ?_, by omega, by omega, ?_, ?_⟩
  · rw [← IPv4Header.ver_ofBytes, ofBytes_wire h, headerOut, h.header.ver_eq]
    rfl
  · rw [← IPv4Header.len_ofBytes, ofBytes_wire h, hlength]
    rfl
  · rw [hhlen, (wire_split h).1]
    exact IPv4Header.checksum_wire h.header

/-- A well-formed datagram is read as its bytes say. -/
theorem parse_wellFormed {bytes : Buffer} (d₀ : IPv4Datagram) (h : WellFormedDatagram bytes) :
    d₀.parse bytes = (.noError, ⟨.ofBytes bytes, [bytes.drop (4 * hlenOf bytes)]⟩) := by
  obtain ⟨hlong, hshape, -⟩ := wellFormedDatagram_iff.mp h
  have hpayload : payloadOf bytes = bytes.drop (4 * hlenOf bytes) := by
    rw [payloadOf, if_pos hshape]
  have hdeclared : (payloadOf bytes).length = declaredPayloadLength bytes := by
    have htotal := field_lt bytes 2 2
    obtain ⟨hle, -, -, hlen⟩ := hshape
    rw [hpayload, List.length_drop, declaredPayloadLength]
    unfold totalLengthOf at hlen ⊢
    omega
  rw [parse_long d₀ hlong, if_pos hdeclared, hpayload]

/-- The bytes of a datagram are read back. -/
theorem parse_wire (d₀ : IPv4Datagram) (h : d.Encodable) :
    d₀.parse d.wire = (.noError, ⟨d.headerOut, [d.payload.flatten]⟩) := by
  rw [parse_wellFormed d₀ (wellFormed_wire h), ofBytes_wire h, hlenOf_wire h, (wire_split h).2]

/-- `serialize` does not throw, and both parsers accept its bytes: the datagram comes
    back with the computed checksum and its payload in one buffer. -/
def RoundTrips (d : IPv4Datagram) : Prop :=
  ∃ buffers : BufferList, d.serialize = .ok buffers ∧
    (∀ d₀ : IPv4Datagram, d₀.parse buffers.flatten =
      (.noError, ⟨d.headerOut, [d.payload.flatten]⟩)) ∧
    ∀ h₀ : IPv4Header, (h₀.parse { buffer := buffers.flatten }).1 = .noError

/-- Every datagram that can be sent is read back by whoever parses its bytes. -/
theorem datagramRoundTrips_of_encodable (d : IPv4Datagram) (h : d.Encodable) : d.RoundTrips := by
  refine ⟨_, serialize_eq h, fun d₀ => parse_wire d₀ h, fun h₀ => ?_⟩
  exact (IPv4Header.parse_noError_iff h₀ d.wire).mpr (wellFormed_wire h)

/-- A fragment with options whose payload is in two buffers. -/
def fragment : IPv4Datagram :=
  ⟨{ hlen := 6, len := 27, df := false, mf := true, offset := 185, src := 1, dst := 2 },
    [[1], [2, 3]]⟩

theorem datagramRoundTrips_of_encodable_fragment : fragment.Encodable ∧ fragment.RoundTrips :=
  have h : fragment.Encodable := ⟨⟨rfl, by decide, by decide, by decide⟩, by decide⟩
  ⟨h, datagramRoundTrips_of_encodable fragment h⟩

end IPv4Datagram

end Sponge
