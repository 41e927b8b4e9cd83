/-
  Sponge.TcpSegment.Integrity

  What the checksum of a segment guarantees.

  Changing one word of a serialized segment is noticed by `parse`, unless one of the two
  zeros of one's-complement arithmetic takes the place of the other
  (`detectsChanges_of_encodable`).  And what `parse` accepts without options is spelled
  by its fields, so `serialize` gives the same bytes again (`reencodes_of_parse`): the
  checksum that completes a sum is unique, up to the two zeros.
-/

import Sponge.TcpSegment.Codec

namespace Sponge

open Lib.BigEndian
open Lib.OnesComplement (checksum words checksum_set_ne_zero eq_of_completes)

-- ============================================================================
-- Changed words
-- ============================================================================

/-- `bytes'` is `bytes` with the word `w` at place `i` changed to `w'`.  The last word of a
    string of odd length is its last byte and a zero.  A zero is not changed to the other
    zero. -/
structure ChangesWord (bytes bytes' : Buffer) (i w w' : Nat) : Prop where
  length_eq : bytes'.length = bytes.length
  old_eq : (words bytes)[i]? = some w
  new_eq : words bytes' = (words bytes).set i w'
  changed : w' ≠ w
  not_zeros : ¬ (w = 0 ∧ w' = 0xffff) ∧ ¬ (w = 0xffff ∧ w' = 0)

namespace TCPSegment

/-- No change of a word of the serialized segment gets past `parse`. -/
def DetectsChanges (seg : TCPSegment) (pseudo : UInt32) : Prop :=
  ∃ buffers : BufferList, seg.serialize pseudo = .ok buffers ∧
    ∀ bytes' i w w', ChangesWord buffers.flatten bytes' i w w' →
      ∀ seg₀ : TCPSegment, seg₀.parse bytes' pseudo = (.badChecksum, seg₀)

/-- **Changed words.**  Every segment that can be sent is protected against the change of
    a word. -/
theorem detectsChanges_of_encodable (seg : TCPSegment) (pseudo : UInt32) (h : seg.Encodable)
    (hpseudo : PseudoSum pseudo) : seg.DetectsChanges pseudo := by
  refine ⟨_, serialize_eq h, fun bytes' i w w' hchange seg₀ => ?_⟩
  simp only [List.flatten_cons, List.flatten_nil, List.append_nil] at hchange
  have hlen : bytes'.length ≤ 65535 := by
    have hle : (seg.setCksum (seg.computedCksum pseudo)).wire.length ≤ 65535 := by
      rw [wire_length (h.setCksum _)]
      exact h.size_le
    rw [hchange.length_eq]
    exact hle
  have hbad := checksum_set_ne_zero (checksum_wire h hpseudo) hchange.old_eq hchange.new_eq
    hchange.changed hchange.not_zeros.1 hchange.not_zeros.2
  exact if_pos ((checksum_eq hlen hpseudo).mpr hbad)

/-- Another source port, and nothing else, in the first word. -/
theorem detectsChanges_of_encodable_optioned :
    (∃ bytes', ChangesWord (optioned.setCksum (optioned.computedCksum 0)).wire bytes' 0 1024 1025) ∧
      optioned.DetectsChanges 0 :=
  ⟨⟨(optioned.setCksum (optioned.computedCksum 0)).wire.set 1 1, by decide, by decide, by decide,
      by decide, by decide⟩,
    detectsChanges_of_encodable optioned 0 ⟨by decide, by decide, by decide⟩ (Or.inl rfl)⟩

end TCPSegment

-- ============================================================================
-- Serializing what was parsed
-- ============================================================================

/-- The six bits between the data offset and the flags are zero. -/
def ReservedZero (bytes : Buffer) : Prop := field bytes 12 1 % 16 = 0 ∧ field bytes 13 1 < 64

instance (bytes : Buffer) : Decidable (ReservedZero bytes) := inferInstanceAs (Decidable (_ ∧ _))

namespace TCPHeader

variable {bytes : Buffer}

/-- The data offset fills its byte. -/
theorem doff_byte {n : Nat} (h : n < 256) (hlow : n % 16 = 0) :
    ((n.toUInt8 >>> 4) <<< 4).toNat = n := by
  rw [UInt8.toNat_shiftLeft, UInt8.toNat_shiftRight]
  simp only [Nat.toUInt8_eq, UInt8.toNat_ofNat', UInt8.reduceToNat, Nat.reduceMod, Nat.reducePow,
    Nat.shiftLeft_eq, Nat.shiftRight_eq_div_pow]
  omega

/-- The bit of a flag, if it is set in `b`. -/
def flagBit (b mask : UInt8) : UInt8 := if decide (b &&& mask ≠ 0) then mask else 0

/-- The bits of all flags that are set in `b`. -/
def flagBits (b : UInt8) : UInt8 :=
  flagBit b 0b00100000 ||| flagBit b 0b00010000 ||| flagBit b 0b00001000 |||
  flagBit b 0b00000100 ||| flagBit b 0b00000010 ||| flagBit b 0b00000001

theorem toNat_flagBits : ∀ n < 64, (flagBits n.toUInt8).toNat = n := by
  decide

/-- The flags fill the lower six bits of theirs. -/
theorem flagByte_ofBytes (h : field bytes 13 1 < 64) :
    (ofBytes bytes).flagByte.toNat = field bytes 13 1 :=
  toNat_flagBits _ h

/-- The fields spell the bytes they were read from. -/
theorem layout_ofBytes (h : 20 ≤ bytes.length) (hreserved : ReservedZero bytes) :
    (ofBytes bytes).layout.bytes ++ bytes.drop 20 = bytes := by
  have h16 : ∀ k, (field bytes k 2).toUInt16.toNat = field bytes k 2 := fun k => by
    rw [Nat.toUInt16_eq, UInt16.toNat_ofNat']
    exact Nat.mod_eq_of_lt (field_lt bytes k 2)
  have h32 : ∀ k, (field bytes k 4).toUInt32.toNat = field bytes k 4 := fun k => by
    rw [Nat.toUInt32_eq, UInt32.toNat_ofNat']
    exact Nat.mod_eq_of_lt (field_lt bytes k 4)
  have hdoff := doff_byte (field_lt bytes 12 1) hreserved.1
  have hflags := flagByte_ofBytes hreserved.2
  simp only [layout, Layout.bytes_cons, Layout.bytes_nil, hflags, List.append_assoc,
    List.nil_append]
  simp only [ofBytes, h16, h32, hdoff]
  rw [toBytes_field_append (k := 18) (by omega), toBytes_field_append (k := 16) (by omega),
    toBytes_field_append (k := 14) (by omega), toBytes_field_append (k := 13) (by omega),
    toBytes_field_append (k := 12) (by omega), toBytes_field_append (k := 8) (by omega),
    toBytes_field_append (k := 4) (by omega), toBytes_field_append (k := 2) (by omega),
    toBytes_field_append (k := 0) (by omega), List.drop_zero]

end TCPHeader

namespace TCPSegment

/-- What is accepted with a data offset of at least 5 is well formed, and read as its bytes
    say. -/
theorem wellFormed_of_parse {seg₀ seg : TCPSegment} {bytes : Buffer} {pseudo : UInt32}
    (hbytes : bytes.length ≤ 65535) (hpseudo : PseudoSum pseudo)
    (hparse : seg₀.parse bytes pseudo = (.noError, seg)) (hdoff : 5 ≤ seg.header.doff.toNat) :
    WellFormedSegment bytes pseudo ∧ seg.header = .ofBytes bytes ∧
      seg.payload = bytes.drop (4 * doffOf bytes) := by
  have hok : (seg₀.parse bytes pseudo).1 = .noError := by rw [hparse]
  rcases (parse_noError_iff hbytes hpseudo).mp hok with ⟨hzero, hlong, hshort⟩ | hwf
  · -- the header would have the small data offset
    have hsum := (checksum_eq hbytes hpseudo).not.mpr (not_not.mpr hzero)
    rw [parse_of_checksum hsum, TCPHeader.parse_header hlong] at hparse
    have hheader : seg.header = .ofBytes bytes := by rw [← (Prod.mk.inj hparse).2]
    rw [hheader, TCPHeader.doff_ofBytes] at hdoff
    omega
  · rw [parse_wellFormed seg₀ hbytes hpseudo hwf] at hparse
    rw [← (Prod.mk.inj hparse).2]
    exact ⟨hwf, rfl, rfl⟩

/-- Without options the fields and the payload spell the string. -/
theorem wire_of_wellFormed {seg : TCPSegment} {bytes : Buffer} {pseudo : UInt32}
    (hwf : WellFormedSegment bytes pseudo) (hreserved : ReservedZero bytes)
    (hheader : seg.header = .ofBytes bytes) (hdoff : seg.header.doff = 5)
    (hpayload : seg.payload = bytes.drop 20) : seg.wire = bytes := by
  rw [wire, TCPHeader.wire, hdoff, hheader, hpayload]
  show ((TCPHeader.ofBytes bytes).layout.bytes ++ []) ++ bytes.drop 20 = bytes
  rw [List.append_nil, TCPHeader.layout_ofBytes hwf.long hreserved]

/-- Serializing gives the bytes back, except that a checksum field of 0xffff may come back
    as 0. -/
def Reencodes (seg : TCPSegment) (bytes : Buffer) (pseudo : UInt32) : Prop :=
  ∃ buffers : BufferList, seg.serialize pseudo = .ok buffers ∧
    (buffers.flatten = bytes ∨ field bytes 16 2 = 0xffff ∧
      buffers.flatten = bytes.take 16 ++ ([0, 0] ++ bytes.drop 18))

/-- **Re-encoding.**  What was accepted without options, with zeros in the reserved bits,
    is serialized as it came. -/
theorem reencodes_of_parse (seg₀ seg : TCPSegment) (bytes : Buffer) (pseudo : UInt32)
    (hbytes : bytes.length ≤ 65535) (hpseudo : PseudoSum pseudo)
    (hparse : seg₀.parse bytes pseudo = (.noError, seg)) (hdoff : seg.header.doff = 5)
    (hreserved : ReservedZero bytes) : seg.Reencodes bytes pseudo := by
  obtain ⟨hwf, hheader, hpayload⟩ :=
    wellFormed_of_parse hbytes hpseudo hparse (by rw [hdoff]; decide)
  have hdoffOf : doffOf bytes = 5 := by
    rw [← TCPHeader.doff_ofBytes, ← hheader, hdoff]
    rfl
  rw [hdoffOf] at hpayload
  have henc : seg.Encodable := by
    refine ⟨by rw [hdoff]; decide, by rw [hdoff]; decide, ?_⟩
    have hlong := hwf.long
    rw [hdoff, hpayload, List.length_drop]
    show 20 + (bytes.length - 20) ≤ 65535
    omega
  have hwire : seg.wire = bytes := wire_of_wellFormed hwf hreserved hheader hdoff hpayload
  obtain ⟨before, after, hlen, hsplit⟩ := seg.wire_setCksum
  have hsame : bytes = before ++ (toBytes 2 seg.header.cksum.toNat ++ after) := by
    rw [← hwire, ← hsplit]
    rfl
  refine ⟨_, serialize_eq henc, ?_⟩
  simp only [List.flatten_cons, List.flatten_nil, List.append_nil]
  show (seg.setCksum (seg.computedCksum pseudo)).wire = bytes ∨ _ ∧
    (seg.setCksum (seg.computedCksum pseudo)).wire = _
  have hcksum := checksum_setCksum_zero henc hpseudo
  have hverifies := hwf.verifies
  rw [hsplit] at hcksum ⊢
  rw [hsame] at hverifies
  rcases eq_of_completes (by rw [hlen]) seg.header.cksum.toNat_lt hcksum hverifies with
    heq | ⟨htop, hzero⟩
  · exact Or.inl (by rw [← heq, ← hsame])
  · refine Or.inr ⟨?_, ?_⟩
    · have hfield := field_append before (toBytes 2 seg.header.cksum.toNat) after
      rw [hlen, toBytes_length, ofBytes_toBytes seg.header.cksum.toNat_lt, ← hsame] at hfield
      exact hfield.trans htop
    · have hbefore : bytes.take 16 = before := by rw [hsame, List.take_left' hlen]
      have hafter : bytes.drop 18 = after := by
        rw [hsame, ← List.append_assoc, List.drop_left' (by simp [hlen])]
      rw [hzero, hbefore, hafter]
      rfl

/-- A header whose words add up to 0xffff without the checksum field, which holds the
    same zero. -/
def otherZero : Buffer := [0, 0, 0, 0, 0, 0, 0, 0, 0, 0, 0, 0, 0x50, 0, 0, 0, 0xff, 0xff, 0xaf, 0xff]

theorem reencodes_of_parse_otherZero :
    (parse {} otherZero 0).1 = .noError ∧ (parse {} otherZero 0).2.Reencodes otherZero 0 :=
  ⟨by decide, reencodes_of_parse {} _ otherZero 0 (by decide) (Or.inl rfl)
    (Prod.ext (by decide) rfl) (by decide) (by decide)⟩

end TCPSegment

end Sponge
