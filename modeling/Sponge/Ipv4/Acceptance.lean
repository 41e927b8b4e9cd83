/-
  Sponge.Ipv4.Acceptance

  Which byte strings `IPv4Datagram.parse` accepts.

  The verdict of the header's own parser is thrown away.  What is left of its checks is
  whether it stepped over the options, so a string with a wrong version, header length
  or total length is accepted whenever the bytes after the first 20 are as many as the
  (16-bit) difference of the two length fields, and a bad checksum is never noticed.
  `SlipsThrough` is the exact set of strings for which this matters.
-/

import Sponge.Ipv4.Basic

namespace Sponge

open Lib.BigEndian
open Lib.OnesComplement (checksum)

/-- The header parser gets past its checks of version and lengths. -/
def HeaderShape (bytes : Buffer) : Prop :=
  4 * hlenOf bytes ≤ bytes.length ∧ versionOf bytes = 4 ∧ 5 ≤ hlenOf bytes ∧
    totalLengthOf bytes = bytes.length

instance (bytes : Buffer) : Decidable (HeaderShape bytes) := by
  unfold HeaderShape
  infer_instance

-- ============================================================================
-- The header parser
-- ============================================================================

namespace IPv4Header

variable {bytes : Buffer}

theorem parse_short (h : IPv4Header) (hshort : bytes.length < 20) :
    h.parse { buffer := bytes } = (.packetTooShort, h, { buffer := bytes }) :=
  if_pos hshort

theorem ver_ne_iff : (ofBytes bytes).ver ≠ 4 ↔ versionOf bytes ≠ 4 := by
  rw [← ver_ofBytes, ← UInt8.toNat_inj.ne]
  rfl

theorem hlen_lt_iff : (ofBytes bytes).hlen < 5 ↔ hlenOf bytes < 5 := by
  rw [← hlen_ofBytes, UInt8.lt_iff_toNat_lt]
  rfl

/-- The checksum over a header, which is far too short to overflow the sum. -/
theorem checksum_ne_iff :
    (InternetChecksum.new.add (bytes.take (4 * hlenOf bytes))).value ≠ 0 ↔
      checksum 0 (bytes.take (4 * hlenOf bytes)) ≠ 0 := by
  have hlt := hlenOf_lt bytes
  have hlen := bytes.length_take_le (4 * hlenOf bytes)
  have hzero : (0 : UInt32).toNat = 0 := rfl
  rw [← UInt16.toNat_inj.ne, InternetChecksum.value_add 0 (by omega)]
  rfl

/-- A header of the right shape is stepped over, and judged by its checksum. -/
theorem parse_of_shape (h : IPv4Header) (hlong : 20 ≤ bytes.length) (hshape : HeaderShape bytes) :
    h.parse { buffer := bytes } =
      (if checksum 0 (bytes.take (4 * hlenOf bytes)) ≠ 0 then .badChecksum else .noError,
        ofBytes bytes, ⟨bytes.drop (4 * hlenOf bytes), .noError⟩) := by
  obtain ⟨hle, hver, hge, htotal⟩ := hshape
  have hskip : NetParser.removePrefix ⟨bytes.drop 20, .noError⟩ (hlenOf bytes * 4 - length) =
      ⟨bytes.drop (4 * hlenOf bytes), .noError⟩ := by
    unfold length
    rw [NetParser.removePrefix_at (by omega)]
    congr 2
    omega
  simp only [parse, readFields_eq hlong, hlen_ofBytes, len_ofBytes, ver_ne_iff, hlen_lt_iff,
    checksum_ne_iff, hskip]
  rw [if_neg (show ¬ bytes.length < length from Nat.not_lt.mpr hlong), if_neg (by omega),
    if_neg (by omega), if_neg (by omega), if_neg (by omega), if_neg (by simp)]
  split <;> rfl

/-- Any other is refused, but the parser is left behind the fixed fields, without an
    error of its own. -/
theorem parse_of_not_shape (h : IPv4Header) (hlong : 20 ≤ bytes.length)
    (hshape : ¬ HeaderShape bytes) :
    (h.parse { buffer := bytes }).1 ≠ .noError ∧
      (h.parse { buffer := bytes }).2 = (ofBytes bytes, ⟨bytes.drop 20, .noError⟩) := by
  simp only [parse, readFields_eq hlong, hlen_ofBytes, len_ofBytes, ver_ne_iff, hlen_lt_iff]
  rw [if_neg (show ¬ bytes.length < length from Nat.not_lt.mpr hlong)]
  split
  · exact ⟨by simp, rfl⟩
  split
  · exact ⟨by simp, rfl⟩
  split
  · exact ⟨by simp, rfl⟩
  split
  · exact ⟨by simp, rfl⟩
  -- past the four checks the shape is right
  refine absurd ?_ hshape
  unfold HeaderShape
  omega

end IPv4Header

-- ============================================================================
-- The datagram parser
-- ============================================================================

namespace IPv4Datagram

variable {bytes : Buffer}

/-- What is left as the payload. -/
def payloadOf (bytes : Buffer) : Buffer :=
  bytes.drop (if HeaderShape bytes then 4 * hlenOf bytes else 20)

/-- A string that is long enough is judged by the length of what is left. -/
theorem parse_long (d : IPv4Datagram) (hlong : 20 ≤ bytes.length) :
    d.parse bytes =
      (if (payloadOf bytes).length = declaredPayloadLength bytes then .noError
        else .packetTooShort,
       { header := .ofBytes bytes, payload := [payloadOf bytes] }) := by
  have hstate : (d.header.parse { buffer := bytes }).2 =
      (.ofBytes bytes, ⟨payloadOf bytes, .noError⟩) := by
    unfold payloadOf
    split
    · rename_i hshape
      rw [IPv4Header.parse_of_shape _ hlong hshape]
    · rename_i hshape
      exact (IPv4Header.parse_of_not_shape _ hlong hshape).2
  simp only [parse, BufferList.size_singleton, hstate, IPv4Header.payloadLength_ofBytes]
  split
  · rfl
  · rename_i heq
    rw [if_pos (not_not.mp heq)]

/-- A string that is too short fails on the length of the fresh header. -/
theorem parse_short (hshort : bytes.length < 20) :
    (parse {} bytes).1 = .packetTooShort := by
  have hne : bytes.length ≠ ({} : IPv4Header).payloadLength.toNat := by
    show bytes.length ≠ 65516
    omega
  simp only [parse, IPv4Header.parse_short _ hshort, BufferList.size_singleton, if_pos hne]

/-- What `parse` accepts. -/
theorem parse_noError_iff :
    (parse {} bytes).1 = .noError ↔
      20 ≤ bytes.length ∧
        (HeaderShape bytes ∨ bytes.length - 20 = declaredPayloadLength bytes) := by
  by_cases hlong : 20 ≤ bytes.length
  · rw [parse_long _ hlong]
    have hiff : (payloadOf bytes).length = declaredPayloadLength bytes ↔
        HeaderShape bytes ∨ bytes.length - 20 = declaredPayloadLength bytes := by
      unfold payloadOf
      rw [List.length_drop]
      split
      · rename_i hshape
        have htotal := field_lt bytes 2 2
        refine iff_of_true ?_ (Or.inl hshape)
        obtain ⟨hle, -, -, hlen⟩ := hshape
        unfold declaredPayloadLength
        unfold totalLengthOf at hlen ⊢
        omega
      · rename_i hshape
        exact (or_iff_right hshape).symm
    rw [and_iff_right hlong, ← hiff]
    split <;> simp_all
  · rw [parse_short (by omega)]
    simp [hlong]

end IPv4Datagram

-- ============================================================================
-- Well-formed datagrams
-- ============================================================================

/-- A well-formed datagram, by its bytes. -/
structure WellFormedDatagram (bytes : Buffer) : Prop where
  long : 20 ≤ bytes.length
  version : versionOf bytes = 4
  hlen_ge : 5 ≤ hlenOf bytes
  hlen_le : 4 * hlenOf bytes ≤ bytes.length
  total : totalLengthOf bytes = bytes.length
  verifies : checksum 0 (bytes.take (4 * hlenOf bytes)) = 0

/-- A malformed string that the parser lets through: its checksum is bad, or its version
    or lengths are wrong and the bytes after the first 20 have the declared number. -/
def SlipsThrough (bytes : Buffer) : Prop :=
  20 ≤ bytes.length ∧
    if HeaderShape bytes then
      checksum 0 (bytes.take (4 * hlenOf bytes)) ≠ 0
    else bytes.length - 20 = declaredPayloadLength bytes

theorem wellFormedDatagram_iff {bytes : Buffer} :
    WellFormedDatagram bytes ↔ 20 ≤ bytes.length ∧ HeaderShape bytes ∧
      checksum 0 (bytes.take (4 * hlenOf bytes)) = 0 := by
  constructor
  · intro h
    exact ⟨h.long, ⟨h.hlen_le, h.version, h.hlen_ge, h.total⟩, h.verifies⟩
  · rintro ⟨hlong, ⟨hle, hversion, hge, htotal⟩, hverifies⟩
    exact ⟨hlong, hversion, hge, hle, htotal, hverifies⟩

/-- The header parser's own verdict, which `IPv4Datagram.parse` throws away, is right. -/
theorem IPv4Header.parse_noError_iff (h : IPv4Header) (bytes : Buffer) :
    (h.parse { buffer := bytes }).1 = .noError ↔ WellFormedDatagram bytes := by
  rw [wellFormedDatagram_iff]
  by_cases hlong : 20 ≤ bytes.length
  · by_cases hshape : HeaderShape bytes
    · rw [IPv4Header.parse_of_shape h hlong hshape]
      simp [hlong, hshape]
    · exact iff_of_false (IPv4Header.parse_of_not_shape h hlong hshape).1 fun hwf =>
        hshape hwf.2.1
  · rw [IPv4Header.parse_short h (by omega)]
    simp [hlong]

/-- A fresh datagram's `parse` accepts the string exactly if it is well formed, and then
    keeps what follows the header as the payload. -/
structure ParsesExactly (bytes : Buffer) : Prop where
  accepts : (IPv4Datagram.parse {} bytes).1 = .noError ↔ WellFormedDatagram bytes
  payload : (IPv4Datagram.parse {} bytes).1 = .noError →
    (IPv4Datagram.parse {} bytes).2.payload = [bytes.drop (4 * hlenOf bytes)]

/-- `parse` accepts exactly the well-formed datagrams, apart from the strings that slip
    through. -/
theorem parsesExactly_iff_not_slipsThrough (bytes : Buffer) :
    ParsesExactly bytes ↔ ¬ SlipsThrough bytes := by
  constructor
  · rintro ⟨haccepts, -⟩ ⟨hlong, hslips⟩
    rw [IPv4Datagram.parse_noError_iff, wellFormedDatagram_iff] at haccepts
    split at hslips
    · rename_i hshape
      exact hslips (haccepts.mp ⟨hlong, Or.inl hshape⟩).2.2
    · rename_i hshape
      exact hshape (haccepts.mp ⟨hlong, Or.inr hslips⟩).2.1
  · intro hslips
    have haccepts : (IPv4Datagram.parse {} bytes).1 = .noError ↔ WellFormedDatagram bytes := by
      rw [IPv4Datagram.parse_noError_iff, wellFormedDatagram_iff]
      constructor
      · rintro ⟨hlong, hshape⟩
        have hshape : HeaderShape bytes := by
          by_contra hbad
          exact hslips ⟨hlong, by rw [if_neg hbad]; exact hshape.resolve_left hbad⟩
        refine ⟨hlong, hshape, ?_⟩
        by_contra hsum
        exact hslips ⟨hlong, by rw [if_pos hshape]; exact hsum⟩
      · rintro ⟨hlong, hshape, -⟩
        exact ⟨hlong, Or.inl hshape⟩
    refine ⟨haccepts, fun hok => ?_⟩
    obtain ⟨hlong, hshape, -⟩ := wellFormedDatagram_iff.mp (haccepts.mp hok)
    rw [IPv4Datagram.parse_long _ hlong]
    show [IPv4Datagram.payloadOf bytes] = _
    rw [IPv4Datagram.payloadOf, if_pos hshape]

/-- A bare header of zeros with version 6, and one with version 4 and a bad checksum:
    both are accepted. -/
theorem parsesExactly_fails :
    ¬ ParsesExactly ([0x65, 0, 0, 20] ++ List.replicate 16 0) ∧
      ¬ ParsesExactly ([0x45, 0, 0, 20] ++ List.replicate 16 0) := by
  constructor
  · intro h
    have haccepted : (IPv4Datagram.parse {} ([0x65, 0, 0, 20] ++ List.replicate 16 0)).1 =
        .noError := by decide
    exact absurd (h.accepts.mp haccepted).version (by decide)
  · intro h
    have haccepted : (IPv4Datagram.parse {} ([0x45, 0, 0, 20] ++ List.replicate 16 0)).1 =
        .noError := by decide
    exact absurd (h.accepts.mp haccepted).verifies (by decide)

end Sponge
