/-
  Sponge.TcpSegment.Parse

  Parsing TCP segments (`TCPHeader::parse`, `TCPSegment::parse`) and which byte strings
  are accepted.

  As for IPv4 the header parser's verdict is thrown away and only the `NetParser`'s error
  counts.  A header that is cut short raises that error on its own; a data offset below 5
  does not, so such a segment is accepted and its payload starts after 20 bytes.
-/

import Sponge.TcpSegment
import Sponge.Ipv4.Basic

namespace Sponge

open Lib.BigEndian
open Lib.OnesComplement (checksum)

namespace TCPHeader

/-- `LENGTH`: the length of a header without options. -/
def length : Nat := 20

/-- The reads of `parse`. -/
def readFields : Reader TCPHeader := do
  let sport ← NetParser.u16
  let dport ← NetParser.u16
  let seqno ← NetParser.u32
  let ackno ← NetParser.u32
  let doff ← NetParser.u8
  let flB ← NetParser.u8
  let win ← NetParser.u16
  let cksum ← NetParser.u16
  let uptr ← NetParser.u16
  return { sport, dport, seqno := ⟨seqno⟩, ackno := ⟨ackno⟩, doff := doff >>> 4,
           urg := flB &&& 0b00100000 ≠ 0, ack := flB &&& 0b00010000 ≠ 0,
           psh := flB &&& 0b00001000 ≠ 0, rst := flB &&& 0b00000100 ≠ 0,
           syn := flB &&& 0b00000010 ≠ 0, fin := flB &&& 0b00000001 ≠ 0,
           win, cksum, uptr }

/-- `parse(p)` -/
def parse (p : NetParser) : ParseResult × TCPHeader × NetParser :=
  let (h, p) := readFields p
  if h.doff < 5 then (.headerTooShort, h, p) else
  -- skip any options or anything extra in the header
  let p := p.removePrefix (h.doff.toNat * 4 - length)
  if p.error ≠ .noError then (p.error, h, p) else (.noError, h, p)

end TCPHeader

/-- `TCPSegment::parse(buffer, datagram_layer_checksum)` -/
def TCPSegment.parse (seg : TCPSegment) (buffer : Buffer) (datagramLayerChecksum : UInt32) :
    ParseResult × TCPSegment :=
  let check := (InternetChecksum.new datagramLayerChecksum).add buffer
  if check.value ≠ 0 then (.badChecksum, seg) else
  let (_, header, p) := TCPHeader.parse { buffer }
  (p.error, { header, payload := p.buffer })

-- ============================================================================
-- The header parser
-- ============================================================================

/-- The data offset field, in units of four bytes. -/
def doffOf (bytes : Buffer) : Nat := field bytes 12 1 / 16

namespace TCPHeader

theorem readFields_takes : readFields.Takes 20 := by
  show readFields.Takes (2 + (2 + (4 + (4 + (1 + (1 + (2 + (2 + (2 + 0)))))))))
  refine Reader.takes_u16.bind fun _ => ?_
  refine Reader.takes_u16.bind fun _ => ?_
  refine Reader.takes_u32.bind fun _ => ?_
  refine Reader.takes_u32.bind fun _ => ?_
  refine Reader.takes_u8.bind fun _ => ?_
  refine Reader.takes_u8.bind fun _ => ?_
  refine Reader.takes_u16.bind fun _ => ?_
  refine Reader.takes_u16.bind fun _ => ?_
  exact Reader.takes_u16.bind fun _ => Reader.takes_pure _

/-- Whatever the verdict, the parser's error tells whether there were 20 bytes. -/
theorem length_of_parse {p : NetParser} (h : (parse p).2.2.error = .noError) :
    20 ≤ p.buffer.length := by
  have htakes := readFields_takes p
  simp only [parse] at h
  generalize readFields p = read at h htakes
  have hread : read.2.error = .noError := by
    split at h
    · exact h
    · have hskip := read.2.removePrefix_consumes (read.1.doff.toNat * 4 - length)
      split at h <;> exact (hskip h).1
  exact (htakes hread).2.1

variable {bytes : Buffer}

/-- The header that the first 20 bytes spell. -/
def ofBytes (bytes : Buffer) : TCPHeader :=
  let flB := (field bytes 13 1).toUInt8
  { sport := (field bytes 0 2).toUInt16, dport := (field bytes 2 2).toUInt16,
    seqno := ⟨(field bytes 4 4).toUInt32⟩, ackno := ⟨(field bytes 8 4).toUInt32⟩,
    doff := (field bytes 12 1).toUInt8 >>> 4,
    urg := flB &&& 0b00100000 ≠ 0, ack := flB &&& 0b00010000 ≠ 0,
    psh := flB &&& 0b00001000 ≠ 0, rst := flB &&& 0b00000100 ≠ 0,
    syn := flB &&& 0b00000010 ≠ 0, fin := flB &&& 0b00000001 ≠ 0,
    win := (field bytes 14 2).toUInt16, cksum := (field bytes 16 2).toUInt16,
    uptr := (field bytes 18 2).toUInt16 }

theorem readFields_eq (h : 20 ≤ bytes.length) :
    readFields { buffer := bytes } = (ofBytes bytes, ⟨bytes.drop 20, .noError⟩) := by
  show readFields ⟨bytes.drop 0, .noError⟩ = _
  simp (disch := omega) only [readFields, Reader.bind_apply, Reader.pure_apply, NetParser.u8_at,
    NetParser.u16_at, NetParser.u32_at]
  rfl

theorem doff_ofBytes (bytes : Buffer) : (ofBytes bytes).doff.toNat = doffOf bytes :=
  NetParser.toNat_upperHalf bytes 12

/-- The parser after a header of 20 bytes or more: a data offset that is too small
    leaves it behind the fixed fields, without an error. -/
theorem parse_state (h : 20 ≤ bytes.length) :
    (parse { buffer := bytes }).2.2 =
      if doffOf bytes < 5 then ⟨bytes.drop 20, .noError⟩
      else NetParser.removePrefix ⟨bytes.drop 20, .noError⟩ (doffOf bytes * 4 - length) := by
  have hlt : (ofBytes bytes).doff < 5 ↔ doffOf bytes < 5 := by
    rw [← doff_ofBytes, UInt8.lt_iff_toNat_lt]
    rfl
  simp only [parse, readFields_eq h, hlt, doff_ofBytes]
  split
  · rfl
  · split <;> rfl

end TCPHeader

-- ============================================================================
-- Well-formed segments
-- ============================================================================

/-- A well-formed segment, by its bytes. -/
structure WellFormedSegment (bytes : Buffer) (pseudo : UInt32) : Prop where
  verifies : checksum pseudo.toNat bytes = 0
  long : 20 ≤ bytes.length
  doff_ge : 5 ≤ doffOf bytes
  doff_le : 4 * doffOf bytes ≤ bytes.length

/-- The malformed strings that are accepted. -/
def ShortDoff (bytes : Buffer) (pseudo : UInt32) : Prop :=
  checksum pseudo.toNat bytes = 0 ∧ 20 ≤ bytes.length ∧ doffOf bytes < 5

/-- What the layer below hands over as its checksum. -/
def PseudoSum (pseudo : UInt32) : Prop := pseudo = 0 ∨ ∃ h : IPv4Header, pseudo = h.pseudoCksum

theorem PseudoSum.lt {pseudo : UInt32} (h : PseudoSum pseudo) : pseudo.toNat < 2 ^ 19 := by
  rcases h with rfl | ⟨h, rfl⟩
  · decide
  · exact h.pseudoCksum_lt

namespace TCPSegment

/-- `parse` accepts the string exactly if it is a well-formed segment, and then keeps
    what follows the header as the payload. -/
structure ParsesExactly (seg : TCPSegment) (bytes : Buffer) (pseudo : UInt32) : Prop where
  accepts : (seg.parse bytes pseudo).1 = .noError ↔ WellFormedSegment bytes pseudo
  payload : (seg.parse bytes pseudo).1 = .noError →
    (seg.parse bytes pseudo).2.payload = bytes.drop (4 * doffOf bytes)

section

variable {seg : TCPSegment} {bytes : Buffer} {pseudo : UInt32}

/-- The checksum test, where the 32-bit sum cannot overflow. -/
theorem checksum_eq (hbytes : bytes.length ≤ 65535) (hpseudo : PseudoSum pseudo) :
    ((InternetChecksum.new pseudo).add bytes).value ≠ 0 ↔ checksum pseudo.toNat bytes ≠ 0 := by
  have hlt := hpseudo.lt
  rw [← InternetChecksum.value_add pseudo (by omega), ← UInt16.toNat_inj.ne]
  rfl

/-- What `parse` does after the checksum test. -/
theorem parse_of_checksum (hsum : ¬ ((InternetChecksum.new pseudo).add bytes).value ≠ 0) :
    seg.parse bytes pseudo =
      ((TCPHeader.parse { buffer := bytes }).2.2.error,
        { header := (TCPHeader.parse { buffer := bytes }).2.1,
          payload := (TCPHeader.parse { buffer := bytes }).2.2.buffer }) :=
  if_neg hsum

/-- What `parse` accepts, and the payload it keeps. -/
theorem parse_noError_iff (hbytes : bytes.length ≤ 65535) (hpseudo : PseudoSum pseudo) :
    (seg.parse bytes pseudo).1 = .noError ↔
      ShortDoff bytes pseudo ∨ WellFormedSegment bytes pseudo := by
  have hsum := checksum_eq hbytes hpseudo
  constructor
  · intro hok
    by_cases hbad : ((InternetChecksum.new pseudo).add bytes).value ≠ 0
    · rw [parse, if_pos hbad] at hok
      cases hok
    have hzero := not_not.mp (hsum.not.mp hbad)
    rw [parse_of_checksum hbad] at hok
    have hlong : 20 ≤ bytes.length := TCPHeader.length_of_parse hok
    rw [TCPHeader.parse_state hlong] at hok
    split at hok
    · rename_i hdoff
      exact Or.inl ⟨hzero, hlong, hdoff⟩
    · have hle := (NetParser.removePrefix_consumes _ _ hok).2.1
      rw [List.length_drop] at hle
      unfold TCPHeader.length at hle
      exact Or.inr ⟨hzero, hlong, by omega, by omega⟩
  · intro h
    have hzero : checksum pseudo.toNat bytes = 0 := h.elim (·.1) (·.verifies)
    have hlong : 20 ≤ bytes.length := h.elim (·.2.1) (·.long)
    rw [parse_of_checksum (hsum.not.mpr (not_not.mpr hzero)), TCPHeader.parse_state hlong]
    rcases h with ⟨-, -, hdoff⟩ | ⟨-, -, hge, hle⟩
    · rw [if_pos hdoff]
    · rw [if_neg (by omega), NetParser.removePrefix_at (by unfold TCPHeader.length; omega)]

theorem parse_payload (hbytes : bytes.length ≤ 65535) (hpseudo : PseudoSum pseudo)
    (h : WellFormedSegment bytes pseudo) :
    (seg.parse bytes pseudo).2.payload = bytes.drop (4 * doffOf bytes) := by
  have hsum := (checksum_eq hbytes hpseudo).not.mpr (not_not.mpr h.verifies)
  have hge := h.doff_ge
  have hle := h.doff_le
  rw [parse_of_checksum hsum, TCPHeader.parse_state h.long, if_neg (by omega),
    NetParser.removePrefix_at (by unfold TCPHeader.length; omega)]
  show bytes.drop (20 + (doffOf bytes * 4 - 20)) = _
  congr 1
  omega

end

/-- `parse` accepts exactly the well-formed segments, apart from those whose data offset
    is too small. -/
theorem parsesExactly_iff_not_shortDoff (seg : TCPSegment) (bytes : Buffer) (pseudo : UInt32)
    (hbytes : bytes.length ≤ 65535) (hpseudo : PseudoSum pseudo) :
    seg.ParsesExactly bytes pseudo ↔ ¬ ShortDoff bytes pseudo := by
  constructor
  · rintro ⟨haccepts, -⟩ hshort
    have hwf := haccepts.mp ((parse_noError_iff hbytes hpseudo).mpr (Or.inl hshort))
    exact absurd hshort.2.2 (Nat.not_lt.mpr hwf.doff_ge)
  · intro hshort
    have haccepts : (seg.parse bytes pseudo).1 = .noError ↔ WellFormedSegment bytes pseudo := by
      rw [parse_noError_iff hbytes hpseudo]
      exact or_iff_right hshort
    exact ⟨haccepts, fun hok => parse_payload hbytes hpseudo (haccepts.mp hok)⟩

/-- A bare header with data offset 5 and the right checksum. -/
theorem parsesExactly_iff_not_shortDoff_header :
    ParsesExactly {} [0, 0, 0, 0, 0, 0, 0, 0, 0, 0, 0, 0, 0x50, 0, 0, 0, 0xaf, 0xff, 0, 0] 0 :=
  (parsesExactly_iff_not_shortDoff {} _ 0 (by decide) (Or.inl rfl)).mpr
    fun h => absurd h.2.2 (by decide)

/-- The same header with data offset 4 is accepted. -/
theorem shortDoff_accepted :
    ¬ ParsesExactly {} [0, 0, 0, 0, 0, 0, 0, 0, 0, 0, 0, 0, 0x40, 0, 0, 0, 0xbf, 0xff, 0, 0] 0 := by
  intro h
  have haccepted : (parse {} [0, 0, 0, 0, 0, 0, 0, 0, 0, 0, 0, 0, 0x40, 0, 0, 0, 0xbf, 0xff, 0, 0]
      0).1 = .noError := by decide
  exact absurd (h.accepts.mp haccepted).doff_ge (by decide)

end TCPSegment

end Sponge
