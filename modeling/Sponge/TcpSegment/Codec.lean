/-
  Sponge.TcpSegment.Codec

  Serializing TCP segments (`TCPHeader::serialize`, `TCPSegment::serialize`), and that
  parsing undoes it.

  The fixed part of a header is a `Layout` of nine fields, so each field is read back
  from its place; what is left are the two bytes in which several fields share the bits.
  The checksum is taken over the segment with a zero in its place, in two chunks of
  which the first has even length, and completes the sum that the parser takes in one.
-/

import Sponge.TcpSegment.Parse

namespace Sponge

open Lib.BigEndian
open Lib.OnesComplement (checksum checksum_completed)

namespace TCPHeader

/-- The flag byte, `fl_b` of `serialize`. -/
def flagByte (h : TCPHeader) : UInt8 :=
  (if h.urg then 0b00100000 else 0) ||| (if h.ack then 0b00010000 else 0) |||
  (if h.psh then 0b00001000 else 0) ||| (if h.rst then 0b00000100 else 0) |||
  (if h.syn then 0b00000010 else 0) ||| (if h.fin then 0b00000001 else 0)

/-- `serialize()` -/
def serialize (h : TCPHeader) : Except Exn Buffer :=
  if h.doff < 5 then .error (.runtimeError "TCP header too short") else
  let ret := NetUnparser.u16 [] h.sport
  let ret := NetUnparser.u16 ret h.dport
  let ret := NetUnparser.u32 ret h.seqno.rawValue
  let ret := NetUnparser.u32 ret h.ackno.rawValue
  let ret := NetUnparser.u8 ret (h.doff <<< 4)
  let ret := NetUnparser.u8 ret h.flagByte
  let ret := NetUnparser.u16 ret h.win
  let ret := NetUnparser.u16 ret h.cksum
  let ret := NetUnparser.u16 ret h.uptr
  -- expand header to advertised size
  .ok (ret.rightpad (4 * h.doff.toNat) 0)

end TCPHeader

/-- `TCPSegment::serialize(datagram_layer_checksum)` -/
def TCPSegment.serialize (seg : TCPSegment) (datagramLayerChecksum : UInt32) :
    Except Exn BufferList := do
  let headerOut := { seg.header with cksum := 0 }
  -- calculate checksum -- taken over entire segment
  let headerZeroChecksum ← headerOut.serialize
  let check := (InternetChecksum.new datagramLayerChecksum).add headerZeroChecksum
  let check := check.add seg.payload
  let headerOut := { headerOut with cksum := check.value }
  let header ← headerOut.serialize
  return [header, seg.payload]

-- ============================================================================
-- The header
-- ============================================================================

namespace TCPHeader

/-- The fields in the order of the wire. -/
def layout (h : TCPHeader) : Layout :=
  [(2, h.sport.toNat), (2, h.dport.toNat), (4, h.seqno.rawValue.toNat),
   (4, h.ackno.rawValue.toNat), (1, (h.doff <<< 4).toNat), (1, h.flagByte.toNat),
   (2, h.win.toNat), (2, h.cksum.toNat), (2, h.uptr.toNat)]

/-- The header on the wire: its fields, and zeros for the options. -/
def wire (h : TCPHeader) : Buffer :=
  h.layout.bytes ++ List.replicate (4 * h.doff.toNat - 20) 0

theorem serialize_eq {h : TCPHeader} (hdoff : 5 ≤ h.doff.toNat) : h.serialize = .ok h.wire := by
  have hge : ¬ h.doff < 5 := by
    rw [UInt8.lt_iff_toNat_lt]
    exact Nat.not_lt.mpr hdoff
  simp only [serialize, if_neg hge, NetUnparser.u8, NetUnparser.u16, NetUnparser.u32,
    NetUnparser.unparseInt_eq, List.nil_append]
  simp only [wire, layout, Layout.bytes_cons, Layout.bytes_nil, List.rightpad, List.append_assoc,
    List.append_nil, List.length_append, toBytes_length]

theorem wire_length {h : TCPHeader} (hdoff : 5 ≤ h.doff.toNat) :
    h.wire.length = 4 * h.doff.toNat := by
  have hwidth : h.layout.width = 20 := rfl
  rw [wire, List.length_append, List.length_replicate, Layout.bytes_length, hwidth]
  omega

/-- The data offset has the upper half of its byte. -/
theorem doff_shift {doff : UInt8} (h : doff.toNat < 16) : (doff <<< 4) >>> 4 = doff := by
  apply UInt8.toNat_inj.mp
  rw [UInt8.toNat_shiftRight, UInt8.toNat_shiftLeft]
  simp only [UInt8.reduceToNat, Nat.reduceMod, Nat.reducePow, Nat.shiftLeft_eq,
    Nat.shiftRight_eq_div_pow]
  omega

/-- Each flag has a bit of its own. -/
theorem flagByte_bits (h : TCPHeader) :
    decide (h.flagByte &&& 0b00100000 ≠ 0) = h.urg ∧
    decide (h.flagByte &&& 0b00010000 ≠ 0) = h.ack ∧
    decide (h.flagByte &&& 0b00001000 ≠ 0) = h.psh ∧
    decide (h.flagByte &&& 0b00000100 ≠ 0) = h.rst ∧
    decide (h.flagByte &&& 0b00000010 ≠ 0) = h.syn ∧
    decide (h.flagByte &&& 0b00000001 ≠ 0) = h.fin := by
  unfold flagByte
  generalize h.urg = urg, h.ack = ack, h.psh = psh, h.rst = rst, h.syn = syn, h.fin = fin
  revert urg ack psh rst syn fin
  decide

/-- Reading the fields back. -/
theorem ofBytes_layout {h : TCPHeader} (hdoff : h.doff.toNat < 16) (rest : List UInt8) :
    ofBytes (h.layout.bytes ++ rest) = h := by
  have hsport : field (h.layout.bytes ++ rest) 0 2 = h.sport.toNat :=
    Layout.field_bytes (i := 0) rfl h.sport.toNat_lt rest
  have hdport : field (h.layout.bytes ++ rest) 2 2 = h.dport.toNat :=
    Layout.field_bytes (i := 1) rfl h.dport.toNat_lt rest
  have hseqno : field (h.layout.bytes ++ rest) 4 4 = h.seqno.rawValue.toNat :=
    Layout.field_bytes (i := 2) rfl h.seqno.rawValue.toNat_lt rest
  have hackno : field (h.layout.bytes ++ rest) 8 4 = h.ackno.rawValue.toNat :=
    Layout.field_bytes (i := 3) rfl h.ackno.rawValue.toNat_lt rest
  have hoffset : field (h.layout.bytes ++ rest) 12 1 = (h.doff <<< 4).toNat :=
    Layout.field_bytes (i := 4) rfl (h.doff <<< 4).toNat_lt rest
  have hflags : field (h.layout.bytes ++ rest) 13 1 = h.flagByte.toNat :=
    Layout.field_bytes (i := 5) rfl h.flagByte.toNat_lt rest
  have hwin : field (h.layout.bytes ++ rest) 14 2 = h.win.toNat :=
    Layout.field_bytes (i := 6) rfl h.win.toNat_lt rest
  have hcksum : field (h.layout.bytes ++ rest) 16 2 = h.cksum.toNat :=
    Layout.field_bytes (i := 7) rfl h.cksum.toNat_lt rest
  have huptr : field (h.layout.bytes ++ rest) 18 2 = h.uptr.toNat :=
    Layout.field_bytes (i := 8) rfl h.uptr.toNat_lt rest
  obtain ⟨hurg, hack, hpsh, hrst, hsyn, hfin⟩ := h.flagByte_bits
  simp only [ofBytes, hsport, hdport, hseqno, hackno, hoffset, hflags, hwin, hcksum, huptr,
    Nat.toUInt8_eq, Nat.toUInt16_eq, Nat.toUInt32_eq, UInt8.ofNat_toNat, UInt16.ofNat_toNat,
    UInt32.ofNat_toNat, doff_shift hdoff, hurg, hack, hpsh, hrst, hsyn, hfin]

/-- The header that `parse` leaves, whatever its verdict. -/
theorem parse_header {bytes : Buffer} (h : 20 ≤ bytes.length) :
    (parse { buffer := bytes }).2.1 = ofBytes bytes := by
  simp only [parse, readFields_eq h]
  split
  · rfl
  · split <;> rfl

end TCPHeader

-- ============================================================================
-- The segment
-- ============================================================================

namespace TCPSegment

/-- What can be sent: a data offset that fits in its four bits and leaves room for the
    fixed fields, and a size that an IPv4 datagram can announce. -/
structure Encodable (seg : TCPSegment) : Prop where
  doff_ge : 5 ≤ seg.header.doff.toNat
  doff_le : seg.header.doff.toNat ≤ 15
  size_le : 4 * seg.header.doff.toNat + seg.payload.length ≤ 65535

/-- The segment with another checksum in its header. -/
def setCksum (seg : TCPSegment) (cksum : UInt16) : TCPSegment :=
  { seg with header := { seg.header with cksum } }

/-- The bytes of the segment, checksum field included. -/
def wire (seg : TCPSegment) : Buffer := seg.header.wire ++ seg.payload

/-- The checksum that `serialize` computes. -/
def computedCksum (seg : TCPSegment) (pseudo : UInt32) : UInt16 :=
  ((InternetChecksum.new pseudo).add (seg.setCksum 0).wire).value

section

variable {seg : TCPSegment} {pseudo : UInt32}

theorem Encodable.setCksum (h : seg.Encodable) (cksum : UInt16) :
    (seg.setCksum cksum).Encodable :=
  ⟨h.doff_ge, h.doff_le, h.size_le⟩

theorem serialize_eq (h : seg.Encodable) :
    seg.serialize pseudo =
      .ok [(seg.setCksum (seg.computedCksum pseudo)).header.wire, seg.payload] := by
  have hwire : ∀ cksum : UInt16, ({ seg.header with cksum } : TCPHeader).serialize =
      .ok (seg.setCksum cksum).header.wire := fun cksum => TCPHeader.serialize_eq h.doff_ge
  have hchunks : ((InternetChecksum.new pseudo).add (seg.setCksum 0).header.wire).add seg.payload =
      (InternetChecksum.new pseudo).add (seg.setCksum 0).wire := List.foldl_append.symm
  simp only [serialize, hwire, bind, Except.bind, hchunks]
  rfl

theorem wire_length (h : seg.Encodable) :
    seg.wire.length = 4 * seg.header.doff.toNat + seg.payload.length := by
  rw [wire, List.length_append, TCPHeader.wire_length h.doff_ge]

/-- The bytes around the checksum field. -/
theorem wire_setCksum (seg : TCPSegment) : ∃ before after : Buffer, before.length = 16 ∧
    ∀ cksum, (seg.setCksum cksum).wire = before ++ (toBytes 2 cksum.toNat ++ after) := by
  refine ⟨Layout.bytes (seg.header.layout.take 7), toBytes 2 seg.header.uptr.toNat ++
    (List.replicate (4 * seg.header.doff.toNat - 20) 0 ++ seg.payload), ?_, ?_⟩
  · rw [Layout.bytes_length]
    rfl
  · intro cksum
    have hlayout : (seg.setCksum cksum).header.layout =
        seg.header.layout.take 7 ++ [(2, cksum.toNat), (2, seg.header.uptr.toNat)] := rfl
    rw [wire, TCPHeader.wire, hlayout]
    simp only [Layout.bytes_append, Layout.bytes_cons, Layout.bytes_nil, List.append_assoc,
      List.nil_append]
    rfl

/-- The computed checksum is that of the bytes with a zero in its place. -/
theorem checksum_setCksum_zero (h : seg.Encodable) (hpseudo : PseudoSum pseudo) :
    checksum pseudo.toNat (seg.setCksum 0).wire = (seg.computedCksum pseudo).toNat := by
  have hlt := hpseudo.lt
  have hle : (seg.setCksum 0).wire.length ≤ 65535 := by
    rw [wire_length (h.setCksum 0)]
    exact h.size_le
  exact (InternetChecksum.value_add pseudo (by omega)).symm

/-- It completes the sum. -/
theorem checksum_wire (h : seg.Encodable) (hpseudo : PseudoSum pseudo) :
    checksum pseudo.toNat (seg.setCksum (seg.computedCksum pseudo)).wire = 0 := by
  obtain ⟨before, after, hlen, hwire⟩ := seg.wire_setCksum
  have hcksum := checksum_setCksum_zero h hpseudo
  rw [hwire] at hcksum ⊢
  exact checksum_completed (by rw [hlen]) hcksum

/-- A well-formed segment is read as its bytes say. -/
theorem parse_wellFormed {bytes : Buffer} (seg₀ : TCPSegment) (hbytes : bytes.length ≤ 65535)
    (hpseudo : PseudoSum pseudo) (h : WellFormedSegment bytes pseudo) :
    seg₀.parse bytes pseudo =
      (.noError, ⟨.ofBytes bytes, bytes.drop (4 * doffOf bytes)⟩) := by
  have haccepts : (seg₀.parse bytes pseudo).1 = .noError :=
    (parse_noError_iff hbytes hpseudo).mpr (Or.inr h)
  have hpayload : (seg₀.parse bytes pseudo).2.payload = bytes.drop (4 * doffOf bytes) :=
    parse_payload hbytes hpseudo h
  have hsum := (checksum_eq hbytes hpseudo).not.mpr (not_not.mpr h.verifies)
  rw [parse_of_checksum hsum] at haccepts hpayload ⊢
  rw [TCPHeader.parse_header h.long]
  exact Prod.ext haccepts (congrArg (TCPSegment.mk _) hpayload)

/-- The bytes of a segment whose checksum completes the sum are well formed, and read
    back as the segment. -/
theorem parse_wire (seg₀ : TCPSegment) (h : seg.Encodable) (hpseudo : PseudoSum pseudo)
    (hsum : checksum pseudo.toNat seg.wire = 0) : seg₀.parse seg.wire pseudo = (.noError, seg) := by
  have hlen := wire_length h
  obtain ⟨hge, hle, hsize⟩ := h
  have hheader : TCPHeader.ofBytes seg.wire = seg.header := by
    rw [wire, TCPHeader.wire, List.append_assoc]
    exact TCPHeader.ofBytes_layout (by omega) _
  have hdoff : doffOf seg.wire = seg.header.doff.toNat := by
    rw [← TCPHeader.doff_ofBytes, hheader]
  have hpayload : seg.wire.drop (4 * seg.header.doff.toNat) = seg.payload := by
    rw [wire, ← TCPHeader.wire_length hge, List.drop_left]
  have hwf : WellFormedSegment seg.wire pseudo :=
    ⟨hsum, by omega, by omega, by omega⟩
  rw [parse_wellFormed seg₀ (by omega) hpseudo hwf, hheader, hdoff, hpayload]

end

/-- `serialize` with the checksum `pseudo` of the layer below, and `parse` of its bytes
    with the same, give back the segment with the computed checksum. -/
def RoundTrips (seg : TCPSegment) (pseudo : UInt32) : Prop :=
  ∃ buffers : BufferList, seg.serialize pseudo = .ok buffers ∧
    ∀ seg₀ : TCPSegment, seg₀.parse buffers.flatten pseudo =
      (.noError, seg.setCksum (seg.computedCksum pseudo))

/-- Every segment that can be sent is read back by whoever parses its bytes. -/
theorem segmentRoundTrips_of_encodable (seg : TCPSegment) (pseudo : UInt32) (h : seg.Encodable)
    (hpseudo : PseudoSum pseudo) : seg.RoundTrips pseudo := by
  refine ⟨_, serialize_eq h, fun seg₀ => ?_⟩
  simp only [List.flatten_cons, List.flatten_nil, List.append_nil]
  exact parse_wire seg₀ (h.setCksum _) hpseudo (checksum_wire h hpseudo)

/-- A SYN with options and an odd number of payload bytes. -/
def optioned : TCPSegment := ⟨{ sport := 1024, dport := 80, doff := 6, syn := true }, [1, 2, 3]⟩

theorem segmentRoundTrips_of_encodable_optioned : optioned.Encodable ∧ optioned.RoundTrips 0 :=
  ⟨⟨by decide, by decide, by decide⟩,
    segmentRoundTrips_of_encodable optioned 0 ⟨by decide, by decide, by decide⟩ (Or.inl rfl)⟩

end TCPSegment

end Sponge
