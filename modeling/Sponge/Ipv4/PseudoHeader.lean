/-
  Sponge.Ipv4.PseudoHeader

  The sum over the pseudo-header (`IPv4Header::pseudo_cksum`) and the Internet checksum
  that starts from it.

  `pseudo_cksum()` is the sum of the words of the 12-byte pseudo-header, with the carries
  left in place.  A checksum that is seeded with it is in the very state it would be in
  after the pseudo-header was added (`add_pseudoHeader`).
-/

import Sponge.Ipv4.Basic

namespace Sponge

open Lib.BigEndian
open Lib.OnesComplement

namespace IPv4Header

/-- The pseudo-header: the addresses, a zero, the protocol and the payload's length. -/
def pseudoHeader (h : IPv4Header) : Buffer :=
  Layout.bytes [(4, h.src.toNat), (4, h.dst.toNat), (1, 0), (1, h.proto.toNat),
    (2, h.payloadLength.toNat)]

theorem pseudoHeader_length (h : IPv4Header) : h.pseudoHeader.length = 12 :=
  Layout.bytes_length _

/-- `pseudo_cksum()` is the sum of its words. -/
theorem sumFrom_pseudoHeader (h : IPv4Header) :
    sumFrom false h.pseudoHeader = h.pseudoCksum.toNat := by
  have hproto : sumFrom false (toBytes 1 0 ++ toBytes 1 h.proto.toNat) = h.proto.toNat := by
    simp [toBytes, sumFrom]
  have hbytes : h.pseudoHeader = toBytes 4 h.src.toNat ++ (toBytes 4 h.dst.toNat ++
      ((toBytes 1 0 ++ toBytes 1 h.proto.toNat) ++ toBytes 2 h.payloadLength.toNat)) := by
    simp [pseudoHeader]
  rw [hbytes, sumFrom_append_even (by simp), sumFrom_append_even (by simp),
    sumFrom_append_even (by simp), sumFrom_toBytes_four h.src.toNat_lt,
    sumFrom_toBytes_four h.dst.toNat_lt, hproto, sumFrom_toBytes h.payloadLength.toNat_lt,
    pseudoCksum_toNat]
  omega

/-- Seeding with `pseudo_cksum()` is adding the pseudo-header. -/
theorem add_pseudoHeader (h : IPv4Header) :
    (InternetChecksum.new 0).add h.pseudoHeader = .new h.pseudoCksum := by
  have hsum : ((InternetChecksum.new 0).add h.pseudoHeader).sum = h.pseudoCksum := by
    apply UInt32.toNat_inj.mp
    rw [InternetChecksum.add_sum]
    show (0 + sumFrom false h.pseudoHeader) % 2 ^ 32 = _
    rw [Nat.zero_add, sumFrom_pseudoHeader, Nat.mod_eq_of_lt h.pseudoCksum.toNat_lt]
  have hparity : ((InternetChecksum.new 0).add h.pseudoHeader).parity = false := by
    rw [InternetChecksum.add_parity, pseudoHeader_length]
    rfl
  calc (InternetChecksum.new 0).add h.pseudoHeader
      = ⟨((InternetChecksum.new 0).add h.pseudoHeader).sum,
          ((InternetChecksum.new 0).add h.pseudoHeader).parity⟩ := rfl
    _ = .new h.pseudoCksum := by
        rw [hsum, hparity]
        rfl

end IPv4Header

namespace InternetChecksum

/-- Adding the chunks and taking the value is computing the Internet checksum of what
    they add up to: the loop of `value` ends, its result is the complement of the
    one's-complement sum of the seed and the words, and the cuts do not matter. -/
structure Computes (seed : UInt32) (chunks : List Buffer) : Prop where
  ends : ∀ fuel, 2 ≤ fuel →
    foldCarries fuel (chunks.foldl add (new seed)).sum =
      foldCarries 2 (chunks.foldl add (new seed)).sum ∧
    ¬ foldCarries fuel (chunks.foldl add (new seed)).sum > 0xffff
  value_eq : (chunks.foldl add (new seed)).value.toNat =
    65535 - onesSum (seed.toNat / 2 ^ 16 :: seed.toNat % 2 ^ 16 :: words chunks.flatten)
  cuts : ∀ chunks' : List Buffer, chunks'.flatten = chunks.flatten →
    (chunks'.foldl add (new seed)).value = (chunks.foldl add (new seed)).value

/-- **The Internet checksum.**  It is computed from every seed and every list of chunks
    that do not overflow the sum, and a pseudo-header may be added or seeded. -/
theorem computes_of_length_le (seed : UInt32) (chunks : List Buffer) (hseed : seed.toNat < 2 ^ 19)
    (hlen : chunks.flatten.length ≤ 65535) : Computes seed chunks ∧
      ∀ h : IPv4Header, (chunks.foldl add (new h.pseudoCksum)).value =
        (chunks.foldl add ((new 0).add h.pseudoHeader)).value := by
  refine ⟨⟨fun fuel hfuel => foldCarries_ends _ hfuel, ?_, ?_⟩, ?_⟩
  · rw [add_flatten, value_add seed (by omega), checksum_eq_onesSum seed.toNat_lt]
  · intro chunks' heq
    rw [add_flatten, add_flatten, heq]
  · intro h
    rw [h.add_pseudoHeader]

/-- Three bytes, cut behind the first. -/
theorem computes_of_length_le_oddCut :
    (([[1], [2, 3]] : List Buffer).foldl add (new 0x1fffe)).value = 0xfbfd ∧
      Computes 0x1fffe [[1], [2, 3]] :=
  ⟨by decide, (computes_of_length_le 0x1fffe [[1], [2, 3]] (by decide) (by decide)).1⟩

end InternetChecksum

end Sponge
