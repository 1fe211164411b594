/-
  The checksums of captured packets.

  Source: distack-1.2.3-dev/src/base/protocol: `Packet::checksum`, and the check of the checksum
  in `parsePacket` of IP, TCP and UDP.

  The host is little-endian, and `unsigned long` has 32 bits.  TCP and UDP get the addresses of
  the pseudo header from the packet below them.
-/
import WormsAttack.Distack.Packets
import WormsAttack.Foundation.OnesComplement

namespace WormsAttack.Distack

open Foundation.OnesComplement

/-! ## The Internet checksum -/

def checksumLoop : UInt32 → List UInt8 → UInt32
  | result, a :: b :: rest => checksumLoop (result + (a.toUInt32 + 256 * b.toUInt32)) rest
  | result, [a] => result + a.toUInt32
  | result, [] => result

def checksum (buf : List UInt8) : UInt16 :=
  let result := checksumLoop 0 buf
  let result := (result >>> 16) + (result &&& 0xFFFF)
  let result := result + (result >>> 16)
  (~~~result &&& 0xFFFF).toUInt16

/-- The complement of the one's complement sum. -/
def rfc1071 (bytes : List UInt8) : Nat := 65535 - sum (words hostWord bytes)

theorem toNat_checksumLoop (result : UInt32) (buf : List UInt8)
    (h : result.toNat + (words hostWord buf).sum < 4294967296) :
    (checksumLoop result buf).toNat = result.toNat + (words hostWord buf).sum := by
  fun_induction checksumLoop result buf with
  | case1 result a b rest ih =>
    have hword : (result + (a.toUInt32 + 256 * b.toUInt32)).toNat =
        result.toNat + hostWord a b := by
      have := a.toNat_lt
      simp only [words, List.sum_cons, hostWord] at h ⊢
      simp only [UInt32.toNat_add, UInt32.toNat_mul, UInt8.toNat_toUInt32, UInt32.reduceToNat]
      omega
    rw [words, List.sum_cons, ← Nat.add_assoc, ← hword] at h ⊢
    exact ih h
  | case2 result a =>
    simp only [words, List.sum_singleton, hostWord, UInt8.toNat_zero] at h ⊢
    simp only [UInt32.toNat_add, UInt8.toNat_toUInt32]
    omega
  | case3 => rfl

theorem toNat_checksum {buf : List UInt8} (hlength : buf.length ≤ 131072) :
    (checksum buf).toNat = rfc1071 buf := by
  have hsum : (words hostWord buf).sum ≤ 4294901760 := by
    have := sum_words_le buf
    omega
  have hloop := toNat_checksumLoop 0 buf (by rw [UInt32.toNat_zero]; omega)
  rw [UInt32.toNat_zero, Nat.zero_add] at hloop
  have hmask : ∀ n : Nat, n &&& 65535 = n % 65536 := fun n => Nat.and_two_pow_sub_one_eq_mod n 16
  obtain ⟨hle, hfold⟩ := fold_fold rfl hsum
  unfold checksum rfc1071
  rw [sum_eq (forall_words hostWord_lt buf), ← hfold]
  simp only [UInt32.toNat_toUInt16, UInt32.toNat_and, UInt32.toNat_not, UInt32.toNat_add,
    UInt32.toNat_shiftRight, UInt32.reduceToNat, UInt32.size, hmask, Nat.shiftRight_eq_div_pow,
    Nat.reduceMod, Nat.reducePow, hloop]
  generalize (words hostWord buf).sum / 65536 + (words hostWord buf).sum % 65536 = r at hle ⊢
  omega

theorem checksum_eq_rfc1071 (buf : List UInt8) (hlength : buf.length ≤ 131072) :
    (checksum buf).toNat = 65535 - sum (words hostWord buf) ∧
      (checksum buf).toNat % 256 * 256 + (checksum buf).toNat / 256 =
        65535 - sum (words networkWord buf) ∧
      ∀ before after, buf = before ++ [0, 0] ++ after → before.length % 2 = 0 →
        sum (words hostWord
          (before ++ [(checksum buf).toUInt8, (checksum buf >>> 8).toUInt8] ++ after)) = 65535 := by
  have hchecksum := toNat_checksum hlength
  refine ⟨hchecksum, ?_, ?_⟩
  · have hle : sum (words hostWord buf) ≤ 65535 := by
      rw [sum_eq (forall_words hostWord_lt buf)]
      exact reduce_le _
    rw [sum_networkWord, hchecksum, rfc1071]
    omega
  · intro before after hbuf heven
    have hword : hostWord (checksum buf).toUInt8 (checksum buf >>> 8).toUInt8 =
        (checksum buf).toNat := by
      have := (checksum buf).toNat_lt
      simp only [hostWord, UInt16.toNat_toUInt8, UInt16.toNat_shiftRight, UInt16.reduceToNat,
        Nat.shiftRight_eq_div_pow, Nat.reduceMod, Nat.reducePow]
      omega
    have hzero : (words hostWord buf).sum = (words hostWord before).sum +
        (words hostWord after).sum := by
      rw [hbuf, List.append_assoc, words_append heven, List.sum_append]
      exact congrArg _ (Nat.zero_add _)
    have hstored : (words hostWord (before ++
        [(checksum buf).toUInt8, (checksum buf >>> 8).toUInt8] ++ after)).sum =
        (words hostWord buf).sum + (65535 - reduce (words hostWord buf).sum) := by
      rw [List.append_assoc, words_append heven, List.sum_append]
      change _ + (hostWord _ _ :: words hostWord after).sum = _
      rw [List.sum_cons, hword, hchecksum, rfc1071, sum_eq (forall_words hostWord_lt buf), hzero]
      omega
    rw [sum_eq (forall_words hostWord_lt _), hstored]
    exact reduce_complement _

theorem checksum_eq_rfc1071_header :
    ([0x45, 0, 0, 28, 0, 0, 0, 0, 64, 0x11, 0, 0, 1] : List UInt8).length ≤ 131072 ∧
      sum (words hostWord [0x45, 0, 0, 28, 0, 0, 0, 0, 64, 0x11, 0x79, 0xd2, 1]) = 65535 :=
  ⟨by decide, (checksum_eq_rfc1071 [0x45, 0, 0, 28, 0, 0, 0, 0, 64, 0x11, 0, 0, 1]
    (by decide)).2.2 [0x45, 0, 0, 28, 0, 0, 0, 0, 64, 0x11] [1] rfl rfl⟩

/-! ## The checks of the parsers -/

namespace Packet

/-- Two bytes as the host reads them. -/
def hostWordAt (p : Packet) (i : Nat) : Nat := p.byte i + 256 * p.byte (i + 1)

def zeroAt (i : Nat) (bytes : List UInt8) : List UInt8 :=
  bytes.take i ++ [0, 0] ++ bytes.drop (i + 2)

def addresses (below : Packet) : List UInt8 :=
  match below.protocol with
  | .ipv6 => (below.buffer.drop 8).take 32
  | _ => (below.buffer.drop 12).take 8

/-- RFC 791: an unfragmented packet, which may be followed by padding. -/
structure ValidIpv4 (p : Packet) : Prop where
  version : p.byte 0 / 16 = 4
  header : 20 ≤ p.ipHeaderlength
  total : p.ipHeaderlength ≤ p.ipTotallen
  stored : p.ipTotallen ≤ p.buffer.length
  unfragmented : p.word 6 % 16384 = 0
  checksum : p.hostWordAt 10 = rfc1071 (zeroAt 10 (p.buffer.take p.ipHeaderlength))

def ipPayload (p : Packet) : List UInt8 := (p.buffer.take p.ipTotallen).drop p.ipHeaderlength

variable {bytes : List UInt8}

theorem optionsSize_eq {p : Packet} {headerlength : Nat} (h : 20 ≤ headerlength)
    (hstored : headerlength ≤ p.size) : 20 + p.optionsSize headerlength = headerlength := by
  simp only [optionsSize]
  split_ifs <;> omega

theorem byte_lt (p : Packet) (i : Nat) : p.byte i < 256 := UInt8.toNat_lt _

section

variable {p : Packet} (h : ValidIpv4 p)

include h

theorem ValidIpv4.bounds : 20 ≤ p.buffer.length ∧ p.ipTotallen < 65536 := by
  have := h.header
  have := h.total
  have := h.stored
  have := p.byte_lt 2
  have := p.byte_lt (2 + 1)
  unfold ipTotallen word at *
  omega

theorem ValidIpv4.length_ipPayload :
    p.ipPayload.length = p.ipTotallen - p.ipHeaderlength := by
  have := h.stored
  simp only [ipPayload, List.length_drop, List.length_take]
  omega

theorem ValidIpv4.parsePacket_eq (hprotocol : p.protocol = .ip)
    (hsize : p.size = p.buffer.length) :
    p.parsePacket = { p with
      nextProtocol := getTransportProtocol (p.byte 9)
      layersize := p.ipHeaderlength
      size := p.ipTotallen } := by
  have hheader := h.header
  have htotal := h.total
  have hstored := h.stored
  have hoptions := optionsSize_eq hheader (hsize ▸ Nat.le_trans htotal hstored)
  rw [parsePacket, hprotocol]
  dsimp only
  rw [parseIp, if_pos ⟨hheader, htotal⟩, hoptions]
  congr 1
  split_ifs <;> omega

end

section

variable {below q : Packet} (h : ValidIpv4 below) (hbelow : below.protocol = .ip)
  (hbuffer : q.buffer = below.ipPayload) (hsize : q.size = below.ipPayload.length)

include h hbelow hbuffer hsize

end

theorem ValidIpv4.followed {buffer : List UInt8} (h : ValidIpv4 (new .ip buffer))
    (protocol : Protocol) (htransport : getTransportProtocol ((new .ip buffer).byte 9) = protocol)
    (hne : protocol ≠ .none) (hpos : 0 < protocol.minProtocolSize)
    (hroom : protocol.minProtocolSize ≤ (new .ip buffer).ipPayload.length) {depth : Nat}
    (hsize : (new .ip buffer).parsePacket.size ≤ depth) :
    ∃ q rest, createNextLayer depth (new .ip buffer).parsePacket =
        some ((new .ip buffer).parsePacket :: q :: rest) ∧ q.protocol = protocol ∧
      q.buffer = (new .ip buffer).ipPayload ∧
      q.size = (new protocol (new .ip buffer).ipPayload).parsePacket.size := by
  have hparsed := h.parsePacket_eq rfl rfl
  have hnext : (new .ip buffer).parsePacket.nextProtocol = protocol := by
    rw [hparsed, ← htransport]
  have hpayload : (new .ip buffer).parsePacket.next = new protocol (new .ip buffer).ipPayload := by
    rw [next, hnext, hparsed, ipPayload, List.drop_take]
  have hfits : (new .ip buffer).parsePacket.nextProtocol.minProtocolSize ≤
      (new .ip buffer).parsePacket.size - (new .ip buffer).parsePacket.layersize := by
    rw [hnext, hparsed]
    exact Nat.le_trans hroom (Nat.le_of_eq h.length_ipPayload)
  have hlaid : Laid (new .ip buffer).parsePacket := laid_parsePacket (by decide) h.bounds.1
  obtain ⟨q, rest, hlayers, _, hq⟩ := hlaid.followed (hnext ▸ hne) hfits (hnext ▸ hpos) _ hsize
  rw [hpayload] at hq
  refine ⟨q, rest, hlayers, ?_⟩
  rcases hq with rfl | ⟨_, rfl⟩ <;> exact ⟨parsePacket_protocol, parsePacket_buffer, rfl⟩

def datagram : List UInt8 :=
  [69, 0, 0, 29, 0, 0, 0, 0, 64, 17, 102, 206, 10, 0, 0, 1, 10, 0, 0, 2] ++
    [0, 7, 0, 7, 0, 9, 234, 203, 1]

end Packet

end WormsAttack.Distack
