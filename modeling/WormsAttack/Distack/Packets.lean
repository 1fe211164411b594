/-
  The layers of a captured frame.

  Source: distack-1.2.3-dev/src/base/protocol: `Packet::createNextLayer`, `Frame::parsePackets`,
  `PacketFactory::createPacket`, and `parsePacket` and `getMinProtocolSize` of each protocol.

  `parsePacket` reads the header at the beginning of a packet's buffer, and IP and IPv6 cut the
  packet down to the length in their header.  `createNextLayer` copies what comes after the
  layer into the buffer of the next packet and goes on there.

  The headers are packed, and `unsigned long` has 32 bits.  Numbers of two bytes are in network
  order.  The fields that no parser looks at, and the check of the checksums, are left out.
-/
import Mathlib.Algebra.Ring.Nat
import Mathlib.Data.List.Chain

namespace WormsAttack.Distack

open List

inductive Protocol
  | none
  | dataPayload
  | ethernet
  | arp
  | ip
  | ipv6
  | tcp
  | udp
  | icmp
  | mpls
  deriving DecidableEq

/-- `getMinProtocolSize`: the size of the header, and one byte of payload.  There is no
packet of protocol `none`. -/
def Protocol.minProtocolSize : Protocol → Nat
  | .none => 0
  | .dataPayload => 1
  | .ethernet => 14
  | .arp => 28
  | .ip => 20
  | .ipv6 => 40
  | .tcp => 20
  | .udp => 8
  | .icmp => 8
  | .mpls => 4

structure Packet where
  protocol : Protocol
  nextProtocol : Protocol
  buffer : List UInt8
  size : Nat
  layersize : Nat

namespace Packet

def new (protocol : Protocol) (buffer : List UInt8) : Packet where
  protocol := protocol
  nextProtocol := .none
  buffer := buffer
  size := buffer.length
  layersize := 0

/-! ## Parsers -/

def byte (p : Packet) (i : Nat) : Nat := (p.buffer.getD i 0).toNat

/-- Two bytes in network order. -/
def word (p : Packet) (i : Nat) : Nat := p.byte i * 256 + p.byte (i + 1)

def getTransportProtocol : Nat → Protocol
  | 0x06 => .tcp
  | 0x11 => .udp
  | 0x01 => .icmp
  | 0x04 => .ip
  | 0x29 => .ipv6
  | 0x89 => .mpls
  | _ => .dataPayload

def parseEthernet (p : Packet) : Packet :=
  if p.size < 14 then p
  else
    { p with
      nextProtocol :=
        match p.word 12 with
        | 0x0800 => .ip
        | 0x0806 => .arp
        | 0x86DD => .ipv6
        | 0x8847 => .mpls
        | 0x8848 => .mpls
        | 0x0000 => .dataPayload
        | _ => p.nextProtocol
      layersize := 14 }

def parseArp (p : Packet) : Packet :=
  { p with nextProtocol := .none, layersize := 28 }

def ipHeaderlength (p : Packet) : Nat := p.byte 0 % 16 * 4

def ipTotallen (p : Packet) : Nat := p.word 2

/-- The length of the options that fit into the packet, when the header is `headerlength`
bytes long. -/
def optionsSize (p : Packet) (headerlength : Nat) : Nat :=
  let size := headerlength - 20
  if 0 < size ∧ 20 + size ≤ p.size then size else 0

def parseIp (p : Packet) : Packet :=
  if 20 ≤ p.ipHeaderlength ∧ p.ipHeaderlength ≤ p.ipTotallen then
    { p with
      nextProtocol := getTransportProtocol (p.byte 9)
      layersize := 20 + p.optionsSize p.ipHeaderlength
      -- what is behind the total length is padding of the link layer
      size := if p.ipTotallen < p.size then p.ipTotallen else p.size }
  else
    -- the packet is corrupt
    { p with nextProtocol := .none, layersize := p.size }

def parseIpv6 (p : Packet) : Packet :=
  { p with
    nextProtocol := getTransportProtocol (p.byte 6)
    layersize := 40
    size := if 40 + p.word 4 < p.size then 40 + p.word 4 else p.size }

def tcpHeaderlength (p : Packet) : Nat := p.word 12 / 2 ^ 12 * 4

def parseTcp (p : Packet) : Packet :=
  if 20 ≤ p.tcpHeaderlength ∧ p.tcpHeaderlength ≤ p.size then
    { p with
      nextProtocol := .dataPayload
      layersize := 20 + p.optionsSize p.tcpHeaderlength }
  else { p with nextProtocol := .none, layersize := p.size }

def parseUdp (p : Packet) : Packet :=
  { p with nextProtocol := .dataPayload, layersize := 8 }

def parseIcmp (p : Packet) : Packet :=
  { p with
    nextProtocol :=
      match p.byte 0 with
      -- messages about a datagram carry its beginning
      | 3 | 4 | 5 | 11 | 12 => .ip
      | 0 | 8 | 13 | 14 => .dataPayload
      | _ => .none
    layersize := 8 }

def parseMpls (p : Packet) : Packet :=
  { p with nextProtocol := .ip, layersize := 4 }

def parsePayload (p : Packet) : Packet :=
  { p with nextProtocol := .none, layersize := p.size }

def parsePacket (p : Packet) : Packet :=
  match p.protocol with
  | .none => p
  | .dataPayload => p.parsePayload
  | .ethernet => p.parseEthernet
  | .arp => p.parseArp
  | .ip => p.parseIp
  | .ipv6 => p.parseIpv6
  | .tcp => p.parseTcp
  | .udp => p.parseUdp
  | .icmp => p.parseIcmp
  | .mpls => p.parseMpls

def next (p : Packet) : Packet :=
  .new p.nextProtocol ((p.buffer.drop p.layersize).take (p.size - p.layersize))

/-- `Packet::createNextLayer`: the chain of packets from `p` on, at most `depth` of them.
`none` is a chain that is longer. -/
def createNextLayer : (depth : Nat) → Packet → Option (List Packet)
  | 0, _ => none
  | depth + 1, p =>
      if p.nextProtocol = .none then some [p]
      else if p.size ≤ p.layersize then some [{ p with nextProtocol := .none }]
      else if p.size - p.layersize < p.nextProtocol.minProtocolSize then
        some [{ p with nextProtocol := .none }]
      else (createNextLayer depth p.next.parsePacket).map (p :: ·)

/-- `Frame::parsePackets` for a frame whose base packet has not been parsed yet. -/
def parsePackets (depth : Nat) (base : Packet) : Option (List Packet) :=
  createNextLayer depth base.parsePacket

/-! ## What a parser keeps -/

/-- The layer is not empty and lies in the packet, and the packet is still long enough
for its protocol. -/
structure Laid (p : Packet) : Prop where
  nonempty : 0 < p.layersize
  fits : p.layersize ≤ p.size
  enough : p.protocol.minProtocolSize ≤ p.size
  stored : p.size ≤ p.buffer.length

section

variable {p : Packet}

theorem optionsSize_le (h : 20 ≤ p.size) (headerlength : Nat) :
    20 + p.optionsSize headerlength ≤ p.size := by
  simp only [optionsSize]
  split_ifs with hfits
  · exact hfits.2
  · exact h

theorem optionsSize_le_headerlength {headerlength : Nat} (h : 20 ≤ headerlength) :
    20 + p.optionsSize headerlength ≤ headerlength := by
  simp only [optionsSize]
  split_ifs <;> omega

@[simp]
theorem parsePacket_buffer : p.parsePacket.buffer = p.buffer := by
  unfold parsePacket
  cases p.protocol with
  | ethernet =>
    simp only [parseEthernet]
    split_ifs <;> rfl
  | ip =>
    simp only [parseIp]
    split_ifs <;> rfl
  | tcp =>
    simp only [parseTcp]
    split_ifs <;> rfl
  | none | dataPayload | arp | ipv6 | udp | icmp | mpls => rfl

@[simp]
theorem parsePacket_protocol : p.parsePacket.protocol = p.protocol := by
  unfold parsePacket
  cases hprotocol : p.protocol with
  | ethernet =>
    simp only [parseEthernet]
    split_ifs <;> exact hprotocol
  | ip =>
    simp only [parseIp]
    split_ifs <;> exact hprotocol
  | tcp =>
    simp only [parseTcp]
    split_ifs <;> exact hprotocol
  | none | dataPayload | arp | ipv6 | udp | icmp | mpls => exact hprotocol

theorem parsePacket_sizes (hprotocol : p.protocol ≠ .none)
    (hmin : p.protocol.minProtocolSize ≤ p.size) :
    0 < p.parsePacket.layersize ∧ p.parsePacket.layersize ≤ p.parsePacket.size ∧
      p.protocol.minProtocolSize ≤ p.parsePacket.size ∧ p.parsePacket.size ≤ p.size := by
  unfold parsePacket
  cases heq : p.protocol with
  | none => exact absurd heq hprotocol
  | dataPayload | arp | udp | icmp | mpls =>
    rw [heq] at hmin
    simp only [Protocol.minProtocolSize] at hmin ⊢
    simp only [parsePayload, parseArp, parseUdp, parseIcmp, parseMpls]
    omega
  | ethernet =>
    rw [heq] at hmin
    simp only [Protocol.minProtocolSize] at hmin ⊢
    simp only [parseEthernet, if_neg (Nat.not_lt.mpr hmin)]
    omega
  | ip =>
    rw [heq] at hmin
    simp only [Protocol.minProtocolSize] at hmin ⊢
    have hfits := optionsSize_le hmin p.ipHeaderlength
    simp only [parseIp]
    split_ifs with hheader hpadding
    · have hoptions := optionsSize_le_headerlength (p := p) hheader.1
      dsimp only
      omega
    · dsimp only
      omega
    · dsimp only
      omega
  | ipv6 =>
    rw [heq] at hmin
    simp only [Protocol.minProtocolSize] at hmin ⊢
    simp only [parseIpv6]
    split_ifs <;> omega
  | tcp =>
    rw [heq] at hmin
    have hfits := optionsSize_le hmin p.tcpHeaderlength
    simp only [parseTcp]
    split_ifs <;> dsimp only <;> omega

theorem laid_parsePacket {protocol : Protocol} {buffer : List UInt8} (hprotocol : protocol ≠ .none)
    (hmin : protocol.minProtocolSize ≤ buffer.length) :
    Laid (new protocol buffer).parsePacket := by
  obtain ⟨hnonempty, hfits, henough, hsize⟩ :=
    parsePacket_sizes (p := new protocol buffer) hprotocol hmin
  exact ⟨hnonempty, hfits, by rwa [parsePacket_protocol], by rwa [parsePacket_buffer]⟩

end

/-! ## The chain -/

/-- `q` is the layer inside `p`: the bytes of `p` from the end of its layer to its size. -/
structure Encloses (p q : Packet) : Prop where
  protocol : q.protocol = p.nextProtocol
  buffer : q.buffer = (p.buffer.take p.size).drop p.layersize
  shorter : q.buffer.length < p.buffer.length
  smaller : q.size < p.size
  enough : q.protocol.minProtocolSize ≤ q.size

theorem Laid.encloses {p : Packet} (h : Laid p) (hnext : p.nextProtocol ≠ .none)
    (hroom : p.nextProtocol.minProtocolSize ≤ p.size - p.layersize) :
    Encloses p p.next.parsePacket ∧ Laid p.next.parsePacket ∧
      p.next.parsePacket.buffer.length = p.size - p.layersize := by
  have hlength : p.next.buffer.length = p.size - p.layersize := by
    have := h.stored
    simp only [next, new, length_take, length_drop]
    omega
  have hlaid : Laid p.next.parsePacket :=
    laid_parsePacket hnext (Nat.le_trans hroom (Nat.le_of_eq hlength.symm))
  have hstored := hlaid.stored
  have hnonempty := h.nonempty
  have hfits := h.fits
  rw [parsePacket_buffer, hlength] at hstored
  refine ⟨⟨parsePacket_protocol, ?_, ?_, ?_, hlaid.enough⟩, hlaid, ?_⟩
  · rw [parsePacket_buffer, drop_take]
    rfl
  · have := h.stored
    rw [parsePacket_buffer, hlength]
    omega
  · omega
  · rw [parsePacket_buffer, hlength]

/-- A chain in which each packet encloses the next, and that lies in `length` bytes. -/
structure Nested (chain : List Packet) (length : Nat) : Prop where
  encloses : chain.IsChain Encloses
  laid : ∀ p ∈ chain, Laid p
  sum : (chain.map layersize).sum ≤ length

theorem createNextLayer_nested (depth : Nat) : ∀ {p : Packet}, Laid p → p.size ≤ depth →
    ∃ first rest, createNextLayer depth p = some (first :: rest) ∧
      (first = p ∨ rest = [] ∧ first = { p with nextProtocol := .none }) ∧
      Nested (first :: rest) p.size := by
  induction depth with
  | zero =>
    intro p h hdepth
    have := h.nonempty
    have := h.fits
    omega
  | succ depth ih =>
    intro p h hdepth
    have hlast : ∀ q : Packet, Laid q → q.size = p.size → Nested [q] p.size := by
      intro q hq hsize
      refine ⟨.singleton q, by simpa using hq, ?_⟩
      simpa [hsize] using hq.fits
    have hstopped : Laid { p with nextProtocol := .none } :=
      ⟨h.nonempty, h.fits, h.enough, h.stored⟩
    unfold createNextLayer
    split_ifs with hnone hfull hroom
    · exact ⟨p, [], rfl, .inl rfl, hlast p h rfl⟩
    · exact ⟨_, [], rfl, .inr ⟨rfl, rfl⟩, hlast _ hstopped rfl⟩
    · exact ⟨_, [], rfl, .inr ⟨rfl, rfl⟩, hlast _ hstopped rfl⟩
    obtain ⟨hencloses, hlaid, hlength⟩ := h.encloses hnone (Nat.le_of_not_lt hroom)
    have hsmaller := hencloses.smaller
    obtain ⟨first, rest, hchain, hfirst, hnested⟩ := ih hlaid (by omega)
    refine ⟨p, first :: rest, by rw [hchain]; rfl, .inl rfl, ?_, ?_, ?_⟩
    · refine isChain_cons_cons.mpr ⟨?_, hnested.encloses⟩
      rcases hfirst with rfl | ⟨_, rfl⟩
      · exact hencloses
      · exact ⟨hencloses.protocol, hencloses.buffer, hencloses.shorter, hencloses.smaller,
          hencloses.enough⟩
    · exact forall_mem_cons.mpr ⟨h, hnested.laid⟩
    · have hsum := hnested.sum
      have hstored := hlaid.stored
      rw [map_cons, sum_cons]
      omega

theorem Laid.followed {p : Packet} (h : Laid p) (hnext : p.nextProtocol ≠ .none)
    (hroom : p.nextProtocol.minProtocolSize ≤ p.size - p.layersize)
    (hpos : 0 < p.nextProtocol.minProtocolSize) (depth : Nat) (hdepth : p.size ≤ depth) :
    ∃ q rest, createNextLayer depth p = some (p :: q :: rest) ∧
      createNextLayer (depth - 1) p.next.parsePacket = some (q :: rest) ∧
      (q = p.next.parsePacket ∨ rest = [] ∧ q = { p.next.parsePacket with nextProtocol := .none })
      := by
  obtain ⟨hencloses, hlaid, _⟩ := h.encloses hnext hroom
  have hsmaller := hencloses.smaller
  obtain ⟨depth, rfl⟩ : ∃ n, depth = n + 1 := ⟨depth - 1, by omega⟩
  obtain ⟨q, rest, hchain, hq, _⟩ := createNextLayer_nested depth hlaid (by omega)
  refine ⟨q, rest, ?_, hchain, hq⟩
  rw [createNextLayer, if_neg hnext, if_neg (by omega), if_neg (by omega), hchain]
  rfl

/-- A chain that has come to its end is the same however deep the recursion may go. -/
theorem createNextLayer_of_le {depth more : Nat} (hle : depth ≤ more) {p : Packet}
    {chain : List Packet} (h : createNextLayer depth p = some chain) :
    createNextLayer more p = some chain := by
  induction depth generalizing more p chain with
  | zero => cases h
  | succ depth ih =>
    cases more with
    | zero => cases hle
    | succ more =>
      unfold createNextLayer at h ⊢
      split_ifs at h ⊢ with hnone hfull hroom
      · exact h
      · exact h
      · exact h
      · obtain ⟨rest, hrest, rfl⟩ := Option.map_eq_some_iff.mp h
        rw [ih (Nat.le_of_succ_le_succ hle) hrest]
        rfl

/-- A frame is parsed into a finite chain of layers, each made of the bytes of the one before it,
strictly smaller and long enough for its protocol. -/
theorem parsePackets_nested {protocol : Protocol} {buffer : List UInt8}
    (hprotocol : protocol ≠ .none) (hmin : protocol.minProtocolSize ≤ buffer.length) :
    ∃ base rest, (∀ depth, buffer.length ≤ depth →
        parsePackets depth (new protocol buffer) = some (base :: rest)) ∧
      base.protocol = protocol ∧ base.buffer = buffer ∧
      (base :: rest).IsChain Encloses ∧
      (∀ p ∈ base :: rest, 0 < p.layersize ∧ p.layersize ≤ p.size ∧
        p.protocol.minProtocolSize ≤ p.size ∧ p.size ≤ p.buffer.length) ∧
      ((base :: rest).map layersize).sum ≤ buffer.length := by
  have hlaid := laid_parsePacket hprotocol hmin
  have hsize : (new protocol buffer).parsePacket.size ≤ buffer.length := by
    have hstored := hlaid.stored
    rwa [parsePacket_buffer] at hstored
  obtain ⟨base, rest, hchain, hbase, hnested⟩ :=
    createNextLayer_nested buffer.length hlaid hsize
  have hfirst : base.protocol = protocol ∧ base.buffer = buffer := by
    rcases hbase with rfl | ⟨_, rfl⟩ <;> exact ⟨parsePacket_protocol, parsePacket_buffer⟩
  refine ⟨base, rest, fun depth hdepth => createNextLayer_of_le hdepth hchain, hfirst.1, hfirst.2,
    hnested.encloses, fun p hp => ?_, Nat.le_trans hnested.sum hsize⟩
  have := hnested.laid p hp
  exact ⟨this.nonempty, this.fits, this.enough, this.stored⟩

def paddedFrame : List UInt8 :=
  List.replicate 12 0 ++ [0x08, 0x00] ++ [0x45, 0, 0, 28, 0, 0, 0, 0, 64, 0x11, 0, 0] ++
    List.replicate 8 1 ++ List.replicate 26 0

theorem parsePackets_nested_paddedFrame :
    (parsePackets 60 (new .ethernet paddedFrame)).map (·.map fun p => (p.protocol, p.size)) =
        some [(.ethernet, 60), (.ip, 28), (.udp, 8)] ∧
      ∃ base rest, (∀ depth, paddedFrame.length ≤ depth →
          parsePackets depth (new .ethernet paddedFrame) = some (base :: rest)) ∧
        base.protocol = .ethernet ∧ base.buffer = paddedFrame ∧
        (base :: rest).IsChain Encloses ∧
        (∀ p ∈ base :: rest, 0 < p.layersize ∧ p.layersize ≤ p.size ∧
          p.protocol.minProtocolSize ≤ p.size ∧ p.size ≤ p.buffer.length) ∧
        ((base :: rest).map layersize).sum ≤ paddedFrame.length :=
  ⟨by decide, parsePackets_nested (by decide) (by decide)⟩

/-! ## What the parsers read -/

inductive LinkType
  | ethernet
  | rawip

/-- `Frame::buildFrame`. -/
def LinkType.protocol : LinkType → Protocol
  | .ethernet => .ethernet
  | .rawip => .ip

end Packet

end WormsAttack.Distack
