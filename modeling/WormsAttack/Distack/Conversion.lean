/-
  Frames from the packets of the simulation.

  Source: distack-1.2.3-dev/src/base/network/omnetpp/NetworkInterfaceOmnetpp.cpp, and the
  getters and setters of IpPacket, TcpPacket, UdpPacket and IcmpPacket.

  TIME is the number of seconds that `simtime_t::dbl` gives.

  Options are not converted, and the payload of a packet is its length.
-/
import Mathlib.Algebra.Order.Floor.Ring
import Mathlib.Data.List.Forall2
import Mathlib.Data.Rat.Floor
import Mathlib.Tactic.IntervalCases
import WormsAttack.Distack.Packets
import WormsAttack.Inet.Packet

namespace WormsAttack.Distack.Conversion

open Inet

def withFlag (flags mask : UInt16) (set : Bool) : UInt16 :=
  if set then flags ||| mask else flags &&& ~~~mask

/-! ## IpPacket -/

abbrev IpAddr := Vector UInt8 4

/-- The constructor of `IP_ADDR` from an `IPAddress`: the last byte is the lowest. -/
def ipAddr (addr : IPAddress) : IpAddr :=
  Vector.ofFn fun i => UInt8.ofNat (addr.addr.toNat >>> ((3 - i.val) * 8)) &&& 0xFF

structure IpHeader where
  versionLen : UInt8
  typeofservice : UInt8
  totallen : UInt16
  identification : UInt16
  flagsFragoffset : UInt16
  ttl : UInt8
  protocol : UInt8
  checksum : UInt16
  sourceip : IpAddr
  destip : IpAddr

inductive IpFlag
  | mf
  | df
  | r

def IpFlag.mask : IpFlag → UInt16
  | .mf => 1
  | .df => 2
  | .r => 4

namespace IpHeader

def new : IpHeader where
  versionLen := 0
  typeofservice := 0
  totallen := 0
  identification := 0
  flagsFragoffset := 0
  ttl := 0
  protocol := 0
  checksum := 0
  sourceip := Vector.replicate 4 0
  destip := Vector.replicate 4 0

def getVersion (h : IpHeader) : UInt8 := (h.versionLen &&& 0xF0) >>> 4

def getHeaderlength (h : IpHeader) : UInt8 := (h.versionLen &&& 0x0F) * 4

def getFlags (h : IpHeader) : UInt16 := (h.flagsFragoffset &&& 0xE000) >>> 13

def getFragoffset (h : IpHeader) : UInt16 := h.flagsFragoffset &&& 0x1FFF

def getTtl (h : IpHeader) : UInt8 := h.ttl

def getProtocol (h : IpHeader) : UInt8 := h.protocol

def getSourceip (h : IpHeader) : IpAddr := h.sourceip

def getDestip (h : IpHeader) : IpAddr := h.destip

def isFlagSet (h : IpHeader) (flag : IpFlag) : Bool := h.getFlags &&& flag.mask == flag.mask

def setVersion (h : IpHeader) (ver : UInt8) : IpHeader :=
  { h with versionLen := ((ver &&& 0xF) <<< 4) ||| (h.getHeaderlength / 4) }

def setHeaderlength (h : IpHeader) (len : UInt8) : IpHeader :=
  { h with versionLen := (h.getVersion <<< 4) ||| ((len / 4) &&& 0xF) }

def setFlags (h : IpHeader) (flgs : UInt16) : IpHeader :=
  { h with flagsFragoffset := ((flgs &&& 0x07) <<< 13) ||| h.getFragoffset }

def setFlag (h : IpHeader) (flag : IpFlag) (set : Bool) : IpHeader :=
  h.setFlags (withFlag h.getFlags flag.mask set)

/-- `setFragoffset`, with the mask of the source. -/
def setFragoffset (h : IpHeader) (fragoff : UInt16) : IpHeader :=
  { h with flagsFragoffset := ((h.getFlags &&& 0x07) <<< 13) ||| (0xD &&& fragoff) }

end IpHeader

/-! ## TcpPacket, UdpPacket and IcmpPacket -/

structure TcpHeader where
  sourceport : UInt16
  destport : UInt16
  sequencenum : UInt32
  acknum : UInt32
  headerlenFlags : UInt16
  windowsize : UInt16
  checksum : UInt16
  urgentpointer : UInt16

inductive TcpFlag
  | fin
  | syn
  | rst
  | psh
  | ack
  | urg
  | ecn
  | cwr

def TcpFlag.mask : TcpFlag → UInt16
  | .fin => 1
  | .syn => 2
  | .rst => 4
  | .psh => 8
  | .ack => 16
  | .urg => 32
  | .ecn => 64
  | .cwr => 128

namespace TcpHeader

def new : TcpHeader where
  sourceport := 0
  destport := 0
  sequencenum := 0
  acknum := 0
  headerlenFlags := 0
  windowsize := 0
  checksum := 0
  urgentpointer := 0

def getHeaderlength (h : TcpHeader) : UInt16 := ((h.headerlenFlags &&& 0xF000) >>> 12) * 4

def getFlags (h : TcpHeader) : UInt16 := h.headerlenFlags &&& 0x3F

def isFlagSet (h : TcpHeader) (flag : TcpFlag) : Bool := h.getFlags &&& flag.mask == flag.mask

def setHeaderlength (h : TcpHeader) (hdlen : UInt16) : TcpHeader :=
  { h with headerlenFlags := (((hdlen / 4) &&& 0xF) <<< 12) ||| (h.getFlags &&& 0x3F) }

def setFlags (h : TcpHeader) (flgs : UInt16) : TcpHeader :=
  { h with headerlenFlags := (((h.getHeaderlength / 4) &&& 0xF) <<< 12) ||| (flgs &&& 0x3F) }

def setFlag (h : TcpHeader) (flag : TcpFlag) (set : Bool) : TcpHeader :=
  h.setFlags (withFlag h.getFlags flag.mask set)

end TcpHeader

structure UdpHeader where
  sourceport : UInt16
  destport : UInt16
  len : UInt16
  checksum : UInt16

structure IcmpHeader where
  type : UInt8
  code : UInt8
  checksum : UInt16
  misc : UInt32

/-! ## Frames -/

structure PacketOf (η : Type) where
  header : η
  nextProtocol : Protocol
  size : Nat

/-- `PacketFactory::createPacket`, with the size that is set next. -/
def PacketOf.new {η : Type} (header : η) (size : Nat) : PacketOf η where
  header := header
  nextProtocol := .none
  size := size

inductive Layer
  | ip (packet : PacketOf IpHeader)
  | tcp (packet : PacketOf TcpHeader)
  | udp (packet : PacketOf UdpHeader)
  | icmp (packet : PacketOf IcmpHeader)
  | payload (packet : PacketOf Unit)

namespace Layer

def protocol : Layer → Protocol
  | .ip _ => .ip
  | .tcp _ => .tcp
  | .udp _ => .udp
  | .icmp _ => .icmp
  | .payload _ => .dataPayload

def setNextProtocol (proto : Protocol) : Layer → Layer
  | .ip packet => .ip { packet with nextProtocol := proto }
  | .tcp packet => .tcp { packet with nextProtocol := proto }
  | .udp packet => .udp { packet with nextProtocol := proto }
  | .icmp packet => .icmp { packet with nextProtocol := proto }
  | .payload packet => .payload { packet with nextProtocol := proto }

end Layer

structure Frame where
  layers : List Layer
  capturelength : Nat
  packetlength : Nat
  tvSec : Int
  tvUsec : Int

/-! ## The messages of the simulation -/

structure Datagram where
  version : UInt8
  headerLength : UInt8
  byteLength : Nat
  identification : UInt16
  dontFragment : Bool
  moreFragments : Bool
  fragmentOffset : UInt16
  timeToLive : UInt8
  transportProtocol : UInt8
  srcAddress : IPAddress
  destAddress : IPAddress
  fragmentOffset_lt : fragmentOffset < 8192

structure Segment extends TCPSegment where
  window : UInt16
  urgentPointer : UInt16
  byteLength : Nat
  /-- The length of the first message in the payload array. -/
  payload : Option Nat

structure UserPacket extends UDPPacket where
  byteLength : Nat
  encapsulated : Option Nat

structure ControlMessage extends ICMPMessage where
  code : Int
  byteLength : Nat
  encapsulated : Option Nat

inductive Transport
  | tcp (segment : Segment)
  | udp (packet : UserPacket)
  | icmp (message : ControlMessage)

def Transport.protocolId : Transport → UInt8
  | .tcp _ => 6
  | .udp _ => 17
  | .icmp _ => 1

inductive Message
  | ip (datagram : Datagram) (encapsulatedMsg : Option Message)
  | transport (transport : Transport)
  | other

inductive Stop
  | cast
  | timestamp

/-! ## The conversion -/

/-- `convertMessage (IPDatagram*)`. -/
def convertDatagram (msg : Datagram) : PacketOf IpHeader :=
  let header := IpHeader.new
  let header := header.setVersion msg.version
  let header := header.setHeaderlength msg.headerLength
  let header := { header with typeofservice := 0 }
  let header := { header with totallen := UInt16.ofNat msg.byteLength }
  let header := { header with identification := msg.identification }
  let header := header.setFlag .r false
  let header := header.setFlag .df msg.dontFragment
  let header := header.setFlag .mf msg.moreFragments
  let header := header.setFragoffset msg.fragmentOffset
  let header := { header with ttl := msg.timeToLive }
  let header := { header with protocol := msg.transportProtocol }
  let header := { header with checksum := 0 }
  let header := { header with sourceip := ipAddr msg.srcAddress }
  let header := { header with destip := ipAddr msg.destAddress }
  .new header msg.byteLength

/-- `convertMessage (TCPSegment*)`. -/
def convertSegment (msg : Segment) : PacketOf TcpHeader :=
  let header := TcpHeader.new
  let header := { header with sourceport := msg.srcPort }
  let header := { header with destport := msg.destPort }
  let header := { header with sequencenum := msg.sequenceNo }
  let header := { header with acknum := msg.ackNo }
  let header := header.setHeaderlength 20
  let header := header.setFlag .fin msg.finBit
  let header := header.setFlag .syn msg.synBit
  let header := header.setFlag .rst msg.rstBit
  let header := header.setFlag .psh msg.pshBit
  let header := header.setFlag .ack msg.ackBit
  let header := header.setFlag .urg msg.urgBit
  let header := header.setFlag .ecn false
  let header := header.setFlag .cwr false
  let header := { header with windowsize := msg.window }
  let header := { header with checksum := 0 }
  let header := { header with urgentpointer := msg.urgentPointer }
  .new header msg.byteLength

/-- `convertMessage (UDPPacket*)`. -/
def convertUserPacket (msg : UserPacket) : PacketOf UdpHeader :=
  .new
    { sourceport := UInt16.ofInt msg.sourcePort
      destport := UInt16.ofInt msg.destinationPort
      len := UInt16.ofNat msg.byteLength
      checksum := 0 }
    msg.byteLength

/-- The types of the simulation have other numbers; one that is not known becomes 0. -/
def icmpType : Int → UInt8
  | 13 => 3
  | 5 => 5
  | 11 => 11
  | 12 => 12
  | 128 => 8
  | 129 => 0
  | 130 => 13
  | 131 => 14
  | _ => 0

/-- `convertMessage (ICMPMessage*)`. -/
def convertControlMessage (msg : ControlMessage) : PacketOf IcmpHeader :=
  .new
    { type := icmpType msg.type
      code := UInt8.ofInt msg.code
      checksum := 0
      misc := 0 }
    msg.byteLength

/-- The transport layer, and the length of what it carries. A segment without payload messages
carries itself, with length 0. -/
def convertTransport (transportProto : Protocol) (currentMessage : Option Message) :
    Except Stop (Option (Layer × Option Nat)) :=
  match currentMessage with
  | none => .ok none
  | some message =>
      match transportProto, message with
      | .tcp, .transport (.tcp segment) =>
          .ok (some (.tcp (convertSegment segment), some (segment.payload.getD 0)))
      | .udp, .transport (.udp packet) =>
          .ok (some (.udp (convertUserPacket packet), packet.encapsulated))
      | .icmp, .transport (.icmp message) =>
          .ok (some (.icmp (convertControlMessage message), message.encapsulated))
      | .tcp, _ => .error .cast
      | .udp, _ => .error .cast
      | .icmp, _ => .error .cast
      | _, _ => .ok none

def transportLayers : Option (Layer × Option Nat) → List Layer
  | none => []
  | some (transport, none) => [transport.setNextProtocol .none]
  | some (transport, some length) =>
      [transport.setNextProtocol .dataPayload, .payload (.new () length)]

/-- `modf`: the part before the point, and the rest. -/
def modf (t : Rat) : Int × Rat :=
  let intPart := if 0 ≤ t then ⌊t⌋ else ⌈t⌉
  (intPart, t - intPart)

def convertOmnetToDistack (message : Message) (timestamp : Rat) : Except Stop Frame := do
  let .ip datagram encapsulatedMsg := message | .error .cast
  let ipPacket := convertDatagram datagram
  let (earlier, current, currentMessage) ←
    if ipPacket.nextProtocol = .ip then
      match encapsulatedMsg with
      | some (.ip inner innerMsg) =>
          .ok ([Layer.ip { ipPacket with nextProtocol := .ip }], convertDatagram inner, innerMsg)
      | _ => .error .cast
    else .ok ([], ipPacket, encapsulatedMsg)
  let transportProto := Packet.getTransportProtocol current.header.getProtocol.toNat
  let transport ← convertTransport transportProto currentMessage
  let (intPart, fractPart) := modf timestamp
  let frame : Frame :=
    { layers := earlier ++ .ip { current with nextProtocol := transportProto } ::
        transportLayers transport
      capturelength := ipPacket.size
      packetlength := ipPacket.size
      tvSec := intPart
      -- the cast to `long` comes before the product
      tvUsec := (modf fractPart).1 * 1000 }
  if 0 ≤ frame.tvSec ∧ 0 ≤ frame.tvUsec then .ok frame else .error .timestamp

/-! ## What a frame should show -/

structure IpHeader.Shows (h : IpHeader) (d : Datagram) : Prop where
  dontFragment : h.isFlagSet .df = d.dontFragment
  moreFragments : h.isFlagSet .mf = d.moreFragments
  fragoffset : h.getFragoffset = d.fragmentOffset
  ttl : h.getTtl = d.timeToLive
  protocol : h.getProtocol = d.transportProtocol
  sourceip : ∀ i : Fin 4, h.getSourceip[i].toNat = d.srcAddress.getDByte i
  destip : ∀ i : Fin 4, h.getDestip[i].toNat = d.destAddress.getDByte i

structure TcpHeader.Shows (h : TcpHeader) (segment : Segment) : Prop where
  sourceport : h.sourceport = segment.srcPort
  destport : h.destport = segment.destPort
  sequencenum : h.sequencenum = segment.sequenceNo
  acknum : h.acknum = segment.ackNo
  fin : h.isFlagSet .fin = segment.finBit
  syn : h.isFlagSet .syn = segment.synBit
  rst : h.isFlagSet .rst = segment.rstBit
  psh : h.isFlagSet .psh = segment.pshBit
  ack : h.isFlagSet .ack = segment.ackBit
  urg : h.isFlagSet .urg = segment.urgBit

def Layer.ShowsDatagram (d : Datagram) : Layer → Prop
  | .ip packet => packet.header.Shows d
  | _ => False

def Layer.ShowsTransport : Transport → Layer → Prop
  | .tcp segment, .tcp packet => packet.header.Shows segment
  | .udp _, .udp _ => True
  | .icmp _, .icmp _ => True
  | _, _ => False

structure Simulated where
  outer : Datagram
  inner : Option Datagram
  transport : Transport
  timestamp : Rat
  protocols : (outer :: inner.toList).map Datagram.transportProtocol =
    inner.toList.map (fun _ => 4) ++ [transport.protocolId]
  nonneg : 0 ≤ timestamp

namespace Simulated

def datagrams (s : Simulated) : List Datagram := s.outer :: s.inner.toList

def message (s : Simulated) : Message :=
  match s.inner with
  | none => .ip s.outer (some (.transport s.transport))
  | some inner => .ip s.outer (some (.ip inner (some (.transport s.transport))))

/-- One layer for each datagram, the transport layer, and nothing but data behind it. -/
structure Faithful (s : Simulated) (frame : Frame) : Prop where
  layers : ∃ datagrams transport rest, frame.layers = datagrams ++ transport :: rest ∧
    List.Forall₂ Layer.ShowsDatagram s.datagrams datagrams ∧
    transport.ShowsTransport s.transport ∧ ∀ layer ∈ rest, layer.protocol = .dataPayload
  timestamp : frame.tvSec * 10 ^ 6 + frame.tvUsec = ⌊s.timestamp * 10 ^ 6⌋

end Simulated

/-! ## Headers -/

theorem flags_pack (flags fragoff : UInt16) :
    ((((flags &&& 0x07) <<< 13) ||| (fragoff &&& 0x1FFF)) &&& 0xE000) >>> 13 = flags &&& 0x07 := by
  apply UInt16.toBitVec_inj.mp
  apply BitVec.eq_of_getElem_eq
  intro i hi
  interval_cases i <;> simp

theorem fragoffset_pack (flags fragoff : UInt16) :
    (((flags &&& 0x07) <<< 13) ||| (fragoff &&& 0x1FFF)) &&& 0x1FFF = fragoff &&& 0x1FFF := by
  apply UInt16.toBitVec_inj.mp
  apply BitVec.eq_of_getElem_eq
  intro i hi
  interval_cases i <;> simp

theorem fragoffset_mask (fragoff : UInt16) : 0xD &&& fragoff = (fragoff &&& 0xD) &&& 0x1FFF := by
  rw [UInt16.and_comm 0xD, UInt16.and_assoc]
  rfl

namespace IpHeader

@[simp]
theorem getFlags_setFlags (h : IpHeader) (flgs : UInt16) :
    (h.setFlags flgs).getFlags = flgs &&& 0x07 :=
  flags_pack flgs h.flagsFragoffset

@[simp]
theorem getFlags_setFragoffset (h : IpHeader) (fragoff : UInt16) :
    (h.setFragoffset fragoff).getFlags = h.getFlags &&& 0x07 := by
  unfold setFragoffset
  rw [fragoffset_mask]
  exact flags_pack h.getFlags (fragoff &&& 0xD)

@[simp]
theorem getFragoffset_setFragoffset (h : IpHeader) (fragoff : UInt16) :
    (h.setFragoffset fragoff).getFragoffset = fragoff &&& 0xD := by
  unfold setFragoffset
  rw [fragoffset_mask]
  refine (fragoffset_pack h.getFlags (fragoff &&& 0xD)).trans ?_
  rw [UInt16.and_assoc]
  rfl

end IpHeader

theorem flagsFragoffset_convertDatagram (d : Datagram) :
    ∃ h : IpHeader, h.flagsFragoffset = 0 ∧ (convertDatagram d).header.flagsFragoffset =
      ((((h.setFlag .r false).setFlag .df d.dontFragment).setFlag .mf
        d.moreFragments).setFragoffset d.fragmentOffset).flagsFragoffset :=
  ⟨{ (IpHeader.new.setVersion d.version).setHeaderlength d.headerLength with
      totallen := UInt16.ofNat d.byteLength, identification := d.identification }, rfl, rfl⟩

theorem isFlagSet_convertDatagram (d : Datagram) :
    (convertDatagram d).header.isFlagSet .df = d.dontFragment ∧
      (convertDatagram d).header.isFlagSet .mf = d.moreFragments := by
  obtain ⟨h, hzero, heq⟩ := flagsFragoffset_convertDatagram d
  have hflags : (convertDatagram d).header.getFlags =
      ((((h.setFlag .r false).setFlag .df d.dontFragment).setFlag .mf
        d.moreFragments).setFragoffset d.fragmentOffset).getFlags := by
    unfold IpHeader.getFlags
    rw [heq]
  simp only [IpHeader.isFlagSet, hflags, IpHeader.getFlags_setFragoffset, IpHeader.setFlag,
    IpHeader.getFlags_setFlags]
  rw [IpHeader.getFlags, hzero]
  generalize d.dontFragment = df
  generalize d.moreFragments = mf
  revert df mf
  decide

theorem getFragoffset_convertDatagram (d : Datagram) :
    (convertDatagram d).header.getFragoffset = d.fragmentOffset &&& 0xD := by
  obtain ⟨h, -, heq⟩ := flagsFragoffset_convertDatagram d
  rw [IpHeader.getFragoffset, heq]
  exact IpHeader.getFragoffset_setFragoffset _ d.fragmentOffset

theorem toNat_ipAddr (addr : IPAddress) (i : Fin 4) :
    (ipAddr addr)[i].toNat = addr.getDByte i := by
  unfold ipAddr IPAddress.getDByte
  rw [Fin.getElem_fin, Vector.getElem_ofFn, UInt8.toNat_and, UInt8.toNat_ofNat',
    ← Nat.and_two_pow_sub_one_eq_mod, Nat.and_assoc]
  rfl

theorem shows_convertDatagram_iff (d : Datagram) :
    (convertDatagram d).header.Shows d ↔ d.fragmentOffset &&& 0xD = d.fragmentOffset := by
  constructor
  · intro h
    rw [← getFragoffset_convertDatagram, h.fragoffset]
  · intro h
    exact
      { dontFragment := (isFlagSet_convertDatagram d).1
        moreFragments := (isFlagSet_convertDatagram d).2
        fragoffset := (getFragoffset_convertDatagram d).trans h
        ttl := rfl
        protocol := rfl
        sourceip := toNat_ipAddr d.srcAddress
        destip := toNat_ipAddr d.destAddress }

theorem tcp_flags_pack (length flags : UInt16) :
    ((((length &&& 0xF) <<< 12) ||| (flags &&& 0x3F)) &&& 0x3F) = flags &&& 0x3F := by
  apply UInt16.toBitVec_inj.mp
  apply BitVec.eq_of_getElem_eq
  intro i hi
  interval_cases i <;> simp

@[simp]
theorem TcpHeader.getFlags_setFlags (h : TcpHeader) (flgs : UInt16) :
    (h.setFlags flgs).getFlags = flgs &&& 0x3F :=
  tcp_flags_pack (h.getHeaderlength / 4) flgs

theorem getFlags_convertSegment (segment : Segment) :
    ∃ h : TcpHeader, h.getFlags = 0 ∧ (convertSegment segment).header.getFlags =
      ((((((((h.setFlag .fin segment.finBit).setFlag .syn segment.synBit).setFlag .rst
        segment.rstBit).setFlag .psh segment.pshBit).setFlag .ack segment.ackBit).setFlag .urg
        segment.urgBit).setFlag .ecn false).setFlag .cwr false).getFlags := by
  refine ⟨TcpHeader.setHeaderlength { TcpHeader.new with
      sourceport := segment.srcPort, destport := segment.destPort
      sequencenum := segment.sequenceNo, acknum := segment.ackNo } 20, ?_,
    congrArg (· &&& 0x3F) rfl⟩
  refine (tcp_flags_pack (20 / 4) _).trans ?_
  change (0 &&& 0x3F : UInt16) &&& 0x3F = 0
  decide

/-- The bit of the segment that a flag stands for; the last two have none. -/
def Segment.bit (segment : Segment) : TcpFlag → Bool
  | .fin => segment.finBit
  | .syn => segment.synBit
  | .rst => segment.rstBit
  | .psh => segment.pshBit
  | .ack => segment.ackBit
  | .urg => segment.urgBit
  | .ecn => false
  | .cwr => false

theorem isFlagSet_convertSegment (segment : Segment) (flag : TcpFlag) :
    (convertSegment segment).header.isFlagSet flag = segment.bit flag := by
  obtain ⟨h, hzero, hflags⟩ := getFlags_convertSegment segment
  simp only [TcpHeader.setFlag, TcpHeader.getFlags_setFlags, hzero] at hflags
  rw [TcpHeader.isFlagSet, hflags]
  unfold Segment.bit
  generalize segment.finBit = fin
  generalize segment.synBit = syn
  generalize segment.rstBit = rst
  generalize segment.pshBit = psh
  generalize segment.ackBit = ack
  generalize segment.urgBit = urg
  clear hflags hzero
  revert fin syn rst psh ack urg
  cases flag <;> decide

theorem shows_convertSegment (segment : Segment) :
    (convertSegment segment).header.Shows segment where
  sourceport := rfl
  destport := rfl
  sequencenum := rfl
  acknum := rfl
  fin := isFlagSet_convertSegment segment .fin
  syn := isFlagSet_convertSegment segment .syn
  rst := isFlagSet_convertSegment segment .rst
  psh := isFlagSet_convertSegment segment .psh
  ack := isFlagSet_convertSegment segment .ack
  urg := isFlagSet_convertSegment segment .urg

/-! ## Time -/

theorem modf_of_nonneg {t : Rat} (h : 0 ≤ t) : modf t = (⌊t⌋, Int.fract t) := by
  unfold modf
  rw [if_pos h]
  rfl

theorem floor_micro_iff (t : Rat) : ⌊t⌋ * 10 ^ 6 = ⌊t * 10 ^ 6⌋ ↔ Int.fract t < 1 / 10 ^ 6 := by
  have hsplit : (⌊t⌋ : Rat) + Int.fract t = t := Int.floor_add_fract t
  rw [eq_comm, Int.floor_eq_iff]
  push_cast
  constructor
  · rintro ⟨-, hlt⟩
    linarith
  · intro hlt
    have hnonneg := Int.fract_nonneg t
    constructor <;> linarith

/-! ## The frame -/

/-- The frame of a datagram: the test for a datagram inside fails, since no one has set the
next protocol yet. -/
theorem convertOmnetToDistack_ip (d : Datagram) (encapsulatedMsg : Option Message) {t : Rat}
    (ht : 0 ≤ t) :
    convertOmnetToDistack (.ip d encapsulatedMsg) t =
      (convertTransport (Packet.getTransportProtocol d.transportProtocol.toNat)
        encapsulatedMsg).map fun transport =>
        { layers := .ip { convertDatagram d with
              nextProtocol := Packet.getTransportProtocol d.transportProtocol.toNat } ::
            transportLayers transport
          capturelength := d.byteLength
          packetlength := d.byteLength
          tvSec := ⌊t⌋
          tvUsec := 0 } := by
  have hnext : ¬ (convertDatagram d).nextProtocol = .ip := by
    intro h
    cases h
  have hsize : (convertDatagram d).size = d.byteLength := rfl
  have hfloor : 0 ≤ ⌊t⌋ := Int.floor_nonneg.mpr ht
  unfold convertOmnetToDistack
  simp only [if_neg hnext, hsize, modf_of_nonneg ht, modf_of_nonneg (Int.fract_nonneg t),
    Int.floor_fract, Int.zero_mul]
  change (convertTransport (Packet.getTransportProtocol d.transportProtocol.toNat)
    encapsulatedMsg >>= _) = _
  cases convertTransport (Packet.getTransportProtocol d.transportProtocol.toNat)
    encapsulatedMsg with
  | error f => rfl
  | ok transport => exact if_pos (And.intro hfloor (Int.le_refl 0))

theorem convertTransport_transport (transport : Transport) :
    ∃ layer length, convertTransport (Packet.getTransportProtocol transport.protocolId.toNat)
        (some (.transport transport)) = .ok (some (layer, length)) ∧
      layer.ShowsTransport transport := by
  cases transport with
  | tcp segment => exact ⟨_, _, rfl, shows_convertSegment segment⟩
  | udp packet | icmp message => exact ⟨_, _, rfl, trivial⟩

theorem Layer.showsTransport_setNextProtocol {transport : Transport} {layer : Layer}
    (h : layer.ShowsTransport transport) (proto : Protocol) :
    (layer.setNextProtocol proto).ShowsTransport transport := by
  cases transport <;> cases layer <;> exact h

theorem transportLayers_shows {transport : Transport} {layer : Layer}
    (h : layer.ShowsTransport transport) (length : Option Nat) :
    ∃ shown rest, transportLayers (some (layer, length)) = shown :: rest ∧
      shown.ShowsTransport transport ∧ ∀ other ∈ rest, other.protocol = .dataPayload := by
  cases length with
  | none => exact ⟨_, [], rfl, layer.showsTransport_setNextProtocol h _, List.forall_mem_nil _⟩
  | some length =>
    refine ⟨_, _, rfl, layer.showsTransport_setNextProtocol h _, ?_⟩
    intro other hother
    rw [List.mem_singleton.mp hother]
    rfl

namespace Simulated

theorem outer_protocol_of_none {s : Simulated} (h : s.inner = none) :
    s.outer.transportProtocol = s.transport.protocolId := by
  have hp := s.protocols
  rw [h] at hp
  exact List.head_eq_of_cons_eq hp

theorem outer_protocol_of_some {s : Simulated} {inner : Datagram} (h : s.inner = some inner) :
    s.outer.transportProtocol = 4 := by
  have hp := s.protocols
  rw [h] at hp
  exact List.head_eq_of_cons_eq hp

theorem message_eq (s : Simulated) :
    ∃ encapsulatedMsg, s.message = .ip s.outer encapsulatedMsg := by
  unfold message
  split
  · exact ⟨_, rfl⟩
  · exact ⟨_, rfl⟩

theorem frame_of_convert {s : Simulated} {frame : Frame}
    (hframe : convertOmnetToDistack s.message s.timestamp = .ok frame) :
    (∃ packet rest, frame.layers = .ip packet :: rest ∧
        packet.header = (convertDatagram s.outer).header) ∧
      frame.tvSec = ⌊s.timestamp⌋ ∧ frame.tvUsec = 0 := by
  obtain ⟨encapsulatedMsg, hmessage⟩ := s.message_eq
  rw [hmessage, convertOmnetToDistack_ip _ _ s.nonneg] at hframe
  cases htransport : convertTransport
      (Packet.getTransportProtocol s.outer.transportProtocol.toNat) encapsulatedMsg with
  | error f =>
    rw [htransport] at hframe
    cases hframe
  | ok transport =>
    rw [htransport] at hframe
    obtain rfl := Except.ok.inj hframe
    exact ⟨⟨_, _, rfl, rfl⟩, rfl, rfl⟩

theorem length_layers_of_some {s : Simulated} {inner : Datagram} (h : s.inner = some inner)
    {frame : Frame} (hframe : convertOmnetToDistack s.message s.timestamp = .ok frame) :
    frame.layers.length = 1 := by
  unfold message at hframe
  rw [h] at hframe
  rw [convertOmnetToDistack_ip _ _ s.nonneg, outer_protocol_of_some h] at hframe
  obtain rfl := Except.ok.inj hframe
  rfl

namespace Faithful

variable {s : Simulated} {frame : Frame} (h : s.Faithful frame)
  (hframe : convertOmnetToDistack s.message s.timestamp = .ok frame)

include h hframe

theorem inner_eq_none : s.inner = none := by
  cases hinner : s.inner with
  | none => rfl
  | some inner =>
    obtain ⟨datagrams, transport, rest, hlayers, hshown, -⟩ := h.layers
    have htwo : datagrams.length = 2 := by
      rw [← hshown.length_eq, Simulated.datagrams, hinner]
      rfl
    have hone := length_layers_of_some hinner hframe
    rw [hlayers, List.length_append, List.length_cons, htwo] at hone
    omega

theorem fragmentOffset_eq : s.outer.fragmentOffset &&& 0xD = s.outer.fragmentOffset := by
  obtain ⟨⟨packet, others, hfirst, hheader⟩, -⟩ := frame_of_convert hframe
  obtain ⟨datagrams, transport, rest, hsplit, hall, -⟩ := h.layers
  obtain ⟨layer, layers, hshows, -, rfl⟩ := List.forall₂_cons_left_iff.mp hall
  rw [hfirst] at hsplit
  obtain rfl := List.head_eq_of_cons_eq hsplit
  have hheader' : packet.header.Shows s.outer := hshows
  rw [hheader] at hheader'
  exact (shows_convertDatagram_iff s.outer).mp hheader'

theorem fract_lt : Int.fract s.timestamp < 1 / 10 ^ 6 := by
  obtain ⟨-, hsec, husec⟩ := frame_of_convert hframe
  have htime := h.timestamp
  rw [hsec, husec, Int.add_zero] at htime
  exact (floor_micro_iff s.timestamp).mp htime

end Faithful

/-- A frame is faithful exactly if there is no datagram inside another, the mask in
`setFragoffset` leaves the offset as it is, and less than a microsecond has passed since the
last second. -/
theorem faithful_iff (s : Simulated) :
    (∃ frame, convertOmnetToDistack s.message s.timestamp = .ok frame ∧ s.Faithful frame) ↔
      s.inner = none ∧ s.outer.fragmentOffset &&& 0xD = s.outer.fragmentOffset ∧
        Int.fract s.timestamp < 1 / 10 ^ 6 := by
  constructor
  · rintro ⟨frame, hframe, h⟩
    exact ⟨h.inner_eq_none hframe, h.fragmentOffset_eq hframe, h.fract_lt hframe⟩
  · rintro ⟨hinner, hoffset, htime⟩
    obtain ⟨layer, length, htransport, hshows⟩ := convertTransport_transport s.transport
    obtain ⟨shown, rest, hlayers, hshown, hrest⟩ := transportLayers_shows hshows length
    have hmessage : s.message = .ip s.outer (some (.transport s.transport)) := by
      rw [message, hinner]
    have hdatagrams : s.datagrams = [s.outer] := by
      rw [datagrams, hinner]
      rfl
    rw [hmessage, convertOmnetToDistack_ip _ _ s.nonneg, outer_protocol_of_none hinner, htransport]
    refine ⟨_, rfl, ⟨[_], shown, rest, congrArg _ hlayers, ?_, hshown, hrest⟩, ?_⟩
    · rw [hdatagrams]
      exact .cons ((shows_convertDatagram_iff s.outer).mpr hoffset) .nil
    · rw [Int.add_zero]
      exact (floor_micro_iff s.timestamp).mpr htime

end Simulated

/-! ## Three messages that come out wrong -/

def echoRequest : Transport := .icmp ⟨⟨128⟩, 0, 64, some 56⟩

def plainDatagram (protocol : UInt8) : Datagram where
  version := 4
  headerLength := 20
  byteLength := 84
  identification := 7
  dontFragment := false
  moreFragments := false
  fragmentOffset := 0
  timeToLive := 64
  transportProtocol := protocol
  srcAddress := ⟨0x0A000001⟩
  destAddress := ⟨0xC0A80001⟩
  fragmentOffset_lt := by decide

def fragment : Simulated where
  outer := { plainDatagram 1 with fragmentOffset := 2, fragmentOffset_lt := by decide }
  inner := none
  transport := echoRequest
  timestamp := 0
  protocols := rfl
  nonneg := le_refl 0

def tunnel : Simulated where
  outer := plainDatagram 4
  inner := some (plainDatagram 1)
  transport := echoRequest
  timestamp := 0
  protocols := rfl
  nonneg := le_refl 0

def halfSecond : Simulated where
  outer := plainDatagram 1
  inner := none
  transport := echoRequest
  timestamp := 1 / 2
  protocols := rfl
  nonneg := by norm_num

theorem not_faithful_each :
    (¬ ∃ frame, convertOmnetToDistack fragment.message fragment.timestamp = .ok frame ∧
        fragment.Faithful frame) ∧
      (¬ ∃ frame, convertOmnetToDistack tunnel.message tunnel.timestamp = .ok frame ∧
        tunnel.Faithful frame) ∧
      ¬ ∃ frame, convertOmnetToDistack halfSecond.message halfSecond.timestamp = .ok frame ∧
        halfSecond.Faithful frame := by
  refine ⟨?_, ?_, ?_⟩
  · rintro ⟨frame, hframe, h⟩
    exact absurd (h.fragmentOffset_eq hframe) (by decide)
  · rintro ⟨frame, hframe, h⟩
    exact absurd (h.inner_eq_none hframe) (Option.some_ne_none _)
  · rintro ⟨frame, hframe, h⟩
    have hfract := h.fract_lt hframe
    have hhalf : Int.fract (1 / 2 : Rat) = 1 / 2 := Int.fract_eq_self.mpr ⟨by norm_num, by norm_num⟩
    change Int.fract (1 / 2 : Rat) < 1 / 10 ^ 6 at hfract
    rw [hhalf] at hfract
    norm_num at hfract

end WormsAttack.Distack.Conversion
