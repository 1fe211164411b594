/-
  The messages the modelled modules exchange.

  Source: the INET message files IPDatagram.msg, TCPSegment.msg, UDPPacket.msg, SCTPMessage.msg,
  ICMPMessage.msg and IPProtocolId.msg.

  Only the header fields that a modelled function reads are kept.  The modules test the class of
  a `cMessage` at run time, so the class is the constructor of `Body`.
-/
import WormsAttack.Inet.IPAddress

namespace WormsAttack.Inet

/-- `TCPSegment`: ports, sequence numbers and flag bits. -/
structure TCPSegment where
  srcPort : UInt16
  destPort : UInt16
  sequenceNo : UInt32
  ackNo : UInt32
  urgBit : Bool
  ackBit : Bool
  pshBit : Bool
  rstBit : Bool
  synBit : Bool
  finBit : Bool
  deriving DecidableEq

/-- `UDPPacket`: the ports are `int`, with -1 for unset. -/
structure UDPPacket where
  sourcePort : Int
  destinationPort : Int
  deriving DecidableEq

structure SCTPMessage where
  srcPort : UInt16
  destPort : UInt16
  deriving DecidableEq

structure ICMPMessage where
  type : Int
  deriving DecidableEq

def icmpDestinationUnreachable : Int := 13

def ipProtIcmp : Int := 1

inductive Transport
  | tcp (segment : TCPSegment)
  | udp (packet : UDPPacket)
  | sctp (message : SCTPMessage)
  | icmp (message : ICMPMessage)
  | other
  deriving DecidableEq

structure Payload where
  transport : Transport
  byteLength : Nat
  deriving DecidableEq

/-- `IPDatagram`.  `byteLength` is the total length of the datagram. -/
structure IPDatagram where
  version : Int16
  srcAddress : IPAddress
  destAddress : IPAddress
  transportProtocol : Int
  byteLength : Nat
  encapsulated : Option Payload
  deriving DecidableEq

inductive Body
  /-- A `cMessage` that is not a packet. -/
  | plain
  /-- A `cPacket` that is not an IP datagram. -/
  | packet
  | datagram (d : IPDatagram)
  /-- The detector's block order `IPBlock`, with fields `IPAddress` and `Block`. -/
  | ipBlock (address : Int32) (block : Bool)
  deriving DecidableEq

structure Message where
  id : Nat
  name : String
  body : Body
  deriving DecidableEq

/-- The names of attack packets, which the flow exporter and the rate limiter both compare with. -/
def isAttackName (name : String) : Bool :=
  name == "udp_flood" || name == "SYN-Flood" || name == "ping_flood"

end WormsAttack.Inet
