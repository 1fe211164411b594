/-
  The UDPWormVictim module.

  Source: ReaSE/src/applications/worm/UDPWormVictim.cc and UDPWormVictim.h.

  WHAT IS NOT MODELLED.  Times: a timer that is scheduled may expire at any time.  What is drawn
  at random (the number that decides whether a host is infected from the start, the address a
  packet is sent to) is part of the event, so the address range does not appear.  The statistic
  collector is not in the repository; a host's calls of it are part of what the host puts out.
-/
import WormsAttack.Inet.IPAddress

namespace WormsAttack.Worm

open Inet

inductive Stop
  | alreadyScheduled
  | impossible
  deriving DecidableEq

def udpHeaderBytes : Int := 8

/-- `FIRST_ATTACK_ID_OF_WORM_SPREAD`: worms are told from DDoS attacks by their tags. -/
def firstAttackIdOfWormSpread : Int32 := 10000

structure Parameters where
  maxProbingPackets : Int32
  sourcePort : Int32
  listenAndVictimPort : Int32
  probingPacketLength : Int32
  attackTag : Int32
  startProbingProbability : Rat

structure ProbingPacket where
  byteLength : Int
  sourcePort : Int32
  destinationPort : Int32
  destAddr : IPAddress
  attackTag : Int32
  deriving DecidableEq

inductive Action
  | addVictim
  | addStartVictim
  | addInfectedHost
  | send (packet : ProbingPacket)
  deriving DecidableEq

structure Host where
  isActive : Bool
  /-- `probingTimer` is scheduled -/
  isScheduled : Bool
  maxProbingPackets : Int32
  sourcePort : Int32
  victimPort : Int32
  packetLength : Int32
  attackTag : Int32
  deriving DecidableEq

inductive Message
  | selfMessage (targetAddr : IPAddress)
  /-- a UDP packet that does or does not contain a `UDPWormQueryMessage` -/
  | udpPacket (isQuery : Bool)
  | other

def scheduleAt (isScheduled : Bool) : Except Stop Bool :=
  if isScheduled then .error .alreadyScheduled else .ok true

namespace Host

/-- `initialize`.  The timer is new, so it is not scheduled. -/
def initial (par : Parameters) (uniform : Rat) : Except Stop (Host × List Action) :=
  let h : Host :=
    { isActive := par.startProbingProbability > uniform
      isScheduled := false
      maxProbingPackets := par.maxProbingPackets
      sourcePort := par.sourcePort
      victimPort := par.listenAndVictimPort
      packetLength := par.probingPacketLength
      attackTag := par.attackTag + firstAttackIdOfWormSpread }
  if h.isActive then do
    let isScheduled ← scheduleAt h.isScheduled
    .ok ({ h with isScheduled := isScheduled }, [.addVictim, .addStartVictim, .addInfectedHost])
  else .ok (h, [.addVictim])

/-- `sendProbingPacket`.  The address is made of an integer, so it is an IPv4 address. -/
def sendProbingPacket (h : Host) (targetAddr : IPAddress) : ProbingPacket :=
  { byteLength := udpHeaderBytes + h.packetLength.toInt
    sourcePort := h.sourcePort
    destinationPort := h.victimPort
    destAddr := targetAddr
    attackTag := h.attackTag }

def handleMessage (h : Host) : Message → Except Stop (Host × List Action)
  | .selfMessage targetAddr =>
      -- the kernel has delivered the message, so it is not scheduled any more
      let h := { h with isScheduled := false }
      if h.maxProbingPackets ≠ 0 then do
        let maxProbingPackets :=
          if h.maxProbingPackets > 0 then h.maxProbingPackets - 1 else h.maxProbingPackets
        let isScheduled ← scheduleAt h.isScheduled
        let h := { h with maxProbingPackets := maxProbingPackets, isScheduled := isScheduled }
        .ok (h, [.send (h.sendProbingPacket targetAddr)])
      else .ok (h, [])
  | .udpPacket isQuery =>
      if h.isActive then .ok (h, [])
      else if isQuery then do
        let isScheduled ← scheduleAt h.isScheduled
        .ok ({ h with isActive := true, isScheduled := isScheduled }, [.addInfectedHost])
      else .ok (h, [])
  | .other => .ok (h, [])

end Host

/-! ## The network

The network may delay, reorder, lose and repeat packets.  Everything that has been sent
stays in one list, in the order of sending, and a packet from there can be delivered to
any host at any time, any number of times or never. -/

inductive Event
  | initial (uniform : Rat)
  | timer (targetAddr : IPAddress)
  | probe (k : Nat)
  | udpPacket
  | other

def Action.packet : Action → Option ProbingPacket
  | .send packet => some packet
  | _ => none

def sentIn (out : List Action) : List ProbingPacket := out.filterMap Action.packet

def deliver (sent : List ProbingPacket) (h : Host) (msg : Message) :
    Except Stop (List ProbingPacket × Option Host × List Action) := do
  let (h, out) ← h.handleMessage msg
  .ok (sent ++ sentIn out, some h, out)

def handle {ι : Type} (par : ι → Parameters) (a : ι) (sent : List ProbingPacket)
    (host : Option Host) (e : Event) :
    Except Stop (List ProbingPacket × Option Host × List Action) :=
  match host, e with
  | none, .initial uniform => do
      let (h, out) ← Host.initial (par a) uniform
      .ok (sent ++ sentIn out, some h, out)
  | some h, .timer targetAddr =>
      if h.isScheduled then deliver sent h (.selfMessage targetAddr) else .error .impossible
  | some h, .probe k =>
      if k < sent.length then deliver sent h (.udpPacket true) else .error .impossible
  | some h, .udpPacket => deliver sent h (.udpPacket false)
  | some h, .other => deliver sent h .other
  | _, _ => .error .impossible

end WormsAttack.Worm
