/-
  The TribeFloodNetwork module.

  Source: ReaSE/src/applications/ddos/TribeFloodNetwork.cc and TribeFloodNetwork.h.

  NUMBERS.  Times are `Int` numbers of ticks, probabilities exact rationals, and `packetsSent`
  (a `long`) is an `Int`.

  WHAT IS NOT MODELLED.  The texts of the parameters: the lists are given as numbers and
  resolved addresses, and each start time with its random part.  Of `printAttackPath` only the
  exception that it throws for an IPv6 address.  Spoofed addresses: `spoofingOn` is never set.
-/
import WormsAttack.Foundation.Agenda
import WormsAttack.Inet.IPAddress

namespace WormsAttack.Ddos

open Foundation Inet

inductive Stop
  /-- `opp_error` with this message -/
  | error (message : String)
  | outOfRange
  | notIPv4
  | pastEvent
  | alreadyScheduled
  | noFloodFunc
  /-- the kernel would not deliver this event now -/
  | notNext
  deriving DecidableEq

inductive IPvXAddress
  | ipv4 (addr : IPAddress)
  | ipv6 (high low : UInt64)
  deriving DecidableEq

structure Parameters where
  attackStartTime : List Int
  maxPacket : List Int32
  attackType : List Int32
  packetSize : List Int32
  destinationPort : List Int32
  sourcePort : List Int32
  victimAddress : List IPvXAddress
  attackOnProbability : Rat
  attackSwitchProbability : Rat
  attackOffProbability : Rat

/-! ## Attack types -/

def synFlooding : Int32 := 1
def synAckFlooding : Int32 := 2
def rstFlooding : Int32 := 3
def icmpFlooding : Int32 := 4
def smurfFlooding : Int32 := 5
def udpFlooding : Int32 := 6
def finFlooding : Int32 := 7
def minAttackType : Int32 := 1
def maxAttackType : Int32 := 7

inductive FloodFunc
  | handleTCPFlood
  | handlePingFlood
  | handleUDPFlood
  deriving DecidableEq

def setFloodingFunc (type : Int32) : Except Stop FloodFunc :=
  if type > maxAttackType || type < minAttackType then
    .error (.error ("invalid attackType " ++ toString type.toUInt32.toNat ++ "\n"))
  else if type = icmpFlooding || type = smurfFlooding then .ok .handlePingFlood
  else if type = udpFlooding then .ok .handleUDPFlood
  else .ok .handleTCPFlood

structure Attack where
  victimPort : Int32
  dstPortWalkOn : Bool
  sourcePort : Int32
  srcPortWalkOn : Bool
  victimAddr : IPvXAddress
  packetSize : Int32
  attackType : Int32
  floodFunc : FloodFunc
  maxPacket : Int32
  deriving DecidableEq

def element {α : Type} (as : List α) (i : Nat) : Except Stop α :=
  match as[i]? with
  | some a => .ok a
  | none => .error .outOfRange

/-- The part of `setCurrentFloodingParameter` that reads the vectors.  A port of -1 stands
for a walk through the ports. -/
def attackAt (par : Parameters) (i : Nat) : Except Stop Attack := do
  let victimPort ← element par.destinationPort i
  let sourcePort ← element par.sourcePort i
  let victimAddr ← element par.victimAddress i
  let packetSize ← element par.packetSize i
  let attackType ← element par.attackType i
  let floodFunc ← setFloodingFunc attackType
  let maxPacket ← element par.maxPacket i
  .ok
    { victimPort := if victimPort = -1 then 1 else victimPort
      dstPortWalkOn := victimPort = -1
      sourcePort := if sourcePort = -1 then 9999 else sourcePort
      srcPortWalkOn := sourcePort = -1
      victimAddr := victimAddr
      packetSize := if packetSize < 1 then 1 else packetSize
      attackType := attackType
      floodFunc := floodFunc
      maxPacket := maxPacket }

/-! ## Packets -/

inductive FloodPayload
  | tcp (sequenceNo : Int32) (synBit ackBit rstBit finBit : Bool) (srcPort destPort : UInt16)
  | udp (bitLength : Int) (sourcePort destinationPort : Int32)
  | ping (byteLength : Int)
  deriving DecidableEq

/-- A packet for the IP layer of the victim's address.  The source address is not set. -/
structure FloodPacket where
  payload : FloodPayload
  destAddr : IPvXAddress
  attackTag : Int32
  deriving DecidableEq

namespace Attack

def walkPorts (a : Attack) : Attack :=
  let sourcePort := if a.srcPortWalkOn then a.sourcePort - 1 else a.sourcePort
  let victimPort := if a.dstPortWalkOn then a.victimPort + 1 else a.victimPort
  { a with
    sourcePort := if sourcePort < 1 then 9999 else sourcePort
    victimPort := if victimPort > 9999 then 1 else victimPort }

def handleTCPFlood (a : Attack) (sequenceNo : Int32) : Attack × FloodPacket :=
  let a := a.walkPorts
  (a,
    { payload := .tcp sequenceNo
        (a.attackType = synFlooding || a.attackType = synAckFlooding)
        (a.attackType = synAckFlooding) (a.attackType = rstFlooding)
        (a.attackType = finFlooding) a.sourcePort.toUInt32.toUInt16 a.victimPort.toUInt32.toUInt16
      destAddr := a.victimAddr
      attackTag := synFlooding })

def handleUDPFlood (a : Attack) : Attack × FloodPacket :=
  let a := a.walkPorts
  (a,
    { payload := .udp (8 * 8 + a.packetSize.toInt) a.sourcePort a.victimPort
      destAddr := a.victimAddr
      attackTag := udpFlooding })

def handlePingFlood (a : Attack) : Attack × FloodPacket :=
  (a,
    { payload := .ping a.packetSize.toInt
      destAddr := a.victimAddr
      attackTag := icmpFlooding })

def flood (a : Attack) (sequenceNo : Int32) : Attack × FloodPacket :=
  match a.floodFunc with
  | .handleTCPFlood => a.handleTCPFlood sequenceNo
  | .handlePingFlood => a.handlePingFlood
  | .handleUDPFlood => a.handleUDPFlood

end Attack

/-! ## The module -/

structure Scalars where
  attackIndex : Nat
  attackStarted : Int
  attackEnded : Int
  packetsSent : Int
  deriving DecidableEq

inductive Action
  | attack (index : Nat)
  | send (packet : FloodPacket)
  | record (scalars : Scalars)
  deriving DecidableEq

structure Zombie where
  now : Int
  /-- the start messages that are scheduled: their times and their entries -/
  startMsg : List (Int × Nat)
  floodingTime : Option Int
  index : Nat
  isActive : Bool
  attack : Option Attack
  floodingDelay : Int
  floodingTimes : Int32
  packetsSent : Int
  attackIndex : Nat
  attackStart : Int
  finished : Bool
  deriving DecidableEq

/-- What is drawn when a start message arrives: the two numbers that decide, and the delay. -/
structure Draw where
  prob : Rat
  probOff : Rat
  floodingDelay : Int

def indexError : Stop := .error "index in setCurrentFloodingParameter greater than vector size"

namespace Zombie

def scheduleAt (z : Zombie) (t : Int) : Except Stop Zombie :=
  if t < z.now then .error .pastEvent
  else
    match z.floodingTime with
    | some _ => .error .alreadyScheduled
    | none => .ok { z with floodingTime := some t }

def initial (par : Parameters) : Except Stop Zombie :=
  if par.attackStartTime.any (· < 0) then .error .pastEvent
  else if par.victimAddress.length ≠ par.destinationPort.length
      || par.destinationPort.length ≠ par.sourcePort.length
      || par.sourcePort.length ≠ par.packetSize.length
      || par.packetSize.length ≠ par.attackType.length
      || par.attackType.length ≠ par.maxPacket.length
      || par.maxPacket.length ≠ par.attackStartTime.length then
    .error (.error "input parameter arrays don't have the same lengths")
  else
    .ok
      { now := 0
        startMsg := par.attackStartTime.zipIdx
        floodingTime := none
        index := 0
        isActive := false
        attack := none
        floodingDelay := 0
        floodingTimes := 0
        packetsSent := 0
        attackIndex := 0
        attackStart := 0
        finished := false }

/-- The message `floodingTime` is not scheduled afterwards. -/
def setCurrentFloodingParameter (par : Parameters) (z : Zombie) (i : Nat) (floodingDelay : Int) :
    Except Stop (Zombie × List Action) :=
  if par.destinationPort.length ≤ i then .error indexError
  else do
    let attack ← attackAt par i
    match attack.victimAddr with
    | .ipv6 _ _ => .error .notIPv4
    | .ipv4 _ =>
        .ok
          ({ z with
              floodingTimes := 0
              attack := some attack
              floodingDelay := floodingDelay
              floodingTime := none
              attackIndex := z.index
              attackStart := z.now + floodingDelay }, [.attack z.index])

def recordAttackScalars (z : Zombie) : Zombie × List Action :=
  ({ z with packetsSent := 0 },
    [.record
      { attackIndex := z.attackIndex
        attackStarted := z.attackStart
        attackEnded := z.now
        packetsSent := z.packetsSent }])

def begin (par : Parameters) (z : Zombie) (draw : Draw) : Except Stop (Zombie × List Action) := do
  let (z, out) ← z.setCurrentFloodingParameter par z.index draw.floodingDelay
  let z ← z.scheduleAt (z.now + z.floodingDelay)
  .ok (z, out)

def decideAttack (par : Parameters) (z : Zombie) (draw : Draw) :
    Except Stop (Zombie × List Action) :=
  if z.isActive then
    if draw.prob ≤ par.attackSwitchProbability then do
      let (z, recorded) := z.recordAttackScalars
      let (z, out) ← z.begin par draw
      .ok (z, recorded ++ out)
    else if draw.probOff ≤ par.attackOffProbability then
      .ok { z with isActive := false, floodingTime := none }.recordAttackScalars
    else .ok (z, [])
  else if draw.prob ≤ par.attackOnProbability then do
    let (z, out) ← z.begin par draw
    .ok ({ z with isActive := true }, out)
  else .ok (z, [])

/-- `handleMessage`, for a start message. -/
def handleStart (par : Parameters) (z : Zombie) (draw : Draw) :
    Except Stop (Zombie × List Action) := do
  let (z, out) ← z.decideAttack par draw
  .ok ({ z with index := z.index + 1 }, out)

/-- `handleMessage`, for `floodingTime`. -/
def handleFlood (z : Zombie) (sequenceNo : Int32) : Except Stop (Zombie × List Action) :=
  match z.attack with
  | none => .error .noFloodFunc
  | some attack =>
      let (attack, packet) := attack.flood sequenceNo
      let z :=
        { z with
          attack := some attack
          floodingTimes := z.floodingTimes + 1
          packetsSent := z.packetsSent + 1 }
      if z.floodingTimes < attack.maxPacket || attack.maxPacket < 0 then do
        let z ← z.scheduleAt (z.now + z.floodingDelay)
        .ok (z, [.send packet])
      else
        let (z, recorded) := { z with isActive := false }.recordAttackScalars
        .ok (z, .send packet :: recorded)

def finish (z : Zombie) : Zombie × List Action :=
  if z.isActive then
    let (z, recorded) := z.recordAttackScalars
    ({ z with finished := true }, recorded)
  else ({ z with finished := true }, [])

def next (z : Zombie) (t : Int) : Bool :=
  !z.finished && z.now ≤ t && z.startMsg.all (t ≤ ·.1) && z.floodingTime.all (t ≤ ·)

end Zombie

inductive Event
  | start (draw : Draw)
  /-- `floodingTime` arrives; a sequence number is drawn for TCP -/
  | flood (sequenceNo : Int32)
  | message (t : Int)
  | finish (t : Int)

def step (par : Parameters) (z : Zombie) : Event → Except Stop (Zombie × List Action)
  | .start draw =>
      match Agenda.first z.startMsg with
      | none => .error .notNext
      | some (t, i) =>
          if z.next t then
            { z with now := t, startMsg := z.startMsg.erase (t, i) }.handleStart par draw
          else .error .notNext
  | .flood sequenceNo =>
      match z.floodingTime with
      | none => .error .notNext
      | some t =>
          if z.next t then { z with now := t, floodingTime := none }.handleFlood sequenceNo
          else .error .notNext
  | .message t => if z.next t then .ok ({ z with now := t }, []) else .error .notNext
  | .finish t =>
      if !z.finished && z.now ≤ t then .ok { z with now := t }.finish else .error .notNext

end WormsAttack.Ddos
