/-
  A listening connection with its state variables and timers.

  Sources: ReaSE/src/transport/tcp/TCPConnection_hack.cc, and what it uses from
  inet/src/transport/tcp/TCPConnectionUtil.cc, TCPConnectionRcvSegment.cc and
  queues/TCPVirtualDataRcvQueue.cc.

  `processSegmentInListen` once more, with what `Tcp/Handlers.lean` leaves out: the state
  variables, the queues and the timers of each connection, and the segments it sends.

  WHAT IS NOT MODELLED.  The regions of the retransmission queue: how many bytes the blocks of a
  SACK option mark there is part of the option.  The variables of the TCP algorithm, the payload
  objects of segments, and what is only printed or recorded.

  CLONES.  `cloneListeningConnection` calls `configureStateVariables` on the connection that
  forks, so the clone starts with all its variables zero.
-/
import WormsAttack.Omnet.Kernel
import WormsAttack.Tcp.Handlers

namespace WormsAttack.Tcp.Full

open Inet Omnet

/-! ## Segments -/

inductive TCPOption
  /-- MSS with the length 4; `none`: it has no value -/
  | maximumSegmentSize (value : Option UInt32)
  /-- SACK_PERMITTED with the length 2 -/
  | sackPermitted
  /-- SACK with a length that leaves 2 modulo 8: the number of blocks, and the bytes that are
  sacked in the retransmission queue once they have been marked -/
  | sack (blocks : UInt32) (sackedBytes : UInt32)
  /-- EOL, NOP, an option of another kind, or one with a wrong length -/
  | other

structure TCPSegment extends Tcp.TCPSegment where
  sequenceNo : UInt32
  ackNo : UInt32
  window : UInt32
  headerLength : Nat
  options : List TCPOption
  payloadLength : Nat

inductive Sent
  | rst (sequenceNo : UInt32) (src dest : IPAddress) (srcPort destPort : Int)
  /-- `mss` and `sackPermitted` are the options of the header. -/
  | synAck (sequenceNo ackNo window : UInt32) (mss : Option UInt32) (sackPermitted : Bool)

/-! ## Sequence numbers -/

def seqLess (a b : UInt32) : Bool := a != b && b - a < 0x80000000

def seqLE (a b : UInt32) : Bool := b - a < 0x80000000

def seqGE (a b : UInt32) : Bool := a - b < 0x80000000

/-! ## The receive queue -/

structure Region where
  first : UInt32
  last : UInt32

structure ReceiveQueue where
  rcvNxt : UInt32
  regionList : List Region

namespace ReceiveQueue

/-- The regions that overlap or touch the one before them are merged into it. -/
def absorb (r : Region) : List Region → List Region
  | [] => [r]
  | next :: rest =>
      if seqGE r.last next.first then
        absorb { r with last := if seqLess r.last next.last then next.last else r.last } rest
      else r :: next :: rest

def merge (seg : Region) : List Region → List Region
  | [] => [seg]
  | r :: rest =>
      if seqLess r.last seg.first then r :: merge seg rest
      else if seqLess seg.last r.first then seg :: r :: rest
      else
        let r := if seqLess seg.first r.first then { r with first := seg.first } else r
        if seqLess r.last seg.last then absorb { r with last := seg.last } rest else r :: rest

def insertBytesFromSegment (q : ReceiveQueue) (seg : TCPSegment) : ReceiveQueue :=
  let regionList := merge ⟨seg.sequenceNo, seg.sequenceNo + .ofNat seg.payloadLength⟩ q.regionList
  { regionList := regionList
    rcvNxt :=
      match regionList.head? with
      | some r => if seqGE q.rcvNxt r.first then r.last else q.rcvNxt
      | none => q.rcvNxt }

def getAmountOfBufferedBytes (q : ReceiveQueue) : UInt32 :=
  q.regionList.foldl (fun bytes r => bytes + (r.last - r.first)) 0

def getAmountOfFreeBytes (q : ReceiveQueue) (maxRcvBuffer : UInt32) : UInt32 :=
  maxRcvBuffer - q.getAmountOfBufferedBytes

end ReceiveQueue

/-! ## Control blocks -/

/-- The members of `TCPStateVariables` that are read or written in LISTEN; `active` and
`fork` are members of the connection. -/
structure StateVariables where
  sndMss : UInt32
  sndUna : UInt32
  sndNxt : UInt32
  sndMax : UInt32
  sndWnd : UInt32
  sndWl1 : UInt32
  sndWl2 : UInt32
  iss : UInt32
  rcvNxt : UInt32
  rcvWnd : UInt32
  irs : UInt32
  rcvAdv : UInt32
  synRexmitCount : Int
  synRexmitTimeout : Int
  nagleEnabled : Bool
  delayedAcksEnabled : Bool
  limitedTransmitEnabled : Bool
  increasedIWEnabled : Bool
  ackNow : Bool
  sackSupport : Bool
  sackEnabled : Bool
  sndSackPerm : Bool
  rcvSackPerm : Bool
  rcvSacks : UInt32
  sackedBytes : UInt32
  sackedBytesOld : UInt32
  maxRcvBuffer : UInt32
  usedRcvBuffer : UInt32
  freeRcvBuffer : UInt32
  tcpRcvQueueDrops : UInt32

def StateVariables.zero : StateVariables :=
  { sndMss := 0, sndUna := 0, sndNxt := 0, sndMax := 0, sndWnd := 0, sndWl1 := 0, sndWl2 := 0
    iss := 0, rcvNxt := 0, rcvWnd := 0, irs := 0, rcvAdv := 0, synRexmitCount := 0
    synRexmitTimeout := 0, nagleEnabled := false, delayedAcksEnabled := false
    limitedTransmitEnabled := false, increasedIWEnabled := false, ackNow := false
    sackSupport := false, sackEnabled := false, sndSackPerm := false, rcvSackPerm := false
    rcvSacks := 0, sackedBytes := 0, sackedBytesOld := 0, maxRcvBuffer := 0, usedRcvBuffer := 0
    freeRcvBuffer := 0, tcpRcvQueueDrops := 0 }

structure Bounds where
  first : UInt32
  last : UInt32

/-- The state variables, the queues and the timers of a connection.  A timer is scheduled
for a time or not at all. -/
structure ControlBlock where
  state : StateVariables
  sendQueue : Bounds
  rexmitQueue : Bounds
  receiveQueue : ReceiveQueue
  connEstabTimer : Option Int
  synRexmitTimer : Option Int

def ControlBlock.fresh : ControlBlock :=
  { state := .zero, sendQueue := ⟨0, 0⟩, rexmitQueue := ⟨0, 0⟩, receiveQueue := ⟨0, []⟩
    connEstabTimer := none, synRexmitTimer := none }

/-- The parameters of the module that `configureStateVariables` reads. -/
structure Parameters where
  advertisedWindow : Int
  delayedAcksEnabled : Bool
  nagleEnabled : Bool
  limitedTransmitEnabled : Bool
  increasedIWEnabled : Bool
  mss : UInt32
  sackSupport : Bool
  tcpAlgorithmClass : String

def Parameters.default : Parameters :=
  { advertisedWindow := 14 * 536, delayedAcksEnabled := false, nagleEnabled := true
    limitedTransmitEnabled := false, increasedIWEnabled := false, mss := 536
    sackSupport := false, tcpAlgorithmClass := "TCPReno" }

def configureStateVariables (par : Parameters) (v : StateVariables) :
    Except Stop StateVariables :=
  if par.advertisedWindow > 65535 ∨ par.advertisedWindow ≤ 0 then
    .error (.error ("Invalid advertisedWindow parameter: " ++ toString par.advertisedWindow))
  else if par.sackSupport && par.tcpAlgorithmClass != "TCPReno" then .error .assertion
  else
    let window := UInt32.ofNat par.advertisedWindow.toNat
    .ok { v with
      delayedAcksEnabled := par.delayedAcksEnabled, nagleEnabled := par.nagleEnabled
      limitedTransmitEnabled := par.limitedTransmitEnabled
      increasedIWEnabled := par.increasedIWEnabled, rcvWnd := window, rcvAdv := window
      maxRcvBuffer := window, sndMss := par.mss, sackSupport := par.sackSupport }

/-! ## Answering a SYN -/

/-- `selectInitialSeqNum`.  The number `iss` is taken from the clock. -/
def selectInitialSeqNum (b : ControlBlock) (iss : UInt32) : ControlBlock :=
  { b with
    state := { b.state with iss := iss, sndUna := iss, sndNxt := iss, sndMax := iss }
    sendQueue := ⟨iss + 1, iss + 1⟩
    rexmitQueue := ⟨iss + 1, iss + 1⟩ }

def updateWndInfo (v : StateVariables) (seg : TCPSegment) : StateVariables :=
  if seg.ack && (seqLess v.sndWl1 seg.sequenceNo ||
      (v.sndWl1 == seg.sequenceNo && seqLE v.sndWl2 seg.ackNo) ||
      (v.sndWl2 == seg.ackNo && decide (v.sndWnd < seg.window))) then
    { v with sndWnd := seg.window, sndWl1 := seg.sequenceNo, sndWl2 := seg.ackNo }
  else v

/-- One round of `readHeaderOptions`. -/
def readOption (v : StateVariables) : TCPOption → Except Stop StateVariables
  | .maximumSegmentSize none =>
      .error (.error "TCPOption for MSS does not contain the data its getLength() promises")
  | .maximumSegmentSize (some value) =>
      let mss := min v.sndMss value
      .ok { v with sndMss := if mss = 0 then 536 else mss }
  | .sackPermitted =>
      .ok { v with rcvSackPerm := true, sackEnabled := v.sackSupport && v.sndSackPerm }
  | .sack blocks sackedBytes =>
      if v.sackEnabled && decide (0 < blocks) then
        .ok { v with
          rcvSacks := v.rcvSacks + blocks, sackedBytesOld := v.sackedBytes
          sackedBytes := sackedBytes }
      else .ok v
  | .other => .ok v

def readHeaderOptions (v : StateVariables) (seg : TCPSegment) : Except Stop StateVariables :=
  seg.options.foldlM readOption v

def updateRcvQueueVars (q : ReceiveQueue) (v : StateVariables) : StateVariables :=
  let free := q.getAmountOfFreeBytes v.maxRcvBuffer
  { v with freeRcvBuffer := free, usedRcvBuffer := v.maxRcvBuffer - free }

def updateRcvWnd (q : ReceiveQueue) (v : StateVariables) : StateVariables :=
  let v := updateRcvQueueVars q v
  let win := v.freeRcvBuffer
  let win := if win < v.maxRcvBuffer / 4 ∧ win < v.sndMss then 0 else win
  let win := if win < v.rcvAdv - v.rcvNxt then v.rcvAdv - v.rcvNxt else win
  let win := if win > 65535 then 65535 else win
  { v with
    rcvAdv := if 0 < win ∧ seqGE (v.rcvNxt + win) v.rcvAdv then v.rcvNxt + win else v.rcvAdv
    rcvWnd := win }

/-- `sendSynAck` in LISTEN, with `writeHeaderOptions`. -/
def sendSynAck (b : ControlBlock) : ControlBlock × Sent :=
  let v := updateRcvWnd b.receiveQueue b.state
  let v := { v with sndMax := v.iss + 1, sndNxt := v.iss + 1 }
  let w := if v.sackSupport then { v with sndSackPerm := true, sackEnabled := v.rcvSackPerm } else v
  ({ b with state := w },
    .synAck v.iss v.rcvNxt v.rcvWnd (if 0 < v.sndMss then some v.sndMss else none) v.sackSupport)

/-- `startSynRexmitTimer`, and the timer for the establishment of the connection. -/
def startTimers (now : Int) (b : ControlBlock) : ControlBlock :=
  { b with
    state := { b.state with synRexmitCount := 0, synRexmitTimeout := seconds 3 }
    synRexmitTimer := some (now + seconds 3)
    connEstabTimer := b.connEstabTimer.or (some (now + seconds 75)) }

/-- What the SYN says is taken over: from `state->rcv_nxt = ...` to `updateWndInfo`. -/
def receiveSyn (iss : UInt32) (seg : TCPSegment) (b : ControlBlock) : ControlBlock :=
  let rcvNxt := seg.sequenceNo + 1
  let b := selectInitialSeqNum
    { b with
      state := { b.state with
        rcvNxt := rcvNxt, rcvAdv := rcvNxt + b.state.rcvWnd, irs := seg.sequenceNo }
      receiveQueue := { b.receiveQueue with rcvNxt := rcvNxt } } iss
  { b with state := updateWndInfo b.state seg }

/-- The SYN is answered: from the header options to the timers. -/
def answerSyn (now : Int) (seg : TCPSegment) (b : ControlBlock) :
    Except Stop (ControlBlock × Sent) := do
  let v ← (if seg.headerLength > 20 then readHeaderOptions b.state seg else .ok b.state)
  let answered := sendSynAck { b with state := { v with ackNow := true } }
  .ok (startTimers now answered.1, answered.2)

def queuePayload (seg : TCPSegment) (b : ControlBlock) : ControlBlock × TCPEventCode :=
  if seg.payloadLength > 0 then
    let v := updateRcvQueueVars b.receiveQueue b.state
    if v.freeRcvBuffer.toNat ≥ seg.payloadLength then
      ({ b with state := v, receiveQueue := b.receiveQueue.insertBytesFromSegment seg }, .rcvSyn)
    else
      ({ b with state := { v with tcpRcvQueueDrops := v.tcpRcvQueueDrops + 1 } }, .ignore)
  else (b, .rcvSyn)

/-! ## The listening connection -/

structure State where
  base : Tcp.State
  block : Nat → ControlBlock

structure Moment where
  par : Parameters
  now : Int
  iss : UInt32
  uniqueNumber : Int

def acceptSyn (m : Moment) (s : State) (p : Nat) (seg : TCPSegment) :
    Except Stop (State × TCPEventCode × List Sent) := do
  let answered ← answerSyn m.now seg (receiveSyn m.iss seg (s.block p))
  let queued := queuePayload seg answered.1
  .ok ({ s with block := Function.update s.block p queued.1 }, queued.2, [answered.2])

/-- The connection forks.  It gets a new retransmission queue and is configured again; the
clone is not. -/
def forkConnection (m : Moment) (s : State) (p : Nat) (c : TCPConnection) (seg : TCPSegment) :
    Except Stop State := do
  let v ← configureStateVariables m.par (s.block p).state
  let base ← Tcp.forkConnection s.base p c seg.toTCPSegment m.uniqueNumber
  .ok
    { base := base
      block := Function.update
        (Function.update s.block p { s.block p with state := v, rexmitQueue := ⟨0, 0⟩ })
        s.base.heap.length .fresh }

def processSegmentInListen (m : Moment) (s : State) (p : Nat) (c : TCPConnection)
    (seg : TCPSegment) : Except Stop (State × TCPEventCode × List Sent) :=
  if seg.rst then .ok (s, .ignore, [])
  else if seg.ack then
    .ok (s, .ignore, [.rst seg.ackNo seg.destAddr seg.srcAddr seg.destPort seg.srcPort])
  else if seg.syn then
    if c.fork then
      match acceptAnotherConnection s.base with
      | (true, base) => do
          let s ← forkConnection m { s with base := base } p c seg
          acceptSyn m s p seg
      | (false, base) => .ok ({ s with base := base }, .ignore, [])
    else do
      let base ← updateSockPair s.base p c seg.destAddr seg.srcAddr seg.srcPort
      acceptSyn m { s with base := base } p seg
  else .ok (s, .ignore, [])

end WormsAttack.Tcp.Full
