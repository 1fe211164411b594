/-
  The TCP_hack module.

  Sources: ReaSE/src/transport/tcp/TCP_hack.cc and TCPConnection_hack.cc, and what they inherit
  from inet/src/transport/tcp/TCP.cc, TCPConnectionBase.cc, TCPConnectionEventProc.cc and
  TCPConnectionRcvSegment.cc.

  A listening connection forks when a SYN arrives: the connection itself becomes a worker, and a
  clone goes on listening.

  OBJECTS.  A connection is named by its position in `heap`.  A connection that has been deleted
  is `none`; to use it is undefined behaviour.

  WHAT IS NOT MODELLED.  Sequence numbers, queues and timers.  Where the event code depends on
  them, the answer is part of the event: `Answers` for a segment, and the parameters of the
  commands and timers.
-/
import Mathlib.Logic.Function.Basic
import WormsAttack.Foundation.Run
import WormsAttack.Inet.IPAddress

namespace WormsAttack.Tcp

open Foundation Inet

inductive TcpState
  | init
  | closed
  | listen
  | synSent
  | synRcvd
  | established
  | closeWait
  | lastAck
  | finWait1
  | finWait2
  | closing
  | timeWait
  deriving DecidableEq

def TcpState.stateName : TcpState → String
  | .init => "INIT"
  | .closed => "CLOSED"
  | .listen => "LISTEN"
  | .synSent => "SYN_SENT"
  | .synRcvd => "SYN_RCVD"
  | .established => "ESTABLISHED"
  | .closeWait => "CLOSE_WAIT"
  | .lastAck => "LAST_ACK"
  | .finWait1 => "FIN_WAIT_1"
  | .finWait2 => "FIN_WAIT_2"
  | .closing => "CLOSING"
  | .timeWait => "TIME_WAIT"

inductive TCPEventCode
  | ignore
  | openActive
  | openPassive
  | send
  | close
  | abort
  | status
  | rcvData
  | rcvAck
  | rcvSyn
  | rcvSynAck
  | rcvFin
  | rcvFinAck
  | rcvRst
  | rcvUnexpSyn
  | timeout2MSL
  | timeoutConnEstab
  | timeoutFinWait2
  deriving DecidableEq

inductive Stop
  | error (message : String)
  | assertion
  /-- a connection is used that has been deleted -/
  | dangling

structure SockPair where
  localAddr : IPAddress
  remoteAddr : IPAddress
  localPort : Int
  remotePort : Int
  deriving DecidableEq

structure AppConnKey where
  appGateIndex : Int
  connId : Int
  deriving DecidableEq

/-- The members of a `TCPConnection_hack`, with `active` and `fork` of its state
variables. -/
structure TCPConnection where
  key : AppConnKey
  sock : SockPair
  fsm : TcpState
  active : Bool
  fork : Bool
  worker : Bool

structure State where
  maxThreadCount : Int
  currentConnectionCount : Int
  heap : List (Option TCPConnection)
  tcpAppConnMap : AppConnKey → Option Nat
  tcpConnMap : SockPair → Option Nat

/-- The initialization.  A limit that is not positive is no limit (`INT_MAX`). -/
def initial (maxThreadCount : Int) : State :=
  { maxThreadCount := if maxThreadCount ≤ 0 then 2147483647 else maxThreadCount
    currentConnectionCount := 0
    heap := []
    tcpAppConnMap := fun _ => none
    tcpConnMap := fun _ => none }

def State.get (s : State) (p : Nat) : Except Stop TCPConnection :=
  match s.heap[p]? with
  | some (some c) => .ok c
  | _ => .error .dangling

def State.put (s : State) (p : Nat) (c : TCPConnection) : State :=
  { s with heap := s.heap.set p (some c) }

/-! ## Maps -/

/-- `createConnection`, and the entry in `tcpAppConnMap`. -/
def createConnection (s : State) (key : AppConnKey) : State :=
  { s with
    heap := s.heap ++ [some
      { key := key, sock := ⟨⟨0⟩, ⟨0⟩, -1, -1⟩, fsm := .init
        active := false, fork := false, worker := false }]
    tcpAppConnMap := Function.update s.tcpAppConnMap key (some s.heap.length) }

def addSockPair (s : State) (p : Nat) (c : TCPConnection) (sock : SockPair) :
    Except Stop State :=
  match s.tcpConnMap sock with
  | some _ =>
      if sock.remoteAddr.isUnspecified && sock.remotePort == -1 then
        .error (.error ("Address already in use: there is already a connection listening on " ++
          sock.localAddr.str ++ ":" ++ toString sock.localPort))
      else
        .error (.error ("Address already in use: there is already a connection " ++
          sock.localAddr.str ++ ":" ++ toString sock.localPort ++ " to " ++
          sock.remoteAddr.str ++ ":" ++ toString sock.remotePort))
  | none =>
      .ok { s.put p { c with sock := sock } with
        tcpConnMap := Function.update s.tcpConnMap sock (some p) }

/-- `updateSockPair`.  The local port stays as it is. -/
def updateSockPair (s : State) (p : Nat) (c : TCPConnection) (localAddr remoteAddr : IPAddress)
    (remotePort : Int) : Except Stop State :=
  if s.tcpConnMap c.sock ≠ some p then .error .assertion
  else
    let sock := ⟨localAddr, remoteAddr, c.sock.localPort, remotePort⟩
    .ok { s.put p { c with sock := sock } with
      tcpConnMap :=
        Function.update (Function.update s.tcpConnMap c.sock none) sock (some p) }

/-- `addForkedConnection`: the connection gets a new id, and the clone the old one. -/
def addForkedConnection (s : State) (p q : Nat) (localAddr remoteAddr : IPAddress)
    (remotePort : Int) (uniqueNumber : Int) : Except Stop State := do
  let c ← s.get p
  let s ← updateSockPair s p c localAddr remoteAddr remotePort
  let clone ← s.get q
  let s ← addSockPair s q clone clone.sock
  let c ← s.get p
  let key := { c.key with connId := uniqueNumber }
  let appConnMap := Function.update (Function.update s.tcpAppConnMap c.key none) key (some p)
  .ok { s.put p { c with key := key } with
    tcpAppConnMap := Function.update appConnMap clone.key (some q) }

/-! ## The limit -/

def acceptAnotherConnection (s : State) : Bool × State :=
  if s.maxThreadCount > s.currentConnectionCount then
    (true, { s with currentConnectionCount := s.currentConnectionCount + 1 })
  else (false, s)

def canceledHalfOpenConnection (s : State) : Bool × State :=
  if s.currentConnectionCount ≤ 0 then (false, s)
  else (true, { s with currentConnectionCount := s.currentConnectionCount - 1 })

/-- `removeConnection`, with the destructor. -/
def removeConnection (s : State) (p : Nat) : Except Stop State := do
  let c ← s.get p
  .ok (canceledHalfOpenConnection
    { s with
      heap := s.heap.set p none
      tcpAppConnMap := Function.update s.tcpAppConnMap c.key none
      tcpConnMap := Function.update s.tcpConnMap c.sock none }).2

/-! ## The state machine -/

/-- The switch of `performStateTransition`. -/
def transition (worker active : Bool) : TcpState → TCPEventCode → TcpState
  | .init, .openPassive => .listen
  | .init, .openActive => .synSent
  | .listen, .openActive => .synSent
  | .listen, .send => .synSent
  | .listen, .close => .closed
  | .listen, .abort => .closed
  | .listen, .rcvSyn => .synRcvd
  | .synRcvd, .close => .finWait1
  | .synRcvd, .abort => .closed
  | .synRcvd, .timeoutConnEstab =>
      if worker then .closed else if active then .closed else .listen
  | .synRcvd, .rcvRst =>
      if worker then .closed else if active then .closed else .listen
  | .synRcvd, .rcvAck => .established
  | .synRcvd, .rcvFin => .closeWait
  | .synRcvd, .rcvUnexpSyn => .closed
  | .synSent, .close => .closed
  | .synSent, .abort => .closed
  | .synSent, .timeoutConnEstab => .closed
  | .synSent, .rcvRst => .closed
  | .synSent, .rcvSynAck => .established
  | .synSent, .rcvSyn => .synRcvd
  | .established, .close => .finWait1
  | .established, .abort => .closed
  | .established, .rcvFin => .closeWait
  | .established, .rcvRst => .closed
  | .established, .rcvUnexpSyn => .closed
  | .closeWait, .close => .lastAck
  | .closeWait, .abort => .closed
  | .closeWait, .rcvRst => .closed
  | .closeWait, .rcvUnexpSyn => .closed
  | .lastAck, .abort => .closed
  | .lastAck, .rcvAck => .closed
  | .lastAck, .rcvRst => .closed
  | .lastAck, .rcvUnexpSyn => .closed
  | .finWait1, .abort => .closed
  | .finWait1, .rcvFin => .closing
  | .finWait1, .rcvAck => .finWait2
  | .finWait1, .rcvFinAck => .timeWait
  | .finWait1, .rcvRst => .closed
  | .finWait1, .rcvUnexpSyn => .closed
  | .finWait2, .abort => .closed
  | .finWait2, .rcvFin => .timeWait
  | .finWait2, .timeoutFinWait2 => .closed
  | .finWait2, .rcvRst => .closed
  | .finWait2, .rcvUnexpSyn => .closed
  | .closing, .abort => .closed
  | .closing, .rcvAck => .timeWait
  | .closing, .rcvRst => .closed
  | .closing, .rcvUnexpSyn => .closed
  | .timeWait, .abort => .closed
  | .timeWait, .timeout2MSL => .closed
  | .timeWait, .rcvRst => .closed
  | .timeWait, .rcvUnexpSyn => .closed
  | state, _ => state

/-- `performStateTransition`; the result is `false` if the connection is closed. -/
def performStateTransition (s : State) (p : Nat) (event : TCPEventCode) :
    Except Stop (Bool × State) := do
  let c ← s.get p
  if c.fsm = .closed then .error .assertion
  else if event = .ignore then .ok (true, s)
  else
    let fsm := transition c.worker c.active c.fsm event
    .ok (decide (fsm ≠ .closed), s.put p { c with fsm := fsm })

/-- The state transition, and `removeConnection` if the connection is closed. -/
def finish (s : State) (p : Nat) (event : TCPEventCode) : Except Stop State := do
  let (open?, s) ← performStateTransition s p event
  if open? then .ok s else removeConnection s p

/-! ## Commands -/

inductive Command
  /-- `localPort` is the ephemeral port if none is given. -/
  | openActive (localAddr remoteAddr : IPAddress) (localPort remotePort : Int)
  | openPassive (localAddr : IPAddress) (localPort : Int) (fork : Bool)
  | send
  /-- `pending`: there are data that have not been sent. -/
  | close (pending : Bool)
  | abort
  | status

def processOpenActive (s : State) (p : Nat) (c : TCPConnection)
    (localAddr remoteAddr : IPAddress) (localPort remotePort : Int) :
    Except Stop (State × TCPEventCode) :=
  if c.fsm ≠ .init then
    .error (.error "Error processing command OPEN_ACTIVE: connection already exists")
  else if remoteAddr.isUnspecified || remotePort == -1 then
    .error (.error
      "Error processing command OPEN_ACTIVE: remote address and port must be specified")
  else do
    let s ← addSockPair s p { c with active := true } ⟨localAddr, remoteAddr, localPort, remotePort⟩
    .ok (s, .openActive)

def processOpenPassive (s : State) (p : Nat) (c : TCPConnection) (localAddr : IPAddress)
    (localPort : Int) (fork : Bool) : Except Stop (State × TCPEventCode) :=
  if c.fsm ≠ .init then
    .error (.error "Error processing command OPEN_PASSIVE: connection already exists")
  else if localPort == -1 then
    .error (.error "Error processing command OPEN_PASSIVE: local port must be specified")
  else do
    let s ← addSockPair s p { c with active := false, fork := fork } ⟨localAddr, ⟨0⟩, localPort, -1⟩
    .ok (s, .openPassive)

def processSend (s : State) (p : Nat) (c : TCPConnection) : Except Stop (State × TCPEventCode) :=
  match c.fsm with
  | .init => .error (.error "Error processing command SEND: connection not open")
  | .listen => .ok (s.put p { c with active := true }, .send)
  | .lastAck | .finWait1 | .finWait2 | .closing | .timeWait =>
      .error (.error "Error processing command SEND: connection closing")
  | _ => .ok (s, .send)

def processClose (s : State) (c : TCPConnection) (pending : Bool) :
    Except Stop (State × TCPEventCode) :=
  match c.fsm with
  | .init => .error (.error "Error processing command CLOSE: connection not open")
  | .synRcvd | .established | .closeWait => .ok (s, if pending then .ignore else .close)
  | .lastAck | .finWait1 | .finWait2 | .closing | .timeWait =>
      .error (.error "Duplicate CLOSE command: connection already closing")
  | _ => .ok (s, .close)

def processAbort (s : State) (c : TCPConnection) : Except Stop (State × TCPEventCode) :=
  if c.fsm = .init then .error (.error "Error processing command ABORT: connection not open")
  else .ok (s, .abort)

def processStatus (s : State) (c : TCPConnection) : Except Stop (State × TCPEventCode) :=
  if c.fsm = .init then .error (.error "Error processing command STATUS: connection not open")
  else .ok (s, .status)

/-- `processAppCommand`, without the state transition. -/
def processAppCommand (s : State) (p : Nat) (c : TCPConnection) :
    Command → Except Stop (State × TCPEventCode)
  | .openActive localAddr remoteAddr localPort remotePort =>
      processOpenActive s p c localAddr remoteAddr localPort remotePort
  | .openPassive localAddr localPort fork => processOpenPassive s p c localAddr localPort fork
  | .send => processSend s p c
  | .close pending => processClose s c pending
  | .abort => processAbort s c
  | .status => processStatus s c

/-! ## Segments -/

structure TCPSegment where
  srcAddr : IPAddress
  destAddr : IPAddress
  srcPort : Int
  destPort : Int
  syn : Bool
  ack : Bool
  rst : Bool

structure Answers where
  /-- It acknowledges the SYN that was sent. -/
  acceptableAck : Bool
  /-- There is room for its payload in the receive buffer. -/
  fits : Bool
  /-- What `processSegment1stThru8th` returns. -/
  code : TCPEventCode
  /-- `ev.getUniqueNumber()`. -/
  uniqueNumber : Int

def findConnForSegment (s : State) (seg : TCPSegment) : Option Nat :=
  (s.tcpConnMap ⟨seg.destAddr, seg.srcAddr, seg.destPort, seg.srcPort⟩).or <|
    (s.tcpConnMap ⟨⟨0⟩, seg.srcAddr, seg.destPort, seg.srcPort⟩).or <|
      (s.tcpConnMap ⟨seg.destAddr, ⟨0⟩, seg.destPort, -1⟩).or <|
        s.tcpConnMap ⟨⟨0⟩, ⟨0⟩, seg.destPort, -1⟩

def cloneListeningConnection (s : State) (c : TCPConnection) : State :=
  { s with
    heap := s.heap ++ [some
      { key := c.key, sock := ⟨c.sock.localAddr, ⟨0⟩, c.sock.localPort, -1⟩, fsm := .listen
        active := false, fork := true, worker := false }] }

/-- The connection becomes a worker, and a clone goes on listening. -/
def forkConnection (s : State) (p : Nat) (c : TCPConnection) (seg : TCPSegment)
    (uniqueNumber : Int) : Except Stop State :=
  addForkedConnection ((cloneListeningConnection s c).put p { c with worker := true }) p
    s.heap.length seg.destAddr seg.srcAddr seg.srcPort uniqueNumber

def processSegmentInListen (s : State) (p : Nat) (c : TCPConnection) (seg : TCPSegment)
    (answers : Answers) : Except Stop (State × TCPEventCode) :=
  if seg.rst then .ok (s, .ignore)
  else if seg.ack then .ok (s, .ignore)
  else if seg.syn then
    if c.fork then
      match acceptAnotherConnection s with
      | (true, s) => do
          let s ← forkConnection s p c seg answers.uniqueNumber
          .ok (s, if answers.fits then .rcvSyn else .ignore)
      | (false, s) => .ok (s, .ignore)
    else do
      let s ← updateSockPair s p c seg.destAddr seg.srcAddr seg.srcPort
      .ok (s, if answers.fits then .rcvSyn else .ignore)
  else .ok (s, .ignore)

def processSegmentInSynSent (s : State) (p : Nat) (c : TCPConnection) (seg : TCPSegment)
    (answers : Answers) : Except Stop (State × TCPEventCode) :=
  if seg.ack && !answers.acceptableAck then .ok (s, .ignore)
  else if seg.rst then .ok (s, if seg.ack then .rcvRst else .ignore)
  else if seg.syn then do
    let s ← updateSockPair s p c seg.destAddr seg.srcAddr seg.srcPort
    .ok (s, if !answers.fits then .ignore else if seg.ack then .rcvSynAck else .rcvSyn)
  else .ok (s, .ignore)

/-- `processTCPSegment`, without the state transition. -/
def processTCPSegment (s : State) (p : Nat) (c : TCPConnection) (seg : TCPSegment)
    (answers : Answers) : Except Stop (State × TCPEventCode) :=
  if !c.sock.localAddr.isUnspecified &&
      (c.sock.localAddr != seg.destAddr || c.sock.localPort != seg.destPort) then
    .error .assertion
  else if !c.sock.remoteAddr.isUnspecified &&
      (c.sock.remoteAddr != seg.srcAddr || c.sock.remotePort != seg.srcPort) then
    .error .assertion
  else
    match c.fsm with
    | .listen => processSegmentInListen s p c seg answers
    | .synSent => processSegmentInSynSent s p c seg answers
    | _ => .ok (s, answers.code)

/-! ## Timers -/

inductive Timer
  | the2MSL
  | connEstab
  | finWait2
  /-- `givingUp`: the retransmission count is exceeded. -/
  | synRexmit (givingUp : Bool)
  /-- A timer of the TCP algorithm, and the event code it sets. -/
  | algorithm (code : TCPEventCode)

/-- `processTimer`, without the state transition. -/
def processTimer (c : TCPConnection) : Timer → Except Stop TCPEventCode
  | .the2MSL =>
      if c.fsm = .timeWait then .ok .timeout2MSL
      else .error (.error
        ("Internal error: received time-wait (2MSL) timeout in state " ++ c.fsm.stateName))
  | .connEstab =>
      if c.fsm = .synRcvd ∨ c.fsm = .synSent then .ok .timeoutConnEstab
      else .error (.error
        ("Internal error: received CONN_ESTAB timeout in state " ++ c.fsm.stateName))
  | .finWait2 =>
      if c.fsm = .finWait2 then .ok .timeoutFinWait2
      else .error (.error
        ("Internal error: received FIN_WAIT_2 timeout in state " ++ c.fsm.stateName))
  | .synRexmit givingUp =>
      if givingUp then .ok .abort
      else if c.fsm = .synSent ∨ c.fsm = .synRcvd then .ok .ignore
      else .error (.error
        ("Internal error: SYN-REXMIT timer expired while in state " ++ c.fsm.stateName))
  | .algorithm code => .ok code

/-! ## Messages -/

inductive Event
  | command (key : AppConnKey) (command : Command)
  | segment (seg : TCPSegment) (answers : Answers)
  | icmp
  | timer (p : Nat) (timer : Timer)

/-- The connection a command is for; one is created if there is none. -/
def connForApp (s : State) (key : AppConnKey) : State × Nat :=
  match s.tcpAppConnMap key with
  | some p => (s, p)
  | none => (createConnection s key, s.heap.length)

def handleMessage (s : State) : Event → Except Stop (State × Unit)
  | .command key command => do
      let (s, p) := connForApp s key
      let c ← s.get p
      let (s, event) ← processAppCommand s p c command
      let s ← finish s p event
      .ok (s, ())
  | .segment seg answers =>
      match findConnForSegment s seg with
      | none => .ok (s, ())
      | some p => do
          let c ← s.get p
          let (s, event) ← processTCPSegment s p c seg answers
          let s ← finish s p event
          .ok (s, ())
  | .icmp => .ok (s, ())
  | .timer p timer => do
      let c ← s.get p
      let event ← processTimer c timer
      let s ← finish s p event
      .ok (s, ())

end WormsAttack.Tcp
