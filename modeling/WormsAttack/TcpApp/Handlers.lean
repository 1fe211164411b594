/-
  The threads of the GenericTCPApplication module.

  Sources: ReaSE/src/applications/tcpApp/GenericTCPApplicationClientThread.cc and
  GenericTCPApplicationServerThread.cc, and inet/src/transport/contract/TCPSocket.cc.

  NUMBERS.  `noRequestsToSend` is an `unsigned long`, set from an `int`, so it is a `UInt64`
  here, and so are the statistics.

  WHAT IS NOT MODELLED.  Times: a timer that is scheduled may expire at any time.  What the
  traffic profile draws at random is part of the event.
-/
import Mathlib.Data.List.Basic

namespace WormsAttack.TcpApp

inductive Stop
  | error (message : String)
  | alreadyScheduled
  /-- the event cannot happen -/
  | impossible
  deriving DecidableEq

structure GenericApplicationMessage where
  byteLength : Int
  replyLength : Int32
  timeToRespond : Int
  replyPerRequest : Int32
  packetNumber : Int32
  last : Bool
  deriving DecidableEq

inductive Action
  | connect
  | send (message : GenericApplicationMessage)
  | close
  | transmissionDone (bytesSent bytesReceived packetSent packetReceived : UInt64)
  deriving DecidableEq

/-! ## Sockets -/

inductive SockState
  | bound
  | connecting
  | connected
  | peerClosed
  | locallyClosed
  | closed
  | sockError
  deriving DecidableEq

namespace SockState

def connect : SockState → Except Stop SockState
  | .bound => .ok .connecting
  | _ => .error (.error
      "TCPSocket::connect(): connect() or listen() already called (need renewSocket()?)")

def send (sock : SockState) (message : GenericApplicationMessage) : Except Stop (List Action) :=
  match sock with
  | .connected | .connecting | .peerClosed => .ok [.send message]
  | _ => .error (.error "TCPSocket::send(): not connected or connecting")

def close : SockState → Except Stop (SockState × List Action)
  | .connected => .ok (.locallyClosed, [.close])
  | .peerClosed | .connecting => .ok (.closed, [.close])
  | _ => .error (.error "TCPSocket::close(): not connected or close() already called")

def closeOnce (sock : SockState) : Except Stop (SockState × List Action) :=
  if sock = .locallyClosed then .ok (sock, []) else sock.close

/-- The indication `TCP_I_PEER_CLOSED`. -/
def peerCloses : SockState → SockState
  | .connected => .peerClosed
  | _ => .closed

end SockState

/-- `scheduleAt`, for a timer that is scheduled or not. -/
def scheduleAt (isScheduled : Bool) : Except Stop Bool :=
  if isScheduled then .error .alreadyScheduled else .ok true

/-! ## Client threads -/

inductive ThreadState
  | waiting
  | connected
  | disconnected
  | finish
  deriving DecidableEq

structure ClientThread where
  socket : SockState
  threadState : ThreadState
  /-- `selfMsg` is scheduled -/
  isScheduled : Bool
  noRequestsToSend : UInt64
  noBytesSend : UInt64
  noBytesReceived : UInt64
  noPacketSend : UInt64
  noPacketReceived : UInt64
  deriving DecidableEq

structure Draw where
  requestLength : Int32
  replyLength : Int32
  timeToRespond : Int
  deriving DecidableEq

namespace ClientThread

/-- The constructor and `init`.  The number of requests is drawn as an `int`. -/
def new (requestsPerSession : Int32) : ClientThread :=
  { socket := .bound
    threadState := .waiting
    isScheduled := true
    noRequestsToSend := requestsPerSession.toInt64.toUInt64
    noBytesSend := 0
    noBytesReceived := 0
    noPacketSend := 0
    noPacketReceived := 0 }

def sendRequest (t : ClientThread) (draw : Draw) : Except Stop (ClientThread × List Action) := do
  let noRequestsToSend := t.noRequestsToSend - 1
  let threadState := if noRequestsToSend ≤ 0 then .disconnected else t.threadState
  let noPacketSend := t.noPacketSend + 1
  let out ← t.socket.send
    { byteLength := draw.requestLength.toInt
      replyLength := draw.replyLength
      timeToRespond := draw.timeToRespond
      replyPerRequest := 1
      packetNumber := noPacketSend.toUInt32.toInt32
      last := threadState = .disconnected }
  .ok
    ({ t with
        noRequestsToSend := noRequestsToSend
        threadState := threadState
        noPacketSend := noPacketSend
        noBytesSend := t.noBytesSend + draw.requestLength.toInt64.toUInt64 }, out)

/-- `timerExpired`. Nothing is left of the thread when it removes itself. -/
def timerExpired (t : ClientThread) (draw : Draw) :
    Except Stop (Option ClientThread × List Action) :=
  let t := { t with isScheduled := false }
  match t.threadState with
  | .waiting => do
      let socket ← t.socket.connect
      .ok (some { t with socket := socket }, [.connect])
  | .connected => do
      let (t, out) ← t.sendRequest draw
      .ok (some t, out)
  | .disconnected => do
      let (socket, out) ← t.socket.closeOnce
      .ok (some { t with socket := socket }, out)
  | .finish =>
      .ok (none, [.transmissionDone t.noBytesSend t.noBytesReceived t.noPacketSend
        t.noPacketReceived])

def socketDataArrived (t : ClientThread) (msg : GenericApplicationMessage) :
    Except Stop ClientThread := do
  let isScheduled ← scheduleAt t.isScheduled
  .ok
    { t with
      isScheduled := isScheduled
      noBytesReceived := t.noBytesReceived + (Int64.ofInt msg.byteLength).toUInt64
      noPacketReceived := t.noPacketReceived + 1 }

/-- The indication `TCP_I_ESTABLISHED`, and `socketEstablished`. -/
def socketEstablished (t : ClientThread) (draw : Draw) :
    Except Stop (ClientThread × List Action) :=
  sendRequest
    { t with
      socket := .connected
      noRequestsToSend := if t.noRequestsToSend < 1 then 1 else t.noRequestsToSend
      threadState := .connected } draw

/-- The indication `TCP_I_CLOSED`, and `socketClosed`.  The timer is cancelled first. -/
def socketClosed (t : ClientThread) : Except Stop ClientThread := do
  let isScheduled ← scheduleAt false
  .ok { t with socket := .closed, isScheduled := isScheduled, threadState := .finish }

end ClientThread

/-! ## Server threads -/

structure ServerThread where
  socket : SockState
  doClose : Bool
  isScheduled : Bool
  replies : List GenericApplicationMessage
  deriving DecidableEq

namespace ServerThread

def new : ServerThread :=
  { socket := .connected, doClose := false, isScheduled := false, replies := [] }

/-- The end of `timerExpired` and of `socketDataArrived`: close after the last reply. -/
def closeIfLast (t : ServerThread) : Except Stop (ServerThread × List Action) :=
  if t.doClose then do
    let (socket, out) ← t.socket.closeOnce
    .ok ({ t with socket := socket }, out)
  else .ok (t, [])

/-- `timerExpired`.  The message is not scheduled any more. -/
def timerExpired (t : ServerThread) : Except Stop (ServerThread × List Action) :=
  let t := { t with isScheduled := false }
  match t.replies with
  | [] => t.closeIfLast
  | reply :: replies => do
      let sent ← t.socket.send reply
      let (t, closed) ← { t with replies := replies }.closeIfLast
      .ok (t, sent ++ closed)

def socketDataArrived (t : ServerThread) (msg : GenericApplicationMessage) :
    Except Stop (ServerThread × List Action) :=
  let t := { t with doClose := msg.last }
  if msg.replyLength = 0 then .ok (t, [])
  else
    let reply := { msg with byteLength := msg.replyLength.toInt }
    if msg.timeToRespond > 0 then do
      let isScheduled ← scheduleAt t.isScheduled
      .ok ({ t with replies := t.replies ++ [reply], isScheduled := isScheduled }, [])
    else do
      let sent ← t.socket.send reply
      let (t, closed) ← t.closeIfLast
      .ok (t, sent ++ closed)

/-- The indication `TCP_I_PEER_CLOSED`, and `socketPeerClosed`. -/
def socketPeerClosed (t : ServerThread) : ServerThread :=
  { t with socket := t.socket.peerCloses, doClose := true }

end ServerThread

/-! ## Sessions -/

inductive Segment
  | data (message : GenericApplicationMessage)
  | fin
  deriving DecidableEq

def Action.segment : Action → Option Segment
  | .send message => some (.data message)
  | .close => some .fin
  | _ => none

/-- One end of the connection: its thread, until it is removed, and what is on the way to it.
Nothing arrives after TCP has reported the end. -/
structure End (τ : Type) where
  thread : Option τ
  isOpen : Bool
  incoming : List Segment
  deriving DecidableEq

/-- A client thread and the server thread it talks to, over a reliable connection that
delivers in order. -/
structure Session where
  client : End ClientThread
  server : End ServerThread
  deriving DecidableEq

inductive Event
  | clientTimer (draw : Draw)
  | clientEstablished (draw : Draw)
  | clientSegment
  | clientClosed
  | clientFailure
  | serverTimer
  | serverSegment
  | serverClosed
  | serverFailure
  deriving DecidableEq

namespace Session

def start (requestsPerSession : Int32) : Session :=
  { client := { thread := some (.new requestsPerSession), isOpen := true, incoming := [] }
    server := { thread := some .new, isOpen := true, incoming := [] } }

def fromClient (s : Session) (client : End ClientThread) (out : List Action) : Session :=
  { client := client
    server := { s.server with incoming := s.server.incoming ++ out.filterMap Action.segment } }

def fromServer (s : Session) (server : End ServerThread) (out : List Action) : Session :=
  { server := server
    client := { s.client with incoming := s.client.incoming ++ out.filterMap Action.segment } }

def handleClient (s : Session) (t : ClientThread) :
    Event → Except Stop (Session × List Action)
  | .clientTimer draw =>
      if t.isScheduled then do
        let (thread, out) ← t.timerExpired draw
        .ok (s.fromClient { s.client with thread := thread } out, out)
      else .error .impossible
  | .clientEstablished draw =>
      if s.client.isOpen && t.socket = .connecting then do
        let (t, out) ← t.socketEstablished draw
        .ok (s.fromClient { s.client with thread := some t } out, out)
      else .error .impossible
  | .clientSegment =>
      if s.client.isOpen then
        match s.client.incoming with
        | [] => .error .impossible
        | .data msg :: incoming => do
            let t ← t.socketDataArrived msg
            .ok (s.fromClient { s.client with thread := some t, incoming := incoming } [], [])
        | .fin :: incoming =>
            -- `socketPeerClosed` does nothing
            let t := { t with socket := t.socket.peerCloses }
            .ok (s.fromClient { s.client with thread := some t, incoming := incoming } [], [])
      else .error .impossible
  | .clientClosed =>
      if s.client.isOpen && t.socket ≠ .bound then do
        let t ← t.socketClosed
        .ok (s.fromClient { s.client with thread := some t, isOpen := false } [], [])
      else .error .impossible
  | .clientFailure =>
      if s.client.isOpen && t.socket ≠ .bound then
        -- `socketFailure` removes the thread, with empty statistics
        let out := [.transmissionDone 0 0 0 0]
        .ok (s.fromClient { s.client with thread := none, isOpen := false } out, out)
      else .error .impossible
  | _ => .error .impossible

def handleServer (s : Session) (t : ServerThread) :
    Event → Except Stop (Session × List Action)
  | .serverTimer =>
      if t.isScheduled then do
        let (t, out) ← t.timerExpired
        .ok (s.fromServer { s.server with thread := some t } out, out)
      else .error .impossible
  | .serverSegment =>
      if s.server.isOpen then
        match s.server.incoming with
        | [] => .error .impossible
        | .data msg :: incoming => do
            let (t, out) ← t.socketDataArrived msg
            .ok (s.fromServer { s.server with thread := some t, incoming := incoming } out, out)
        | .fin :: incoming =>
            let t := t.socketPeerClosed
            .ok (s.fromServer { s.server with thread := some t, incoming := incoming } [], [])
      else .error .impossible
  | .serverClosed | .serverFailure =>
      if s.server.isOpen then
        .ok (s.fromServer { s.server with thread := none, isOpen := false } [], [])
      else .error .impossible
  | _ => .error .impossible

end Session

def Event.isClient : Event → Bool
  | .clientTimer _ | .clientEstablished _ | .clientSegment | .clientClosed | .clientFailure => true
  | _ => false

def step (s : Session) (e : Event) : Except Stop (Session × List Action) :=
  if e.isClient then
    match s.client.thread with
    | some t => s.handleClient t e
    | none => .error .impossible
  else
    match s.server.thread with
    | some t => s.handleServer t e
    | none => .error .impossible

end WormsAttack.TcpApp
