/-
  The GenericUDPApplication module and its threads.

  Sources: ReaSE/src/applications/udpApp/GenericUDPApplication.cc,
  GenericUDPApplicationClientThread.cc and GenericUDPApplicationServerThread.cc, and
  inet/src/transport/contract/UDPSocket.cc.

  A request is cut into fragments that are numbered down to 1.

  NUMBERS.  What is an `int` in a message, in a thread or in the count of threads is an `Int32`.
  `packetsPerRequest` and `packetPerReply` are loop bounds that never wrap.

  WHAT IS NOT MODELLED.  Times.  A thread always has its timer scheduled between events, and
  `timer` says that it expires.  What the traffic profile draws is part of the event.
-/
import WormsAttack.Inet.IPAddress

namespace WormsAttack.Udp

open Inet

inductive Stop
  | error (message : String)
  | assertion
  /-- a null pointer, or a pointer to a thread that has been deleted -/
  | dangling
  /-- the event cannot happen: no such datagram has been sent -/
  | unsent
  deriving DecidableEq

/-! ## Messages -/

inductive MessageName
  | udpRequestData
  | udpReplyData
  deriving DecidableEq

/-- The defaults are those of the message definition. -/
structure GenericApplicationMessage where
  name : MessageName
  byteLength : Int32
  replyLength : Int32 := 0
  replyPerRequest : Int32 := 0
  last : Bool := false
  packetNumber : Int32 := 0
  deriving DecidableEq

structure UDPControlInfo where
  sockId : Nat
  srcAddr : IPAddress
  srcPort : Int
  destPort : Int
  deriving DecidableEq

structure TransmissionStatistics where
  bytesSent : Int32
  bytesReceived : Int32
  packetSent : Int32
  packetReceived : Int32
  deriving DecidableEq

inductive Action
  | bind (sockId : Nat) (localPort : Int)
  | connect (sockId : Nat) (remoteAddr : IPAddress) (remotePort : Int)
  | unbind (sockId : Nat)
  | send (sockId : Nat) (destAddr : IPAddress) (destPort : Int)
      (message : GenericApplicationMessage)
  | newServerThread (sockId : Nat)
  | transmissionDone (stat : TransmissionStatistics)
  deriving DecidableEq

/-! ## Sockets -/

structure UDPSocket where
  sockId : Nat
  bound : Bool
  localPort : Int
  remoteAddr : IPAddress
  remotePort : Int
  deriving DecidableEq

namespace UDPSocket

/-- The constructor.  `sockId` is `ev.getUniqueNumber()`. -/
def new (sockId : Nat) : UDPSocket :=
  { sockId := sockId, bound := false, localPort := 0, remoteAddr := ⟨0⟩, remotePort := 0 }

def bind (sock : UDPSocket) (port : Int) : Except Stop (UDPSocket × List Action) :=
  if sock.bound then .error (.error "UDPSocket::bind(): socket already bound")
  else if port ≤ 0 ∨ port > 65535 then
    .error (.error ("UDPSocket::bind(): invalid port number " ++ toString port))
  else .ok ({ sock with localPort := port, bound := true }, [.bind sock.sockId port])

def connect (sock : UDPSocket) (addr : IPAddress) (port : Int) :
    Except Stop (UDPSocket × List Action) :=
  if !sock.bound then
    .error (.error "UDPSocket::connect(): socket must be bound before connect() can be called")
  else if addr.isUnspecified then
    .error (.error "UDPSocket::connect(): unspecified remote address")
  else if port ≤ 0 ∨ port > 65535 then
    .error (.error ("UDPSocket::connect(): invalid remote port number " ++ toString port))
  else .ok ({ sock with remoteAddr := addr, remotePort := port }, [.connect sock.sockId addr port])

def send (sock : UDPSocket) (message : GenericApplicationMessage) : Except Stop Action :=
  if sock.remoteAddr.isUnspecified || sock.remotePort == 0 then
    .error (.error "UDPSocket::send(): must call connect() before using send()")
  else .ok (.send sock.sockId sock.remoteAddr sock.remotePort message)

/-- `close`; nothing happens if the socket is not bound. -/
def close (sock : UDPSocket) : UDPSocket × List Action :=
  if sock.bound then ({ sock with bound := false }, [.unbind sock.sockId]) else (sock, [])

end UDPSocket

/-! ## Fragments -/

def udpMaxPayload : Int := 1022

/-- `(int) ceil(length / UDP_MAX_PAYLOAD)`. -/
def payloads (length : Int32) : Int := -(-length.toInt / udpMaxPayload)

def packets (length : Int32) : Nat :=
  if length.toInt > udpMaxPayload then (payloads length).toNat else 1

def packetSize (length : Int32) : Int32 :=
  if length.toInt > udpMaxPayload then Int32.ofInt udpMaxPayload else length

/-! ## Threads -/

inductive ClientState
  | connected
  | disconnected
  | finish
  deriving DecidableEq

structure ClientThread where
  socket : UDPSocket
  threadState : ClientState
  noRequestsToSend : Int32
  packetsPerRequest : Nat
  packetSize : Int32
  stat : TransmissionStatistics
  deriving DecidableEq

def ClientThread.new (socket : UDPSocket) (requestsPerSession requestLength : Int32) :
    ClientThread :=
  { socket := socket
    threadState := .connected
    noRequestsToSend := requestsPerSession
    packetsPerRequest := packets requestLength
    packetSize := Udp.packetSize requestLength
    stat := ⟨0, 0, 0, 0⟩ }

/-- The loop of `sendRequest`: the fragments of a request, numbered down to 1. -/
def requestFragments (request : GenericApplicationMessage) : Nat → List GenericApplicationMessage
  | 0 => []
  | i + 1 => { request with packetNumber := Int32.ofNat (i + 1) } :: requestFragments request i

/-- `sendRequest`, with the values drawn for the replies: the thread afterwards, and the
messages for its socket. -/
def ClientThread.sendRequest (t : ClientThread) (replyLength replyPerRequest : Int32) :
    ClientThread × List GenericApplicationMessage :=
  let noRequestsToSend := t.noRequestsToSend - 1
  let packetsSent := Int32.ofNat t.packetsPerRequest
  ({ t with
      noRequestsToSend := noRequestsToSend
      threadState := if noRequestsToSend ≤ 0 then .disconnected else t.threadState
      stat :=
        { bytesSent := t.stat.bytesSent + packetsSent * t.packetSize
          bytesReceived := t.stat.bytesReceived + replyLength
          packetSent := t.stat.packetSent + packetsSent
          packetReceived := t.stat.packetReceived + Int32.ofInt (payloads t.packetSize) } },
    requestFragments
      { name := .udpRequestData
        byteLength := t.packetSize
        replyLength := replyLength
        replyPerRequest := replyPerRequest } t.packetsPerRequest)

def ClientThread.socketDatagramArrived (t : ClientThread) : ClientThread :=
  if t.noRequestsToSend = 0 then { t with threadState := .finish } else t

inductive ServerState
  | connected
  | disconnected
  | last
  deriving DecidableEq

structure ServerThread where
  socket : UDPSocket
  threadState : ServerState
  noReplysToSend : Int32
  noPacketSend : Int32
  packetPerReply : Nat
  packetSize : Int32
  deriving DecidableEq

/-- The state set by `init`, and `socketDatagramArrived` with the request. -/
def ServerThread.new (socket : UDPSocket) (request : GenericApplicationMessage) : ServerThread :=
  { socket := socket
    threadState := .connected
    noReplysToSend := request.replyPerRequest
    noPacketSend := request.packetNumber
    packetPerReply := packets request.replyLength
    packetSize := Udp.packetSize request.replyLength }

def ServerThread.sendReply (t : ServerThread) : ServerThread × List GenericApplicationMessage :=
  let noReplysToSend := t.noReplysToSend - 1
  let noPacketSend := t.noPacketSend + 1
  ({ t with
      noReplysToSend := noReplysToSend
      noPacketSend := noPacketSend
      threadState := if noReplysToSend ≤ 0 then .disconnected else t.threadState },
    List.replicate t.packetPerReply
      { name := .udpReplyData, byteLength := t.packetSize, packetNumber := noPacketSend })

/-- A `threadInfo`; whether the thread is a server's is the constructor. -/
inductive Thread
  | client (t : ClientThread)
  | server (t : ServerThread)
  deriving DecidableEq

/-! ## Applications -/

structure Application where
  isServer : Bool
  port : Int
  mySocket : UDPSocket
  maxThreadCount : Int32
  threadCount : Int32
  threadMap : List (Nat × Thread)
  deriving DecidableEq

namespace Application

def initial (sockId : Nat) (isServer : Bool) (port : Int) (noThreads : Int32) :
    Except Stop (Application × List Action) := do
  let (mySocket, out) ← (UDPSocket.new sockId).bind port
  let maxThreadCount := if isServer then noThreads else 0
  .ok
    ({ isServer := isServer
       port := port
       mySocket := mySocket
       maxThreadCount := if maxThreadCount = 0 then 2147483647 else maxThreadCount
       threadCount := 0
       threadMap := [] }, out)

def find (app : Application) (sockId : Nat) : Option Thread := app.threadMap.lookup sockId

def store (app : Application) (sockId : Nat) (thread : Thread) : Application :=
  { app with
    threadMap :=
      app.threadMap.map fun entry => if entry.1 = sockId then (sockId, thread) else entry }

def removeThread (app : Application) (sockId : Nat) : Except Stop (Application × List Action) :=
  match app.find sockId with
  | none => .error (.error "cannot find UDP thread in threadMap\n")
  | some _ =>
      let threadMap := app.threadMap.filter (·.1 ≠ sockId)
      let threadCount := app.threadCount - 1
      let app := { app with threadMap := threadMap, threadCount := threadCount }
      if threadCount = app.maxThreadCount - 1 then do
        let (mySocket, out) ← app.mySocket.bind app.port
        .ok ({ app with mySocket := mySocket }, out)
      else .ok (app, [])

/-- `removeThread` with statistics. -/
def removeThreadStat (app : Application) (sockId : Nat) (stat : TransmissionStatistics) :
    Except Stop (Application × List Action) := do
  let (app, out) ← app.removeThread sockId
  .ok (app, if app.isServer then out else out ++ [.transmissionDone stat])

/-- `transmissionStart`, with the values drawn; `sockId` is the id of the new socket. -/
def transmissionStart (app : Application) (sockId : Nat) (ownPort : Int) (address : IPAddress)
    (port : Int) (requestsPerSession requestLength : Int32) :
    Except Stop (Application × List Action) :=
  if app.isServer then .error .assertion
  else do
    let (socket, bound) ← (UDPSocket.new sockId).bind ownPort
    let (socket, connected) ← socket.connect address port
    let thread := .client (.new socket requestsPerSession requestLength)
    .ok
      ({ app with
          threadCount := app.threadCount + 1
          threadMap :=
            match app.find sockId with
            | none => app.threadMap ++ [(sockId, thread)]
            | some _ => app.threadMap }, bound ++ connected)

def clientTimerExpired (app : Application) (sockId : Nat) (t : ClientThread)
    (replyLength replyPerRequest : Int32) : Except Stop (Application × List Action) :=
  match t.threadState with
  | .connected => do
      let (t', messages) := t.sendRequest replyLength replyPerRequest
      let out ← messages.mapM t.socket.send
      .ok (app.store sockId (.client t'), out)
  | .disconnected => .ok (app.store sockId (.client { t with threadState := .finish }), [])
  | .finish => do
      let (app, out) ← app.removeThreadStat sockId t.stat
      .ok (app, t.socket.close.2 ++ out)

def serverTimerExpired (app : Application) (sockId : Nat) (t : ServerThread) :
    Except Stop (Application × List Action) :=
  match t.threadState with
  | .connected | .last => do
      let (t', messages) := t.sendReply
      let out ← messages.mapM t.socket.send
      .ok (app.store sockId (.server t'), out)
  | .disconnected => do
      let (app, out) ← app.removeThread sockId
      .ok (app, t.socket.close.2 ++ out)

def timerExpired (app : Application) (sockId : Nat) (replyLength replyPerRequest : Int32) :
    Except Stop (Application × List Action) :=
  match app.find sockId with
  | none => .error .dangling
  | some (.client t) => app.clientTimerExpired sockId t replyLength replyPerRequest
  | some (.server t) => app.serverTimerExpired sockId t

/-- A message with kind `UDP_I_ERROR`. -/
def udpError (app : Application) (sockId : Nat) : Except Stop (Application × List Action) :=
  if sockId = app.mySocket.sockId then .ok (app, [])
  else
    match app.find sockId with
    | none =>
        .error (.error "ICMP error message at udp layer with no corresponding socket\n")
    | some (.server _) => app.removeThread sockId
    | some (.client _) => app.removeThreadStat sockId ⟨0, 0, 0, 0⟩

/-- A message with packet number 1.  `sockId` is the id of the new socket. -/
def startServerThread (app : Application) (sockId : Nat) (msg : GenericApplicationMessage)
    (ctrl : UDPControlInfo) : Except Stop (Application × List Action) := do
  let (socket, bound) ← (UDPSocket.new sockId).bind ctrl.destPort
  let (socket, connected) ← socket.connect ctrl.srcAddr ctrl.srcPort
  let threadCount := app.threadCount + 1
  let (mySocket, closed) :=
    if threadCount = app.maxThreadCount then app.mySocket.close else (app.mySocket, [])
  match app.find sockId with
  | none =>
      .ok
        ({ app with
            threadCount := threadCount
            mySocket := mySocket
            threadMap := app.threadMap ++ [(sockId, .server (.new socket msg))] },
          bound ++ connected ++ [.newServerThread sockId] ++ closed)
  | some _ => .error (.error "socket id is already in use")

/-- A message with the flag `last`. -/
def lastMessage (app : Application) (ctrl : UDPControlInfo) :
    Except Stop (Application × List Action) :=
  match app.find ctrl.sockId with
  | none => .error (.error "received last UDP message but no client is waiting for it")
  | some (.server _) =>
      .error (.error "a client may not send a <last> udp message to a server\n")
  | some (.client t) => .ok (app.store ctrl.sockId (.client t.socketDatagramArrived), [])

def receive (app : Application) (sockId : Nat) (msg : GenericApplicationMessage)
    (ctrl : Option UDPControlInfo) : Except Stop (Application × List Action) :=
  if msg.packetNumber = 1 then
    match ctrl with
    | none => .error (.error "received non-udp packet at udp-application\n")
    | some ctrl => app.startServerThread sockId msg ctrl
  else if msg.last then
    match ctrl with
    | none => .error .dangling
    | some ctrl => app.lastMessage ctrl
  else .ok (app, [])  -- all other messages are discarded

end Application

inductive Event
  | transmissionStart (ownPort : Int) (address : IPAddress) (port : Int)
      (requestsPerSession requestLength : Int32)
  /-- the self message of the thread with this socket -/
  | timer (sockId : Nat) (replyLength replyPerRequest : Int32)
  /-- a message with kind `UDP_I_ERROR` for this socket -/
  | udpError (sockId : Nat)
  /-- a message that is not a `GenericApplicationMessage` -/
  | invalid
  | datagram (msg : GenericApplicationMessage) (ctrl : Option UDPControlInfo)
  deriving DecidableEq

/-- `handleMessage`, and the call of `transmissionStart`.  `sockId` is the id of the socket
that is created, if one is. -/
def Application.handle (app : Application) (sockId : Nat) :
    Event → Except Stop (Application × List Action)
  | .transmissionStart ownPort address port requestsPerSession requestLength =>
      app.transmissionStart sockId ownPort address port requestsPerSession requestLength
  | .timer thread replyLength replyPerRequest =>
      app.timerExpired thread replyLength replyPerRequest
  | .udpError socket => app.udpError socket
  | .invalid => .ok (app, [])
  | .datagram msg ctrl => app.receive sockId msg ctrl

end WormsAttack.Udp
