/-
  The FlowExporter module.

  Source: ReaSE/src/applications/flow/FlowExporter.cc and FlowExporter.h.

  WHAT IS SHARED.  The record table is a file-scope variable, and all exporters use one future
  event set.  The functions take the module that runs them (`self`) and the shared part as
  arguments.
-/
import Mathlib.Data.List.AList
import WormsAttack.Foundation.Run
import WormsAttack.Inet.Packet
import WormsAttack.Omnet.Kernel

namespace WormsAttack.Exporter

open Foundation Inet Omnet

/-- A flow record, class `Flow`.  The field defaults are those its constructor
sets. -/
structure Flow (ι : Type) where
  startTime : Int := 0
  endTime : Int := 0
  sourceIp : IPAddress := ⟨0⟩
  destinationIp : IPAddress := ⟨0⟩
  sourcePort : UInt16 := 0
  destinationPort : UInt16 := 0
  protocol : UInt16 := 0
  version : Int16 := 0
  sequenceNumber : Int32 := 0
  ackNumber : Int32 := 0
  attackTag : Bool := false
  urg : Bool := false
  ack : Bool := false
  psh : Bool := false
  rst : Bool := false
  syn : Bool := false
  fin : Bool := false
  packetCount : UInt32 := 1
  byteCount : UInt32 := 0
  pointer : Option (MsgId ι) := none
  deriving DecidableEq

abbrev FlowTable (ι : Type) : Type := AList fun _ : String => Flow ι

/-- The members of a `FlowExporter`.  The counters of type `long` are unbounded
here. -/
structure FlowExporter where
  flowTimeout : Int
  idleTimeout : Int
  packetCount : Nat
  tcpCount : Nat
  udpCount : Nat
  sctpCount : Nat
  otherCount : Nat
  benign : Nat
  malicious : Nat
  /-- The number of timer messages this module has created, which names the next
  one. -/
  created : Nat

def FlowExporter.initialized : FlowExporter :=
  { flowTimeout := -1, idleTimeout := -1, packetCount := 0, tcpCount := 0, udpCount := 0,
    sctpCount := 0, otherCount := 0, benign := 0, malicious := 0, created := 0 }

def setTimeouts (x : FlowExporter) (newFlowTimeout newIdleTimeout : Int) : FlowExporter :=
  { x with flowTimeout := newFlowTimeout, idleTimeout := newIdleTimeout }

def FlowExporter.Active (x : FlowExporter) : Prop :=
  x.idleTimeout ≠ -1 ∧ x.flowTimeout ≠ -1

instance (x : FlowExporter) : Decidable x.Active :=
  inferInstanceAs (Decidable (_ ∧ _))

structure State (ι : Type) where
  kernel : Kernel ι
  table : FlowTable ι
  exporter : FlowExporter

inductive Action (ι : Type)
  | sendDistack
  | create (m : MsgId ι)
  | cancel (m : MsgId ι)
  | schedule (m : MsgId ι) (t : Int)
  | exportFlow (key : String) (f : Flow ι)
  | deletePacket
  | deleteSelf (m : MsgId ι)
  deriving DecidableEq

/-! ## Reading a datagram -/

/-- `unsigned short protocol = datagram->getTransportProtocol()`. -/
def protocolOf (d : IPDatagram) : UInt16 := UInt16.ofInt d.transportProtocol

/-- The table key: source, destination and protocol in text, separated by
colons. -/
def flowKey (d : IPDatagram) : String :=
  d.srcAddress.str ++ ":" ++ d.destAddress.str ++ ":" ++ toString (protocolOf d).toNat

theorem colon_notMem_str (a : IPAddress) : ':' ∉ a.str.toList := fun hmem =>
  absurd (IPAddress.forall_mem_str (p := (· != ':')) (by decide) (by decide) a _ hmem) (by decide)

/-- Different flows have different keys. -/
theorem flowKey_eq_iff (d d' : IPDatagram) :
    flowKey d = flowKey d' ↔ d.srcAddress = d'.srcAddress ∧ d.destAddress = d'.destAddress ∧
      protocolOf d = protocolOf d' := by
  have htext : ∀ d : IPDatagram, (flowKey d).toList = d.srcAddress.str.toList ++
      ':' :: (d.destAddress.str.toList ++ ':' :: Nat.toDigits 10 (protocolOf d).toNat) := by
    simp [flowKey, Nat.toString_eq_repr]
  constructor
  · intro h
    have hkeys := congrArg String.toList h
    rw [htext, htext] at hkeys
    obtain ⟨hsrc, hrest⟩ := append_sep_inj (colon_notMem_str _) (colon_notMem_str _) hkeys
    obtain ⟨hdest, hnumber⟩ := append_sep_inj (colon_notMem_str _) (colon_notMem_str _) hrest
    have hvalue := congrArg digitsValue hnumber
    rw [digitsValue_toDigits, digitsValue_toDigits] at hvalue
    exact ⟨IPAddress.str_injective (String.toList_inj.mp hsrc),
      IPAddress.str_injective (String.toList_inj.mp hdest), UInt16.toNat_inj.mp hvalue⟩
  · rintro ⟨hsrc, hdest, hprotocol⟩
    rw [flowKey, flowKey, hsrc, hdest, hprotocol]

def tally (x : FlowExporter) (name : String) (protocol : UInt16) : FlowExporter :=
  let x := { x with packetCount := x.packetCount + 1 }
  let x :=
    if isAttackName name then { x with malicious := x.malicious + 1 }
    else { x with benign := x.benign + 1 }
  if protocol = 6 then { x with tcpCount := x.tcpCount + 1 }
  else if protocol = 17 then { x with udpCount := x.udpCount + 1 }
  else if protocol = 132 then { x with sctpCount := x.sctpCount + 1 }
  else { x with otherCount := x.otherCount + 1 }

/-- The ports and flags of the transport header. The cast fails if the datagram carries something
else. -/
def readTransport {ι : Type} (protocol : UInt16) (d : IPDatagram) (f : Flow ι) :
    Except Stop (Flow ι) :=
  if protocol = 6 then
    match d.encapsulated with
    | some ⟨.tcp segment, _⟩ =>
        .ok { f with
          sourcePort := segment.srcPort, destinationPort := segment.destPort
          sequenceNumber := segment.sequenceNo.toInt32, ackNumber := segment.ackNo.toInt32
          urg := segment.urgBit, ack := segment.ackBit, psh := segment.pshBit
          rst := segment.rstBit, syn := segment.synBit, fin := segment.finBit }
    | _ => .error .badCast
  else if protocol = 17 then
    match d.encapsulated with
    | some ⟨.udp packet, _⟩ =>
        .ok { f with
          sourcePort := UInt16.ofInt packet.sourcePort
          destinationPort := UInt16.ofInt packet.destinationPort }
    | _ => .error .badCast
  else if protocol = 132 then
    match d.encapsulated with
    | some ⟨.sctp message, _⟩ =>
        .ok { f with sourcePort := message.srcPort, destinationPort := message.destPort }
    | _ => .error .badCast
  else .ok f

/-- The record `new_flow` that `handleMessage` builds from each packet. -/
def newFlow {ι : Type} (name : String) (d : IPDatagram) : Except Stop (Flow ι) :=
  readTransport (protocolOf d) d
    { attackTag := isAttackName name, version := d.version, sourceIp := d.srcAddress,
      destinationIp := d.destAddress, protocol := protocolOf d }

/-! ## Record updates -/

section Records

variable {ι : Type}

def Flow.merge (f : Flow ι) (now : Int) (bytes : UInt32) : Flow ι :=
  { f with packetCount := f.packetCount + 1, byteCount := f.byteCount + bytes, endTime := now }

def Flow.opened (f : Flow ι) (now : Int) (bytes : UInt32) (expiry : MsgId ι) : Flow ι :=
  { f with startTime := now, endTime := now, pointer := some expiry, byteCount := bytes }

/-- The exporter after counting a packet: the counters, and two timer messages
created. -/
def FlowExporter.count (x : FlowExporter) (name : String) (d : IPDatagram) : FlowExporter :=
  let x := tally x name (protocolOf d)
  { x with created := x.created + 2 }

end Records

/-! ## The handlers -/

section Handlers

variable {ι : Type}

/-- The branch of `handleMessage` for a key without a record. -/
def openFlow (s : State ι) (key : String) (f : Flow ι) (bytes : UInt32)
    (expiry timeout : MsgId ι) : Except Stop (State ι × List (Action ι)) := do
  let now := s.kernel.now
  let timeoutAt := now + seconds s.exporter.flowTimeout
  let expiryAt := now + seconds s.exporter.idleTimeout
  let kernel ← s.kernel.scheduleAt timeoutAt timeout key
  let kernel ← kernel.scheduleAt expiryAt expiry key
  .ok ({ s with kernel := kernel, table := s.table.insert key (f.opened now bytes expiry) },
    [.schedule timeout timeoutAt, .schedule expiry expiryAt])

variable [DecidableEq ι]

/-- The branch of `handleMessage` for a key with a record `f`. Outside the window the record keeps
the pointer to the cancelled message. -/
def updateFlow (s : State ι) (key : String) (f : Flow ι) (bytes : UInt32)
    (expiry : MsgId ι) : Except Stop (State ι × List (Action ι)) := do
  let now := s.kernel.now
  let expiryAt := now + seconds s.exporter.idleTimeout
  let kernel ← s.kernel.cancelEvent f.pointer
  let cancelled := f.pointer.toList.map Action.cancel
  let f := f.merge now bytes
  if expiryAt < f.startTime + seconds s.exporter.flowTimeout then
    let kernel ← kernel.scheduleAt expiryAt expiry key
    let f := { f with pointer := some expiry }
    .ok ({ s with kernel := kernel, table := s.table.insert key f },
      cancelled ++ [.schedule expiry expiryAt])
  else
    .ok ({ s with kernel := kernel, table := s.table.insert key f }, cancelled)

/-- The part of `handleMessage` that counts a datagram. Both timer messages are created before the
search. -/
def countDatagram (self : ι) (s : State ι) (name : String) (d : IPDatagram) :
    Except Stop (State ι × List (Action ι)) := do
  let f ← newFlow name d
  let key := flowKey d
  let bytes := UInt32.ofNat d.byteLength
  let expiry : MsgId ι := ⟨self, s.exporter.created⟩
  let timeout : MsgId ι := ⟨self, s.exporter.created + 1⟩
  let s := { s with exporter := s.exporter.count name d }
  let (s', actions) ←
    match s.table.lookup key with
    | some old => updateFlow s key old bytes expiry
    | none => openFlow s key f bytes expiry timeout
  .ok (s', [.create expiry, .create timeout] ++ actions ++ [.deletePacket])

/-- `handleMessage` for a message from another module. -/
def handleMessage (self : ι) (s : State ι) (m : Message) :
    Except Stop (State ι × List (Action ι)) := do
  if s.exporter.Active then
    match m.body with
    | .datagram d =>
        let (s', actions) ← countDatagram self s m.name d
        .ok (s', .sendDistack :: actions)
    | .packet => .error .badCast
    | _ => .ok (s, [.sendDistack])
  else .ok (s, [.sendDistack])

/-- `handleSelfMessage`: export and erase the record the message names, if there
is one. -/
def handleSelfMessage (s : State ι) (p : SelfMessage ι) : State ι × List (Action ι) :=
  match s.table.lookup p.name with
  | some f =>
      ({ s with table := s.table.erase p.name }, [.exportFlow p.name f, .deleteSelf p.id])
  | none => (s, [.deleteSelf p.id])

end Handlers

/-! ## Steps -/

inductive Event (ι : Type)
  | arrival (t : Int) (m : Message)
  | selfMessage (p : SelfMessage ι)
  | setTimeouts (newFlowTimeout newIdleTimeout : Int)

variable {ι : Type} [DecidableEq ι]

def step (self : ι) (s : State ι) : Event ι → Except Stop (State ι × List (Action ι))
  | .arrival t m =>
      if s.kernel.Next t then
        handleMessage self { s with kernel := { s.kernel with now := t } } m
      else .error .notNext
  | .selfMessage p =>
      if p ∈ s.kernel.pending ∧ p.id.owner = self ∧ s.kernel.Next p.arrival then
        .ok (handleSelfMessage { s with kernel := s.kernel.deliver p } p)
      else .error .notNext
  | .setTimeouts newFlowTimeout newIdleTimeout =>
      .ok ({ s with exporter := setTimeouts s.exporter newFlowTimeout newIdleTimeout }, [])

def initial : State ι :=
  { kernel := .start, table := ∅, exporter := .initialized }

end WormsAttack.Exporter
