/-
  The modules that look for the target of an attack.

  Source: distack-1.2.3-dev/src/modules/attackdetection: ModuleAnalyzerAggregateWatch.cpp,
  ModuleCollectorAddressSpace.cpp, ModuleCollectorAggregateThreshold.cpp and
  ModuleAnalyzerAddressSpace.cpp.

  MESSAGES wait in one queue and are delivered one after the other.  Timer messages come from
  any number of timers, each with the name of its module.  Each module sees frames at any time.

  NAMES.  An aggregate is named by its protocol, or by its bounds if it is one of sizes.

  RECORDS.  `opened`, `interval` and the histories `timers` and `handled` are not in the source.
  They record which timer message a distribution was opened by, and which interval a count is
  of.  The alerts that the modules send are left out.
-/
import WormsAttack.Distack.AggregateWatch
import WormsAttack.Distack.Packets
import WormsAttack.Foundation.Run

namespace WormsAttack.Distack.AttackDetection

inductive Aggregate
  | protocol (protocol : Protocol)
  | size (lower upper : Nat)
  deriving DecidableEq

structure Frame where
  /-- The protocols of the packets; a frame without packets has not been captured. -/
  packets : List Protocol
  size : Nat
  addresses : Option (UInt32 × UInt32)

/-- `AGGREGATE_INFO`, as far as it is used. -/
structure AggregateInfo where
  aggregate : Aggregate
  count : Nat
  threshold : Rat

/-- `MessageAggregateWatchValues`, with the number of the interval. -/
structure IntervalItems where
  interval : Nat
  infos : List AggregateInfo

/-- `COUNT_THRESHOLD_PAIR`, with the number of the interval. -/
structure CountThreshold where
  interval : Nat
  count : Nat
  threshold : Rat
  deriving DecidableEq

/-- `SubnetCounterTree`: the addresses that have been counted, and the timer message that created
it. -/
structure Distribution where
  opened : Nat
  counted : List (UInt32 × UInt32)
  deriving DecidableEq

/-! ## ModuleAnalyzerAggregateWatch -/

structure AggregateWatch where
  timerModule : String
  params : WatchParams
  protocolCountMap : List (Protocol × WatchItem)
  sizeCountMap : List ((Nat × Nat) × WatchItem)
  lastSuspicious : Option Aggregate
  reported : Nat

def increment (item : WatchItem) : WatchItem :=
  { item with counter := item.counter + 1 }

def countPacket (params : WatchParams) (items : List (Protocol × WatchItem))
    (protocol : Protocol) : List (Protocol × WatchItem) :=
  if protocol = .none then items
  else if protocol ∈ items.map Prod.fst then
    items.map fun entry => if entry.1 = protocol then (entry.1, increment entry.2) else entry
  else items ++ [(protocol, increment (.new params))]

namespace AggregateWatch

def frameCall (w : AggregateWatch) (frame : Frame) : AggregateWatch :=
  if frame.packets = [] then w
  else
    { w with
      protocolCountMap := frame.packets.foldl (countPacket w.params) w.protocolCountMap
      sizeCountMap := w.sizeCountMap.map fun entry =>
        if entry.1.1 ≤ frame.size ∧ frame.size ≤ entry.1.2 then (entry.1, increment entry.2)
        else entry }

def items (w : AggregateWatch) : List (Aggregate × WatchItem) :=
  w.protocolCountMap.map (fun entry => (.protocol entry.1, entry.2)) ++
    w.sizeCountMap.map (fun entry => (.size entry.1.1 entry.1.2, entry.2))

/-- `ModuleAnalyzerAggregateWatch::handleTimerMsg`: the message with the values of the
interval that has ended, and the items for the next. -/
def handleTimerMsg (w : AggregateWatch) : IntervalItems × AggregateWatch :=
  ({ interval := w.reported
     infos := w.items.map fun entry => ⟨entry.1, entry.2.counter, entry.2.threshold⟩ },
    { w with
      protocolCountMap := w.protocolCountMap.map fun entry => (entry.1, entry.2.exceeded.1)
      sizeCountMap := w.sizeCountMap.map fun entry => (entry.1, entry.2.exceeded.1)
      lastSuspicious := w.items.foldl
        (fun last entry => if entry.2.exceeded.2 = .raiseAlert then some entry.1 else last)
        w.lastSuspicious
      reported := w.reported + 1 })

end AggregateWatch

/-! ## ModuleCollectorAddressSpace -/

structure AddressSpace where
  historyLength : Nat
  /-- What the tree has counted that `configure` creates. -/
  first : List (UInt32 × UInt32)
  addressDistributions : List Distribution
  timers : List String

namespace AddressSpace

/-- `ModuleCollectorAddressSpace::frameCall`.  The current tree is the youngest in the
queue, or the first one while the queue is empty. -/
def frameCall (a : AddressSpace) (frame : Frame) : AddressSpace :=
  match frame.addresses, a.addressDistributions.getLast? with
  | none, _ => a
  | some pair, none => { a with first := a.first ++ [pair] }
  | some pair, some current =>
      { a with
        addressDistributions := a.addressDistributions.dropLast ++
          [{ current with counted := current.counted ++ [pair] }] }

/-- `ModuleCollectorAddressSpace::handleTimerMsg`, whichever timer the message is from. -/
def handleTimerMsg (a : AddressSpace) (name : String) : AddressSpace :=
  let kept :=
    if a.addressDistributions.length = a.historyLength then a.addressDistributions.drop 1
    else a.addressDistributions
  { a with
    addressDistributions := kept ++ [⟨a.timers.length, []⟩]
    timers := a.timers ++ [name] }

end AddressSpace

/-! ## ModuleCollectorAggregateThreshold -/

structure AggregateThreshold where
  historyLength : Nat
  intervals : List IntervalItems
  handled : Nat

namespace AggregateThreshold

def handleInputValuesMsg (b : AggregateThreshold) (values : IntervalItems) : AggregateThreshold :=
  let kept := if b.historyLength ≤ b.intervals.length then b.intervals.drop 1 else b.intervals
  { b with intervals := kept ++ [values], handled := b.handled + 1 }

def matching (aggregate : Option Aggregate) (values : IntervalItems) : List CountThreshold :=
  (values.infos.filter fun info => some info.aggregate = aggregate).map fun info =>
    ⟨values.interval, info.count, info.threshold⟩

/-- `ModuleCollectorAggregateThreshold::handleRequestValuesMsg`; no aggregate has the name
in a request without one. -/
def handleRequestValuesMsg (b : AggregateThreshold) (aggregate : Option Aggregate) :
    List CountThreshold :=
  b.intervals.flatMap (matching aggregate)

end AggregateThreshold

/-! ## ModuleAnalyzerAddressSpace -/

structure Analyzer where
  haveAggregate : Bool
  haveIntervalValues : Bool
  haveSubnetTree : Bool
  intervalSubnets : List Distribution
  intervalValues : List CountThreshold
  /-- The timer messages that the collector of the address space had handled when it
  answered. -/
  subnetsAt : List String
  /-- How many messages with values the collector of thresholds had handled when it
  answered. -/
  valuesAt : Nat
  deriving DecidableEq

def Analyzer.new : Analyzer where
  haveAggregate := false
  haveIntervalValues := false
  haveSubnetTree := false
  intervalSubnets := []
  intervalValues := []
  subnetsAt := []
  valuesAt := 0

/-! ## The modules together -/

inductive Message
  | timer (name : String)
  | aggregateWatchValues (values : IntervalItems)
  | addressDistributionRequest
  | addressDistribution (subnets : List Distribution) (timers : List String)
  | lastSuspiciousRequest
  | lastSuspicious (aggregate : Option Aggregate)
  | aggregateIntervalValuesRequest (aggregate : Option Aggregate)
  | aggregateIntervalValues (values : List CountThreshold) (handled : Nat)

structure System where
  watch : AggregateWatch
  addressSpace : AddressSpace
  thresholds : AggregateThreshold
  analyzer : Option Analyzer
  queue : List Message

inductive Stop
  | empty
  | noAggregate

/-- What the configuration says: the same length for both histories, and the ranges of
sizes that the borders give. -/
structure Setup where
  historyLength : Nat
  timerModule : String
  params : WatchParams
  ranges : List (Nat × Nat)
  positive : 1 ≤ historyLength
  nodup : ranges.Nodup

namespace System

/-- The receivers of a message handle it; what they send goes to the end of the queue. -/
def handle (s : System) : Message → Except Stop System
  | .timer name =>
      let s := { s with addressSpace := s.addressSpace.handleTimerMsg name }
      if name = s.watch.timerModule then
        let (values, watch) := s.watch.handleTimerMsg
        .ok { s with watch := watch, queue := s.queue ++ [.aggregateWatchValues values] }
      else .ok s
  | .aggregateWatchValues values =>
      .ok { s with thresholds := s.thresholds.handleInputValuesMsg values }
  | .addressDistributionRequest =>
      .ok { s with queue := s.queue ++
        [.addressDistribution s.addressSpace.addressDistributions s.addressSpace.timers] }
  | .addressDistribution subnets timers =>
      .ok { s with analyzer := s.analyzer.map fun z =>
        { z with intervalSubnets := subnets, haveSubnetTree := true, subnetsAt := timers } }
  | .lastSuspiciousRequest =>
      .ok { s with queue := s.queue ++ [.lastSuspicious s.watch.lastSuspicious] }
  | .lastSuspicious aggregate =>
      match s.analyzer with
      | none => .ok s
      | some z =>
          if z.haveAggregate || aggregate.isSome then
            .ok { s with analyzer := some { z with haveAggregate := true }
                         queue := s.queue ++ [.aggregateIntervalValuesRequest aggregate] }
          else .error .noAggregate
  | .aggregateIntervalValuesRequest aggregate =>
      .ok { s with queue := s.queue ++ [.aggregateIntervalValues
        (s.thresholds.handleRequestValuesMsg aggregate) s.thresholds.handled] }
  | .aggregateIntervalValues values handled =>
      .ok { s with analyzer := s.analyzer.map fun z =>
        { z with intervalValues := values, haveIntervalValues := true, valuesAt := handled } }

inductive Event
  | watched (frame : Frame)
  | collected (frame : Frame)
  | timer (name : String)
  /-- a new analyzer registers and sends its requests -/
  | load
  | deliver

def step (s : System) : Event → Except Stop (System × Unit)
  | .watched frame => .ok ({ s with watch := s.watch.frameCall frame }, ())
  | .collected frame => .ok ({ s with addressSpace := s.addressSpace.frameCall frame }, ())
  | .timer name => .ok ({ s with queue := s.queue ++ [.timer name] }, ())
  | .load =>
      .ok ({ s with analyzer := some .new
                    queue := s.queue ++ [.addressDistributionRequest, .lastSuspiciousRequest] }, ())
  | .deliver =>
      match s.queue with
      | [] => .error .empty
      | msg :: queue =>
          match handle { s with queue := queue } msg with
          | .error f => .error f
          | .ok s => .ok (s, ())

def initial (setup : Setup) : System where
  watch :=
    { timerModule := setup.timerModule
      params := setup.params
      protocolCountMap := []
      sizeCountMap := setup.ranges.map fun range => (range, .new setup.params)
      lastSuspicious := none
      reported := 0 }
  addressSpace :=
    { historyLength := setup.historyLength
      first := []
      addressDistributions := []
      timers := [] }
  thresholds := { historyLength := setup.historyLength, intervals := [], handled := 0 }
  analyzer := none
  queue := []

end System

end WormsAttack.Distack.AttackDetection
