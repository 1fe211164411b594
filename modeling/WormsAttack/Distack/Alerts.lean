/-
  The alerts of the aggregate watch.

  Sources: distack-1.2.3-dev/src/modules/attackdetection/ModuleAnalyzerAggregateWatch.cpp and
  distack-1.2.3-dev/src/base/protocol/ProtocolNameResolver.cpp.

  `handleTimerMsg` combines the results of the aggregates with a bitwise or.  A comment of the
  source says that the level is lowered "if all counters lower the alarm level or have nothing
  to say", but the test is for the bit of `LOWERALERT` alone.

  A map is walked through in the order of its keys.
-/
import Mathlib.Data.List.Sort
import Mathlib.Data.Nat.Bitwise
import WormsAttack.Distack.Alarm
import WormsAttack.Distack.AttackDetection
import WormsAttack.Distack.ModuleManager

namespace WormsAttack.Distack

def WatchResult.bits : WatchResult → Nat
  | .nothing => 0
  | .lowerAlert => 1
  | .raiseAlert => 2

def Protocol.id : Protocol → Nat
  | .none => 0
  | .dataPayload => 1
  | .ethernet => 2
  | .arp => 3
  | .ip => 4
  | .ipv6 => 5
  | .tcp => 6
  | .udp => 7
  | .icmp => 8
  | .mpls => 9

def Protocol.name : Protocol → String
  | .none => "None"
  | .dataPayload => "Payload"
  | .ethernet => "Ethernet"
  | .arp => "ARP"
  | .ip => "IPv4"
  | .ipv6 => "IPv6"
  | .tcp => "TCP"
  | .udp => "UDP"
  | .icmp => "ICMP"
  | .mpls => "MPLS"

structure AlertText extends MessageAlert where
  message : String

namespace AttackDetection

def alertMessage : Aggregate → WatchResult → String
  | _, .nothing => ""
  | .protocol protocol, .raiseAlert => " | counter exceeded: protocol " ++ protocol.name ++ " | "
  | .protocol protocol, .lowerAlert => " | counter undercut: protocol " ++ protocol.name ++ " | "
  | .size lower upper, .raiseAlert =>
      "counter exceeded: size " ++ toString lower ++ "-" ++ toString upper ++ " | "
  | .size lower upper, .lowerAlert =>
      "counter undercut: size " ++ toString lower ++ "-" ++ toString upper ++ " | "

namespace AggregateWatch

def results (w : AggregateWatch) : List (Aggregate × WatchResult) :=
  let protocols := w.protocolCountMap.insertionSort fun a b => a.1.id ≤ b.1.id
  let sizes := w.sizeCountMap.insertionSort fun a b =>
    a.1.1 < b.1.1 ∨ a.1.1 = b.1.1 ∧ a.1.2 ≤ b.1.2
  protocols.map (fun entry => (.protocol entry.1, entry.2.exceeded.2)) ++
    sizes.map (fun entry => (.size entry.1.1 entry.1.2, entry.2.exceeded.2))

/-- `exceeded`: the results of all aggregates together. -/
def verdict (w : AggregateWatch) : Nat :=
  w.results.foldl (fun exceeded entry => exceeded ||| entry.2.bits) 0

def text (w : AggregateWatch) : String :=
  w.results.foldl (fun text entry => text ++ alertMessage entry.1 entry.2) ""

def alert (w : AggregateWatch) (stage : UInt16) (type : AlertType) (ret : WatchResult) :
    List AlertText :=
  if w.verdict &&& ret.bits = ret.bits then
    [{ type := type, alertModuleStage := stage, message := w.text }]
  else []

def alerts (w : AggregateWatch) (stage : UInt16) : List AlertText :=
  w.alert stage .raiseLevel .raiseAlert ++ w.alert stage .lowerLevel .lowerAlert

def Sends (w : AggregateWatch) (stage : UInt16) (type : AlertType) : Prop :=
  ∃ alert ∈ w.alerts stage, alert.type = type

instance (w : AggregateWatch) (stage : UInt16) (type : AlertType) :
    Decidable (w.Sends stage type) :=
  inferInstanceAs (Decidable (∃ alert ∈ w.alerts stage, _))

end AggregateWatch

end AttackDetection

/-! ## The result of an aggregate -/

structure WatchItem.Raises (item : WatchItem) : Prop where
  learned : item.isLearning = false
  exceeds : item.Exceeds item.counter
  idle : item.saveMode = false
  more : (item.exceedCounter + 1).toUInt32 > item.parameters.exceedThreshold

structure WatchItem.Lowers (item : WatchItem) : Prop where
  learned : item.isLearning = false
  normal : ¬ item.Exceeds item.counter
  second : item.n1Exceeded = false
  raised : item.saveMode = true

theorem verdict_exceeded (item : WatchItem) :
    Verdict item item.exceeded.1 item.counter item.exceeded.2 :=
  interval_verdict rfl

theorem exceeded_raise_iff (item : WatchItem) :
    item.exceeded.2 = .raiseAlert ↔ item.Raises := by
  rw [(verdict_exceeded item).raise_iff]
  constructor <;> rintro ⟨hlearned, hexceeds, hidle, hmore⟩ <;>
    exact ⟨hlearned, hexceeds, hidle, hmore⟩

theorem exceeded_lower_iff (item : WatchItem) :
    item.exceeded.2 = .lowerAlert ↔ item.Lowers := by
  rw [(verdict_exceeded item).lower_iff]
  constructor <;> rintro ⟨hlearned, hnormal, hsecond, hraised⟩ <;>
    exact ⟨hlearned, hnormal, hsecond, hraised⟩

namespace AttackDetection

/-! ## The verdict -/

theorem testBit_foldl_bits (i : Nat) (entries : List (Aggregate × WatchResult)) (exceeded : Nat) :
    (entries.foldl (fun exceeded entry => exceeded ||| entry.2.bits) exceeded).testBit i = true ↔
      exceeded.testBit i = true ∨ ∃ entry ∈ entries, entry.2.bits.testBit i = true := by
  induction entries generalizing exceeded with
  | nil => simp
  | cons entry entries ih =>
    rw [List.foldl_cons, ih, Nat.testBit_or, Bool.or_eq_true, or_assoc]
    simp

theorem bits_raise_iff (ret : WatchResult) : ret.bits.testBit 1 = true ↔ ret = .raiseAlert := by
  cases ret <;> decide

theorem bits_lower_iff (ret : WatchResult) : ret.bits.testBit 0 = true ↔ ret = .lowerAlert := by
  cases ret <;> decide

theorem and_two_pow_eq_iff (n i : Nat) : n &&& 2 ^ i = 2 ^ i ↔ n.testBit i = true := by
  rw [Nat.and_two_pow]
  cases n.testBit i with
  | false =>
    rw [Bool.toNat_false, Nat.zero_mul]
    exact iff_of_false (Nat.two_pow_pos i).ne Bool.noConfusion
  | true =>
    rw [Bool.toNat_true, Nat.one_mul]
    exact iff_of_true rfl rfl

namespace AggregateWatch

variable (w : AggregateWatch)

theorem exists_result_iff (ret : WatchResult) :
    (∃ entry ∈ w.results, entry.2 = ret) ↔ ∃ entry ∈ w.items, entry.2.exceeded.2 = ret := by
  simp [results, items, or_and_right, exists_or]

theorem verdict_iff {i : Nat} {ret : WatchResult} (hbit : ret.bits = 2 ^ i)
    (hown : ∀ ret' : WatchResult, ret'.bits.testBit i = true ↔ ret' = ret) :
    w.verdict &&& ret.bits = ret.bits ↔ ∃ entry ∈ w.items, entry.2.exceeded.2 = ret := by
  rw [hbit, and_two_pow_eq_iff, verdict, testBit_foldl_bits, Nat.zero_testBit, ← exists_result_iff]
  simp [hown]

theorem mem_alert_iff {stage : UInt16} {type : AlertType} {ret : WatchResult} {x : AlertText} :
    x ∈ w.alert stage type ret ↔ w.verdict &&& ret.bits = ret.bits ∧
      x = { type := type, alertModuleStage := stage, message := w.text } := by
  unfold alert
  split <;> simp [*]

theorem sends_raise_iff (stage : UInt16) :
    w.Sends stage .raiseLevel ↔ ∃ entry ∈ w.items, entry.2.exceeded.2 = .raiseAlert := by
  rw [← w.verdict_iff (i := 1) rfl bits_raise_iff]
  simp [Sends, alerts, mem_alert_iff, or_and_right, exists_or, and_assoc]

theorem sends_lower_iff (stage : UInt16) :
    w.Sends stage .lowerLevel ↔ ∃ entry ∈ w.items, entry.2.exceeded.2 = .lowerAlert := by
  rw [← w.verdict_iff (i := 0) rfl bits_lower_iff]
  simp [Sends, alerts, mem_alert_iff, or_and_right, exists_or, and_assoc]

/-- The level is not raised and lowered at once just when no aggregate raises it or none lowers it.
-/
theorem one_verdict_iff (stage : UInt16) :
    (w.Sends stage .lowerLevel → ∀ entry ∈ w.items, entry.2.exceeded.2 ≠ .raiseAlert) ∧
        ¬ (w.Sends stage .raiseLevel ∧ w.Sends stage .lowerLevel) ↔
      ¬ ((∃ entry ∈ w.items, entry.2.Raises) ∧ ∃ entry ∈ w.items, entry.2.Lowers) := by
  simp only [sends_raise_iff, sends_lower_iff, exceeded_raise_iff, exceeded_lower_iff]
  constructor
  · rintro ⟨-, hboth⟩
    exact hboth
  · intro hnot
    refine ⟨fun hlowers entry hentry hraises => ?_, hnot⟩
    exact hnot ⟨⟨entry, hentry, (exceeded_raise_iff _).mp hraises⟩, hlowers⟩

end AggregateWatch

def watchAtOnce : AggregateWatch :=
  { timerModule := "timer"
    params := { alertAtOnce 1 with learningIntervals := 0 }
    protocolCountMap := []
    sizeCountMap := []
    lastSuspicious := none
    reported := 0 }

def frameOf (transport : Protocol) : Frame :=
  { packets := [.ip, transport], size := 40, addresses := none }

def tcpThenUdp : AggregateWatch :=
  ((watchAtOnce.frameCall (frameOf .tcp)).handleTimerMsg.2.handleTimerMsg.2).frameCall
    (frameOf .udp)

/-- The alert for TCP ends in the interval in which the one for UDP begins. -/
theorem raises_and_lowers :
    tcpThenUdp.Sends 0 .raiseLevel ∧ tcpThenUdp.Sends 0 .lowerLevel ∧
      (tcpThenUdp.alerts 0).map (·.message) = List.replicate 2
        " | counter undercut: protocol TCP |  | counter exceeded: protocol UDP | " := by
  refine ⟨?_, ?_, ?_⟩ <;> decide +kernel

end AttackDetection

end WormsAttack.Distack
