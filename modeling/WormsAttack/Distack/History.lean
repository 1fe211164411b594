/-
  The collector of counts and thresholds as a history.

  Source: distack-1.2.3-dev/src/modules/attackdetection/ModuleCollectorAggregateThreshold.cpp.

  A queue has no iterator, so a request takes each interval from the front, reads it and puts it
  back at the end.
-/
import Mathlib.Data.List.Induction
import WormsAttack.Distack.Packets

namespace WormsAttack.Distack.History

open List

/-- `COUNT_THRESHOLD_ITEM`, and the `AGGREGATE_INFO` it is copied from. -/
structure Item where
  count : UInt32
  threshold : Rat
  protocol : Protocol
  description : String

/-- `COUNT_THRESHOLD_PAIR`. -/
abbrev Pair := UInt32 × Rat

inductive Message
  | aggregateWatchValues (infos : List Item)
  | aggregateIntervalValues (isRequest : Bool) (protocol : Protocol) (description : String)

def pairs (protocol : Protocol) (description : String) (items : List Item) : List Pair :=
  (items.filter fun item => item.protocol = protocol ∧ item.description = description).map
    fun item => (item.count, item.threshold)

def requestLoop (protocol : Protocol) (description : String) :
    (rounds : Nat) → List (List Item) → List Pair → List (List Item) × List Pair
  | rounds + 1, items :: intervals, out =>
      requestLoop protocol description rounds (intervals ++ [items])
        (out ++ pairs protocol description items)
  | _, intervals, out => (intervals, out)

structure Collector where
  historyLength : Nat
  intervals : List (List Item)

namespace Collector

def handleInputValuesMsg (c : Collector) (items : List Item) : Collector :=
  let kept := if c.historyLength ≤ c.intervals.length then c.intervals.drop 1 else c.intervals
  { c with intervals := kept ++ [items] }

def handleRequestValuesMsg (c : Collector) (protocol : Protocol) (description : String) :
    Collector × List Pair :=
  let (intervals, out) := requestLoop protocol description c.intervals.length c.intervals []
  ({ c with intervals }, out)

/-- `receiveMessage`, with the reply that is sent. -/
def receiveMessage (c : Collector) : Message → Collector × Option (List Pair)
  | .aggregateWatchValues infos => (c.handleInputValuesMsg infos, none)
  | .aggregateIntervalValues false _ _ => (c, none)
  | .aggregateIntervalValues true protocol description =>
      let (c, out) := c.handleRequestValuesMsg protocol description
      (c, some out)

def after (historyLength : Nat) (msgs : List Message) : Collector :=
  msgs.foldl (fun c msg => (c.receiveMessage msg).1) { historyLength, intervals := [] }

end Collector

def Message.values? : Message → Option (List Item)
  | .aggregateWatchValues infos => some infos
  | .aggregateIntervalValues _ _ _ => none

def received (msgs : List Message) : List (List Item) := msgs.filterMap Message.values?

def lastOnes {α : Type} (n : Nat) (l : List α) : List α := l.drop (l.length - n)

theorem lastOnes_concat {α : Type} {n : Nat} (hn : 1 ≤ n) (l : List α) (a : α) :
    (if n ≤ (lastOnes n l).length then (lastOnes n l).drop 1 else lastOnes n l) ++ [a] =
      lastOnes n (l ++ [a]) := by
  unfold lastOnes
  rw [length_drop, length_append, length_singleton]
  split
  · have hindex : l.length + 1 - n = l.length - n + 1 := by omega
    rw [drop_drop, hindex, drop_append_of_le_length (by omega)]
  · have hnow : l.length - n = 0 := by omega
    have hnext : l.length + 1 - n = 0 := by omega
    rw [hnow, hnext, drop_zero, drop_zero]

theorem requestLoop_eq (protocol : Protocol) (description : String) (front back : List (List Item))
    (out : List Pair) :
    requestLoop protocol description front.length (front ++ back) out =
      (back ++ front, out ++ front.flatMap (pairs protocol description)) := by
  induction front generalizing back out with
  | nil => simp [requestLoop]
  | cons items front ih =>
    rw [length_cons, cons_append, requestLoop, append_assoc, ih,
      flatMap_cons, append_assoc, append_assoc]
    rfl

theorem handleRequestValuesMsg_eq (c : Collector) (protocol : Protocol) (description : String) :
    c.handleRequestValuesMsg protocol description =
      (c, c.intervals.flatMap (pairs protocol description)) := by
  have hloop := requestLoop_eq protocol description c.intervals [] []
  rw [append_nil] at hloop
  rw [Collector.handleRequestValuesMsg, hloop]
  rfl

/-- The collector has the last intervals in order, and a request gets from them the pairs of
the items that have its protocol and its description. -/
theorem history_exact {historyLength : Nat} (hlength : 1 ≤ historyLength) (msgs : List Message) :
    (Collector.after historyLength msgs).intervals = lastOnes historyLength (received msgs) ∧
      ∀ protocol description,
        (Collector.after historyLength msgs).receiveMessage
            (.aggregateIntervalValues true protocol description) =
          (Collector.after historyLength msgs,
            some ((lastOnes historyLength (received msgs)).flatMap
              (pairs protocol description))) := by
  have hkept : Collector.after historyLength msgs =
      ⟨historyLength, lastOnes historyLength (received msgs)⟩ := by
    induction msgs using reverseRecOn with
    | nil => simp [Collector.after, lastOnes, received]
    | append_singleton msgs msg ih =>
      have hreceived : received (msgs ++ [msg]) =
          received msgs ++ [msg].filterMap Message.values? := filterMap_append
      rw [Collector.after, foldl_concat, ← Collector.after, ih, hreceived]
      cases msg with
      | aggregateWatchValues infos =>
        exact congrArg (Collector.mk historyLength) (lastOnes_concat hlength _ infos)
      | aggregateIntervalValues isRequest protocol description =>
        rw [filterMap_cons_none rfl, filterMap_nil, append_nil]
        cases isRequest with
        | false => rfl
        | true =>
          rw [Collector.receiveMessage, handleRequestValuesMsg_eq]
  rw [hkept]
  refine ⟨rfl, fun protocol description => ?_⟩
  rw [Collector.receiveMessage, handleRequestValuesMsg_eq]

theorem history_exact_two :
    (Collector.after 1 [.aggregateWatchValues [], .aggregateIntervalValues true .tcp "",
        .aggregateWatchValues [⟨7, 3, .tcp, ""⟩]]).intervals = [[⟨7, 3, .tcp, ""⟩]] :=
  (history_exact (Nat.le_refl 1) _).1

end WormsAttack.Distack.History
