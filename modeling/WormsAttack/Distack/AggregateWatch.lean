/-
  The AGGREGATE_WATCH_ITEM of the attack detection.

  Source: distack-1.2.3-dev/src/modules/attackdetection/ModuleAnalyzerAggregateWatch.h.

  NUMBERS.  The averages are `double`s in the source and exact rationals here.  The counters
  have the widths they have in the source: `exceedCounter` is an `unsigned short`.
-/
import Mathlib.Algebra.Order.Ring.Rat
import Mathlib.Algebra.Order.Group.Unbundled.Abs

namespace WormsAttack.Distack

open List

structure WatchParams where
  alphaAvg : Rat
  alphaDev : Rat
  alphaRed : Rat
  alphaLearn : Rat
  beta : Rat
  exceedThreshold : UInt32
  learningIntervals : UInt32

inductive WatchResult
  | nothing
  | lowerAlert
  | raiseAlert
  deriving DecidableEq

inductive ValueGroup
  | avg
  | dev
  | red
  | learn

/-- `AGGREGATE_WATCH_ITEM`, with the members that `exceeded` uses. -/
structure WatchItem where
  parameters : WatchParams
  deviation : Rat
  deviationThreshold : Rat
  deviationThresholdLow : Rat
  threshold : Rat
  thresholdLow : Rat
  counter : Nat
  average : Rat
  intervalNo : UInt64
  exceedCounter : UInt16
  saveMode : Bool
  n1Exceeded : Bool

namespace WatchItem

def new (parameters : WatchParams) : WatchItem :=
  { parameters := parameters
    deviation := 0
    deviationThreshold := 0
    deviationThresholdLow := 0
    threshold := 0
    thresholdLow := 0
    counter := 0
    average := 0
    intervalNo := 0
    exceedCounter := 0
    saveMode := false
    n1Exceeded := false }

/-- The new deviation.  The source asserts that the group is not `avg`. -/
def nextDeviation (item : WatchItem) (group : ValueGroup) : Rat :=
  let ewma (alpha : Rat) := (1 - alpha) * item.deviation + alpha * |item.counter - item.average|
  match group with
  | .avg => ewma 0
  | .dev => ewma item.parameters.alphaDev
  | .red =>
      if item.deviationThresholdLow < item.counter ∧ item.counter < item.deviationThreshold then
        ewma item.parameters.alphaDev
      else item.deviation
  | .learn => ewma item.parameters.alphaLearn

/-- The new average.  The source asserts that the group is not `dev`. -/
def nextAverage (item : WatchItem) (group : ValueGroup) : Rat :=
  let ewma (alpha : Rat) := (1 - alpha) * item.average + alpha * item.counter
  match group with
  | .avg => ewma item.parameters.alphaAvg
  | .dev => ewma 0
  | .red => ewma item.parameters.alphaRed
  | .learn => ewma item.parameters.alphaLearn

/-- `updateParameters`.  The deviation is from the old average. -/
def updateParameters (item : WatchItem) (groupDeviation groupAverage : ValueGroup) : WatchItem :=
  let deviation := item.nextDeviation groupDeviation
  let average := item.nextAverage groupAverage
  let beta := item.parameters.beta
  { item with
    deviation := deviation
    average := average
    threshold := average + beta * deviation
    thresholdLow := max (average - beta * deviation) 0
    deviationThreshold := average + 2 * beta * deviation
    deviationThresholdLow := max (average - 2 * beta * deviation) 0 }

def isLearning (item : WatchItem) : Bool :=
  item.intervalNo + 1 ≤ item.parameters.learningIntervals.toUInt64

/-- An interval that is not above the upper threshold: the alert is lowered in the second such
interval. -/
def normal (item : WatchItem) (groupDeviation groupAverage : ValueGroup) :
    WatchItem × WatchResult :=
  let (item, ret) :=
    if item.n1Exceeded then (item, .nothing)
    else
      ({ item with saveMode := false, exceedCounter := 0 },
        if item.saveMode then .lowerAlert else .nothing)
  let item := item.updateParameters groupDeviation groupAverage
  ({ item with n1Exceeded := false, counter := 0 }, ret)

def exceeding (item : WatchItem) : WatchItem × WatchResult :=
  let item := { item with exceedCounter := item.exceedCounter + 1 }
  let (item, ret) :=
    if item.exceedCounter.toUInt32 > item.parameters.exceedThreshold then
      if item.saveMode then (item, .nothing) else ({ item with saveMode := true }, .raiseAlert)
    else if item.saveMode then (item, .nothing)
    else (item.updateParameters .red .red, WatchResult.nothing)
  ({ item with n1Exceeded := true, counter := 0 }, ret)

def exceeded (item : WatchItem) : WatchItem × WatchResult :=
  let learning := item.isLearning
  let item := { item with intervalNo := item.intervalNo + 1 }
  if learning then
    ({ item.updateParameters .learn .learn with counter := 0 }, .nothing)
  else if (item.counter : Rat) < item.thresholdLow then item.normal .red .red
  else if item.thresholdLow ≤ item.counter ∧ (item.counter : Rat) ≤ item.threshold then
    item.normal .dev .avg
  -- what is left is above the upper threshold
  else item.exceeding

end WatchItem

inductive NoStop

def interval (item : WatchItem) (counter : Nat) : Except NoStop (WatchItem × WatchResult) :=
  .ok { item with counter := counter }.exceeded

/-! ## Sizes of frames -/

abbrev SizeCountMap := List ((UInt32 × UInt32) × WatchItem)

/-- The loop of `configure` over the borders behind the first one; `none` is a list that it
does not accept. -/
def insertRanges (parameters : WatchParams) :
    UInt32 → List UInt32 → SizeCountMap → Option SizeCountMap
  | _, [], map => some map
  | lowerBound, upperBound :: borders, map =>
      if lowerBound > upperBound then none
      else
        let map :=
          if map.any (·.1 == (lowerBound, upperBound)) then map
          else map ++ [((lowerBound, upperBound), .new parameters)]
        insertRanges parameters (upperBound + 1) borders map

def configureBorders (parameters : WatchParams) : List UInt32 → Option SizeCountMap
  | lowerBound :: upperBound :: borders =>
      insertRanges parameters lowerBound (upperBound :: borders) []
  | _ => some []

def inRange (size : UInt32) (range : UInt32 × UInt32) : Bool :=
  range.1 ≤ size && size ≤ range.2

/-- `frameCall`: the statistics of the sizes. -/
def countSize (size : UInt32) (map : SizeCountMap) : SizeCountMap :=
  map.map fun entry =>
    if inRange size entry.1 then (entry.1, { entry.2 with counter := entry.2.counter + 1 })
    else entry

/-- The ranges are next to each other, from `first` on, and end before `next`. -/
def Adjacent : (first next : Nat) → List (UInt32 × UInt32) → Prop
  | first, next, [] => first = next
  | first, next, range :: ranges =>
      range.1.toNat = first ∧ first ≤ range.2.toNat ∧ Adjacent (range.2.toNat + 1) next ranges

section Ranges

variable {first next : Nat} {ranges : List (UInt32 × UInt32)} (h : Adjacent first next ranges)

include h

theorem Adjacent.bounds :
    first ≤ next ∧ ∀ range ∈ ranges, first ≤ range.1.toNat ∧ range.1.toNat < next := by
  induction ranges generalizing first with
  | nil => exact ⟨Nat.le_of_eq h, forall_mem_nil _⟩
  | cons range ranges ih =>
    obtain ⟨hlower, hupper, hrest⟩ := h
    obtain ⟨hle, hranges⟩ := ih hrest
    refine ⟨by omega, forall_mem_cons.mpr ⟨by omega, fun r hr => ?_⟩⟩
    have := hranges r hr
    omega

variable {range : UInt32 × UInt32}

theorem Adjacent.concat (hlower : range.1.toNat = next) (hupper : next ≤ range.2.toNat) :
    Adjacent first (range.2.toNat + 1) (ranges ++ [range]) := by
  induction ranges generalizing first with
  | nil =>
    obtain rfl : first = next := h
    exact ⟨hlower, hupper, rfl⟩
  | cons _ ranges ih => exact ⟨h.1, h.2.1, ih h.2.2⟩

omit h in
theorem inRange_iff {size : UInt32} :
    inRange size range ↔ range.1.toNat ≤ size.toNat ∧ size.toNat ≤ range.2.toNat := by
  simp only [inRange, Bool.and_eq_true, decide_eq_true_eq, UInt32.le_iff_toNat_le]

theorem Adjacent.disjoint :
    ranges.Pairwise fun r s => ∀ size, ¬(inRange size r ∧ inRange size s) := by
  induction ranges generalizing first with
  | nil => exact .nil
  | cons range ranges ih =>
    refine .cons (fun s hs size hboth => ?_) (ih h.2.2)
    have := (h.2.2.bounds.2 s hs).1
    rw [inRange_iff, inRange_iff] at hboth
    omega

theorem Adjacent.countP (size : UInt32) :
    ranges.countP (inRange size) = if first ≤ size.toNat ∧ size.toNat < next then 1 else 0 := by
  induction ranges generalizing first with
  | nil =>
    obtain rfl : first = next := h
    rw [if_neg (by omega)]
    rfl
  | cons range ranges ih =>
    obtain ⟨hlower, hupper, hrest⟩ := h
    have := hrest.bounds.1
    rw [countP_cons, ih hrest]
    simp only [inRange_iff]
    split_ifs <;> omega

end Ranges

theorem countP_countSize (size : UInt32) (map : SizeCountMap) :
    (map.zip (countSize size map)).countP
        (fun entry => entry.2.2.counter = entry.1.2.counter + 1) =
      (map.map (·.1)).countP (inRange size) := by
  induction map with
  | nil => rfl
  | cons entry map ih =>
    rw [countSize, map_cons, zip_cons_cons, countP_cons, map_cons, countP_cons, ← ih]
    congr 1
    by_cases hin : inRange size entry.1 = true
    · rw [if_pos hin, if_pos hin]
      simp
    · rw [if_neg hin, if_neg hin]
      simp

section Borders

variable {parameters : WatchParams} {first : Nat} {lowerBound upperBound : UInt32}
  {borders : List UInt32} {map map' : SizeCountMap}

/-- A step of the loop.  The range is behind those that are there, so it is a new key. -/
theorem insertRanges_cons (hmap : Adjacent first lowerBound.toNat (map.map (·.1)))
    (hupper : upperBound.toNat < 2147483648)
    (h : insertRanges parameters lowerBound (upperBound :: borders) map = some map') :
    ∃ map₁, Adjacent first (upperBound.toNat + 1) (map₁.map (·.1)) ∧
      (upperBound + 1).toNat = upperBound.toNat + 1 ∧
      insertRanges parameters (upperBound + 1) borders map₁ = some map' := by
  obtain ⟨hle, h⟩ := Option.ite_none_left_eq_some.mp h
  have hnew : ¬map.any (·.1 == (lowerBound, upperBound)) = true := by
    rw [any_eq_true]
    rintro ⟨entry, hentry, heq⟩
    have hlt := (hmap.bounds.2 entry.1 (mem_map_of_mem hentry)).2
    rw [beq_iff_eq.mp heq] at hlt
    exact Nat.lt_irrefl _ hlt
  rw [if_neg hnew] at h
  refine ⟨_, ?_, ?_, h⟩
  · have hle : lowerBound.toNat ≤ upperBound.toNat :=
      Nat.le_of_not_lt fun hlt => hle (UInt32.lt_iff_toNat_lt.mpr hlt)
    have hconcat := @Adjacent.concat _ _ _ hmap (lowerBound, upperBound) rfl hle
    rwa [map_append]
  · rw [UInt32.toNat_add, UInt32.toNat_one]
    omega

theorem insertRanges_adjacent (hmap : Adjacent first lowerBound.toNat (map.map (·.1)))
    (hupper : upperBound.toNat < 2147483648) (hborders : ∀ b ∈ borders, b.toNat < 2147483648)
    (h : insertRanges parameters lowerBound (upperBound :: borders) map = some map') :
    Adjacent first ((borders.getLastD upperBound).toNat + 1) (map'.map (·.1)) := by
  induction borders generalizing lowerBound upperBound map with
  | nil =>
    obtain ⟨map₁, hmap₁, -, h⟩ := insertRanges_cons hmap hupper h
    cases h
    exact hmap₁
  | cons border borders ih =>
    obtain ⟨hborder, hrest⟩ := forall_mem_cons.mp hborders
    obtain ⟨map₁, hmap₁, hlower, h⟩ := insertRanges_cons hmap hupper h
    rw [← hlower] at hmap₁
    rw [getLastD_cons]
    exact ih hmap₁ hborder hrest h

end Borders

/-- The ranges are a partition of the sizes between the borders, and a frame is counted once. -/
theorem size_ranges_partition {parameters : WatchParams} {b₀ b₁ : UInt32} {borders : List UInt32}
    (hborders : ∀ b ∈ b₀ :: b₁ :: borders, b.toNat < 2147483648) {map : SizeCountMap}
    (h : configureBorders parameters (b₀ :: b₁ :: borders) = some map) :
    (map.map (·.1)).Pairwise (fun r s => ∀ size, ¬(inRange size r ∧ inRange size s)) ∧
      (∀ size, (∃ range ∈ map.map (·.1), inRange size range) ↔
        b₀ ≤ size ∧ size ≤ borders.getLastD b₁) ∧
      ∀ map' : SizeCountMap, map'.map (·.1) = map.map (·.1) → ∀ size,
        (map'.zip (countSize size map')).countP
            (fun entry => entry.2.2.counter = entry.1.2.counter + 1) =
          if b₀ ≤ size ∧ size ≤ borders.getLastD b₁ then 1 else 0 := by
  obtain ⟨-, hborders⟩ := forall_mem_cons.mp hborders
  obtain ⟨hb₁, hrest⟩ := forall_mem_cons.mp hborders
  have hempty : Adjacent b₀.toNat b₀.toNat (([] : SizeCountMap).map (·.1)) := rfl
  have hadjacent := insertRanges_adjacent hempty hb₁ hrest h
  have hcount : ∀ size, (map.map (·.1)).countP (inRange size) =
      if b₀ ≤ size ∧ size ≤ borders.getLastD b₁ then 1 else 0 := by
    intro size
    rw [hadjacent.countP]
    simp only [UInt32.le_iff_toNat_le, Nat.lt_succ_iff]
  refine ⟨hadjacent.disjoint, fun size => ?_, fun map' hkeys size => ?_⟩
  · rw [← countP_pos_iff, hcount]
    split_ifs with hin
    · exact iff_of_true Nat.one_pos hin
    · exact iff_of_false (Nat.lt_irrefl 0) hin
  · rw [← hcount, ← hkeys, countP_countSize]

theorem size_ranges_partition_two :
    ((configureBorders ⟨0, 0, 0, 0, 0, 0, 0⟩ [10, 20, 30]).map (·.map (·.1))) =
        some [(10, 20), (21, 30)] ∧
      ∃ map, configureBorders ⟨0, 0, 0, 0, 0, 0, 0⟩ [10, 20, 30] = some map ∧
        ∀ size, (∃ range ∈ map.map (·.1), inRange size range) ↔ 10 ≤ size ∧ size ≤ 30 := by
  have hborders : ∀ b ∈ [10, 20, 30], UInt32.toNat b < 2147483648 := by simp
  exact ⟨by decide, _, rfl, (size_ranges_partition hborders rfl).2.1⟩

end WormsAttack.Distack
