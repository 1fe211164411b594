/-
  What the thresholds of an aggregate can be.

  The thresholds are computed from the average and the deviation, two moving averages with
  weights that depend on the case (`Training`).
-/
import WormsAttack.Foundation.Machine
import WormsAttack.Distack.Alarm

namespace WormsAttack.Distack

open Foundation

structure Levels where
  average : Rat
  deviation : Rat
  threshold : Rat
  thresholdLow : Rat
  deviationThreshold : Rat
  deviationThresholdLow : Rat
  deriving DecidableEq

namespace WatchItem

def levels (item : WatchItem) : Levels :=
  { average := item.average
    deviation := item.deviation
    threshold := item.threshold
    thresholdLow := item.thresholdLow
    deviationThreshold := item.deviationThreshold
    deviationThresholdLow := item.deviationThresholdLow }

/-- `exceeded` with the `assert` at its end, which is `none`. -/
def exceeded? (item : WatchItem) : Option (WatchItem × WatchResult) :=
  let learning := item.isLearning
  let item := { item with intervalNo := item.intervalNo + 1 }
  if learning then
    some ({ item.updateParameters .learn .learn with counter := 0 }, .nothing)
  else if (item.counter : Rat) < item.thresholdLow then some (item.normal .red .red)
  else if item.thresholdLow ≤ item.counter ∧ (item.counter : Rat) ≤ item.threshold then
    some (item.normal .dev .avg)
  else if (item.counter : Rat) > item.threshold then some item.exceeding
  else none

theorem exceeded?_eq (item : WatchItem) : item.exceeded? = some item.exceeded := by
  unfold exceeded? exceeded
  dsimp only
  split
  · rfl
  split
  · rfl
  rename_i hlow
  split
  · rfl
  rename_i hbetween
  rw [if_pos]
  by_contra hle
  exact hbetween ⟨not_lt.mp hlow, not_lt.mp hle⟩

end WatchItem

/-! ## One interval -/

inductive Training (item : WatchItem) (counter : Nat) : Levels → Prop
  | learns (hlearning : item.isLearning = true) :
      Training item counter ({ item with counter := counter }.updateParameters .learn .learn).levels
  | below (hlow : counter < item.thresholdLow) :
      Training item counter ({ item with counter := counter }.updateParameters .red .red).levels
  | between (hhigh : counter ≤ item.threshold) :
      Training item counter ({ item with counter := counter }.updateParameters .dev .avg).levels
  | above (hidle : item.saveMode = false) :
      Training item counter ({ item with counter := counter }.updateParameters .red .red).levels
  | keeps : Training item counter item.levels

variable {item item' : WatchItem} {most : Nat} {l : Levels} {counter : Nat} {tr : WatchTrace}
  {param : WatchParams} {ret : WatchResult}

theorem levels_updateParameters (hparameters : item.parameters = item'.parameters)
    (hcounter : item.counter = item'.counter) (hlevels : item.levels = item'.levels)
    (groupDeviation groupAverage : ValueGroup) :
    (item.updateParameters groupDeviation groupAverage).levels =
      (item'.updateParameters groupDeviation groupAverage).levels := by
  obtain ⟨haverage, hdeviation, -, -, hhigh, hlow⟩ := Levels.mk.inj hlevels
  have hnextDeviation : item.nextDeviation groupDeviation = item'.nextDeviation groupDeviation := by
    unfold WatchItem.nextDeviation
    rw [hparameters, hcounter, haverage, hdeviation, hhigh, hlow]
  have hnextAverage : item.nextAverage groupAverage = item'.nextAverage groupAverage := by
    unfold WatchItem.nextAverage
    rw [hparameters, hcounter, haverage]
  unfold WatchItem.updateParameters WatchItem.levels
  rw [hnextDeviation, hnextAverage, hparameters]

theorem normal_levels (item : WatchItem) (groupDeviation groupAverage : ValueGroup) :
    (item.normal groupDeviation groupAverage).1.levels =
      (item.updateParameters groupDeviation groupAverage).levels := by
  unfold WatchItem.normal
  dsimp only
  split
  · rfl
  · exact levels_updateParameters rfl rfl rfl groupDeviation groupAverage

theorem exceeding_levels (item : WatchItem) :
    item.exceeding.1.levels = item.levels ∨
      item.saveMode = false ∧
        item.exceeding.1.levels = (item.updateParameters .red .red).levels := by
  unfold WatchItem.exceeding
  dsimp only
  split
  · split <;> exact .inl rfl
  · split
    · exact .inl rfl
    · rename_i hidle
      refine .inr ⟨Bool.eq_false_iff.mpr hidle, ?_⟩
      exact levels_updateParameters rfl rfl rfl .red .red

theorem interval_training (item : WatchItem) (counter : Nat) :
    Training item counter { item with counter := counter }.exceeded.1.levels := by
  have hnumbered (groupDeviation groupAverage : ValueGroup) :
      ({ item with counter := counter, intervalNo := item.intervalNo + 1 }.updateParameters
        groupDeviation groupAverage).levels =
      ({ item with counter := counter }.updateParameters groupDeviation groupAverage).levels :=
    levels_updateParameters rfl rfl rfl groupDeviation groupAverage
  unfold WatchItem.exceeded
  dsimp only
  split
  · rename_i hlearning
    have hlevels := hnumbered .learn .learn
    exact hlevels ▸ .learns hlearning
  · split
    · rename_i hlow
      rw [normal_levels, hnumbered]
      exact .below hlow
    · split
      · rename_i hbetween
        rw [normal_levels, hnumbered]
        exact .between hbetween.2
      · obtain hkeeps | ⟨hidle, hlevels⟩ := exceeding_levels
          { item with counter := counter, intervalNo := item.intervalNo + 1 }
        · rw [hkeeps]
          exact .keeps
        · rw [hlevels, hnumbered]
          exact .above hidle

/-! ## The bounds -/

/-- The bounds of the levels; `most` is the largest counter so far. -/
structure Levels.Bounded (l : Levels) (most : Nat) : Prop where
  deviation : 0 ≤ l.deviation
  average : 0 ≤ l.average
  most : l.average ≤ most
  lowest : 0 ≤ l.deviationThresholdLow
  lower : l.deviationThresholdLow ≤ l.thresholdLow
  low : l.thresholdLow ≤ l.average
  high : l.average ≤ l.threshold
  higher : l.threshold ≤ l.deviationThreshold

theorem Levels.Bounded.mono {most' : Nat} (h : l.Bounded most) (hle : most ≤ most') :
    l.Bounded most' := by
  have hcast : (most : Rat) ≤ most' := Nat.cast_le.mpr hle
  exact { h with most := h.most.trans hcast }

theorem ewma_le {alpha old new bound : Rat} (halpha : 0 ≤ alpha ∧ alpha ≤ 1) (hold : old ≤ bound)
    (hnew : new ≤ bound) : (1 - alpha) * old + alpha * new ≤ bound := by
  have hleft := mul_le_mul_of_nonneg_left hold (sub_nonneg.mpr halpha.2)
  have hright := mul_le_mul_of_nonneg_left hnew halpha.1
  calc (1 - alpha) * old + alpha * new ≤ (1 - alpha) * bound + alpha * bound :=
        add_le_add hleft hright
    _ = bound := by rw [← add_mul, sub_add_cancel, one_mul]

theorem nextAverage_le {bound : Rat} (hproper : item.parameters.Proper)
    (haverage : item.average ≤ bound) (hcounter : item.counter ≤ bound) (group : ValueGroup) :
    item.nextAverage group ≤ bound := by
  have hzero : (0 : Rat) ≤ 0 ∧ (0 : Rat) ≤ 1 := by decide
  cases group with
  | avg => exact ewma_le hproper.alphaAvg haverage hcounter
  | dev => exact ewma_le hzero haverage hcounter
  | red => exact ewma_le hproper.alphaRed haverage hcounter
  | learn => exact ewma_le hproper.alphaLearn haverage hcounter

theorem bounded_updateParameters (hproper : item.parameters.Proper) (h : item.levels.Bounded most)
    (hcounter : item.counter ≤ most) (groupDeviation groupAverage : ValueGroup) :
    (item.updateParameters groupDeviation groupAverage).levels.Bounded most := by
  have horder : item.InOrder := ⟨hproper, h.deviation, h.average, h.low.trans h.high⟩
  have hnew := inOrder_updateParameters horder groupDeviation groupAverage
  have hdeviation : 0 ≤ item.nextDeviation groupDeviation := hnew.deviation
  have haverage : 0 ≤ item.nextAverage groupAverage := hnew.average
  have hwidth : 0 ≤ item.parameters.beta * item.nextDeviation groupDeviation :=
    mul_nonneg hproper.beta hdeviation
  exact
    { deviation := hdeviation
      average := haverage
      most := nextAverage_le hproper h.most (Nat.cast_le.mpr hcounter) groupAverage
      lowest := le_max_right _ _
      lower := by
        refine max_le_max ?_ (le_refl 0)
        linarith
      low := by
        refine max_le ?_ haverage
        exact sub_le_self _ hwidth
      high := le_add_of_nonneg_right hwidth
      higher := by
        refine add_le_add (le_refl _) ?_
        linarith }

theorem bounded_training (hproper : item.parameters.Proper) (h : item.levels.Bounded most)
    (htraining : Training item counter l) : l.Bounded (max counter most) := by
  have hmore : item.levels.Bounded (max counter most) := h.mono (le_max_right _ _)
  have hupdate (groupDeviation groupAverage : ValueGroup) :
      ({ item with counter := counter }.updateParameters
        groupDeviation groupAverage).levels.Bounded (max counter most) :=
    @bounded_updateParameters { item with counter := counter } _ hproper hmore (le_max_left _ _)
      groupDeviation groupAverage
  cases htraining with
  | learns _ => exact hupdate .learn .learn
  | below _ | above _ => exact hupdate .red .red
  | between _ => exact hupdate .dev .avg
  | keeps => exact hmore

theorem levels_training (h : item.levels.Bounded most) (htraining : Training item counter l)
    (habove : item.threshold < counter) (hraised : item.saveMode = true)
    (hlearning : item.isLearning = false) : l = item.levels := by
  cases htraining with
  | learns hlearns => exact absurd (hlearns.symm.trans hlearning) Bool.noConfusion
  | below hlow =>
    have hle : item.thresholdLow ≤ item.threshold := h.low.trans h.high
    exact absurd (hlow.trans_le hle) (not_lt.mpr habove.le)
  | between hhigh => exact absurd habove (not_lt.mpr hhigh)
  | above hidle => exact absurd (hidle.symm.trans hraised) Bool.noConfusion
  | keeps => rfl

/-! ## Whole histories -/

def mostSeen : WatchTrace → Nat
  | [] => 0
  | st :: tr => max st.event (mostSeen tr)

theorem intervalNo_exceeded (item : WatchItem) :
    item.exceeded.1.intervalNo = item.intervalNo + 1 := by
  unfold WatchItem.exceeded WatchItem.normal WatchItem.exceeding WatchItem.updateParameters
  dsimp only
  repeat' split
  all_goals rfl

/-- What is known about an item, as long as the number of the interval has not gone back to zero.
-/
structure Trained (param : WatchParams) (tr : WatchTrace) (item : WatchItem) : Prop where
  parameters : item.parameters = param
  bounded : item.levels.Bounded (mostSeen tr)
  number : item.intervalNo.toNat = tr.length % 18446744073709551616
  learned : tr.length < 18446744073709551616 → item.saveMode = true →
    param.learningIntervals.toNat < tr.length

theorem trained_new (param : WatchParams) : Trained param [] (.new param) where
  parameters := rfl
  bounded :=
    { deviation := le_refl 0
      average := le_refl 0
      most := le_refl 0
      lowest := le_refl 0
      lower := le_refl 0
      low := le_refl 0
      high := le_refl 0
      higher := le_refl 0 }
  number := rfl
  learned := fun _ hraised => Bool.noConfusion hraised

theorem Trained.isLearning_iff (h : Trained param tr item)
    (hlength : tr.length < 18446744073709551615) :
    item.isLearning = true ↔ tr.length + 1 ≤ param.learningIntervals.toNat := by
  have hnumber : item.intervalNo.toNat = tr.length := by
    rw [h.number, Nat.mod_eq_of_lt (by omega)]
  rw [WatchItem.isLearning, decide_eq_true_eq, UInt64.le_iff_toNat_le, UInt32.toNat_toUInt64,
    toNat_add_one (by omega), hnumber, h.parameters]

theorem learned_verdict (h : Trained param tr item) (hverdict : Verdict item item' counter ret)
    (hlength : tr.length + 1 < 18446744073709551616) (hraised : item'.saveMode = true) :
    param.learningIntervals.toNat < tr.length + 1 := by
  have hbefore (hsame : item'.saveMode = item.saveMode) :
      param.learningIntervals.toNat < tr.length + 1 := by
    have hlearned := h.learned (by omega) (hsame.symm.trans hraised)
    omega
  cases hverdict with
  | learns _ hnew | exceeds _ _ _ hnew | pauses _ _ _ hnew => exact hbefore (Flags.mk.inj hnew).2.1
  | raises hlearning _ _ _ _ =>
    by_contra hle
    have hlearns := (h.isLearning_iff (by omega)).mpr (by omega)
    exact Bool.noConfusion (hlearns.symm.trans hlearning)
  | resets _ _ _ hnew => exact absurd ((Flags.mk.inj hnew).2.1.symm.trans hraised) Bool.noConfusion

theorem trained_interval (hproper : param.Proper) (h : Trained param tr item)
    (hinterval : interval item counter = .ok (item', ret)) :
    Trained param (⟨item, counter, ret⟩ :: tr) item' := by
  have hverdict := interval_verdict hinterval
  have hparameters := (interval_flags hinterval).2
  have hproper' : item.parameters.Proper := by
    rw [h.parameters]
    exact hproper
  obtain rfl : { item with counter := counter }.exceeded.1 = item' :=
    congrArg Prod.fst (Except.ok.inj hinterval)
  exact
    { parameters := hparameters.trans h.parameters
      bounded := bounded_training hproper' h.bounded (interval_training item counter)
      number := by
        rw [intervalNo_exceeded]
        rw [UInt64.toNat_add, h.number, List.length_cons]
        exact (Nat.add_mod tr.length 1 18446744073709551616).symm
      learned := fun hlength hraised => learned_verdict h hverdict hlength hraised }

theorem trained_run (hproper : param.Proper) (h : Run interval (.new param) tr item) :
    Trained param tr item :=
  h.invariant (trained_new param) fun _ _ _ _ _ htrained hinterval =>
    trained_interval hproper htrained hinterval

/-- The deviation is not negative, the average is between zero and the largest counter, and the
thresholds are around it; a raised alert leaves the levels alone unless the item learns again. -/
theorem baseline_bounded {param : WatchParams} (hproper : param.Proper) {tr : WatchTrace}
    {item : WatchItem} (h : Run interval (.new param) tr item) :
    item.levels.Bounded (mostSeen tr) ∧
      ∀ counter : Nat,
        { item with counter := counter }.exceeded? =
            some { item with counter := counter }.exceeded ∧
          (item.threshold < counter → item.saveMode = true →
            item.isLearning = false ∨ tr.length < 18446744073709551615 →
            { item with counter := counter }.exceeded.1.levels = item.levels) := by
  have htrained := trained_run hproper h
  refine ⟨htrained.bounded, fun counter => ⟨WatchItem.exceeded?_eq _, ?_⟩⟩
  intro habove hraised hphase
  have hlearning : item.isLearning = false := by
    obtain hlearning | hlength := hphase
    · exact hlearning
    · have hlearned := htrained.learned (by omega) hraised
      rw [Bool.eq_false_iff, Ne, htrained.isLearning_iff hlength]
      omega
  exact levels_training htrained.bounded (interval_training item counter) habove hraised hlearning

theorem baseline_bounded_raised :
    let item := replayState interval (.new (alertAtOnce 2)) [10, 20]
    item.levels.Bounded 20 ∧
      { item with counter := 100 }.exceeded.1.levels = item.levels := by
  have hproper : (alertAtOnce 2).Proper := by
    constructor <;> decide +kernel
  have hrun : replays interval (.new (alertAtOnce 2)) [10, 20] = true := by decide +kernel
  have hbaseline := baseline_bounded hproper (run_of_replays hrun)
  refine ⟨hbaseline.1, (hbaseline.2 100).2 ?_ ?_ (.inr ?_)⟩ <;> decide +kernel

/-! ## The number of the interval goes back to zero -/

def unlearned : WatchParams := { alertAtOnce 1 with learningIntervals := 0 }

theorem unlearned_proper : unlearned.Proper := by
  constructor <;> decide +kernel

theorem saveMode_verdict (hverdict : Verdict item item' counter ret)
    (hraised : item.saveMode = true) (hexceeds : item.Exceeds counter) : item'.saveMode = true := by
  cases hverdict with
  | learns _ hnew | exceeds _ _ _ hnew => exact (Flags.mk.inj hnew).2.1.trans hraised
  | raises _ _ _ _ hnew => exact (Flags.mk.inj hnew).2.1
  | pauses _ hnot _ _ | resets _ hnot _ _ => exact absurd hexceeds hnot

/-- Intervals of one packet raise the alert and then leave everything as it is, until the interval
number is zero again. -/
theorem exists_raised_run {n : Nat} (hpos : 1 ≤ n) (hn : n < 18446744073709551616) :
    ∃ (tr : WatchTrace) (item : WatchItem), Run interval (.new unlearned) tr item ∧
      tr.length = n ∧ item.saveMode = true ∧ item.levels = (WatchItem.new unlearned).levels := by
  induction n, hpos using Nat.le_induction with
  | base =>
    have hrun : replays interval (.new unlearned) [1] = true := by decide +kernel
    refine ⟨_, _, run_of_replays hrun, rfl, ?_, ?_⟩ <;> decide +kernel
  | succ n hpos ih =>
    obtain ⟨tr, item, hrun, hlength, hraised, hlevels⟩ := ih (Nat.lt_of_succ_lt hn)
    have htrained := trained_run unlearned_proper hrun
    have hlearning : item.isLearning = false := by
      rw [Bool.eq_false_iff, Ne, htrained.isLearning_iff (by omega)]
      exact Nat.not_succ_le_zero _
    have hexceeds : item.Exceeds 1 := by
      obtain ⟨-, -, hthreshold, hlow, -, -⟩ := Levels.mk.inj hlevels
      rw [WatchItem.Exceeds, hthreshold, hlow]
      decide
    have hstep : interval item 1 = .ok ({ item with counter := 1 }.exceeded) := rfl
    refine ⟨_, _, hrun.next hstep, congrArg Nat.succ hlength, ?_, ?_⟩
    · exact saveMode_verdict (interval_verdict hstep) hraised hexceeds
    · rw [← hlevels]
      exact levels_training htrained.bounded (interval_training item 1) hexceeds.2 hraised hlearning

theorem raised_interval_trains :
    ∃ (tr : WatchTrace) (item : WatchItem), unlearned.Proper ∧
      Run interval (.new unlearned) tr item ∧ item.threshold < (1 : Nat) ∧ item.saveMode = true ∧
      { item with counter := 1 }.exceeded.1.average ≠ item.average := by
  obtain ⟨tr, item, hrun, hlength, hraised, hlevels⟩ :=
    exists_raised_run (n := 18446744073709551615) (by decide) (by decide)
  have htrained := trained_run unlearned_proper hrun
  obtain ⟨haverage, -, hthreshold, -, -, -⟩ := Levels.mk.inj hlevels
  have hlearning : item.isLearning = true := by
    have hlast : item.intervalNo = 18446744073709551615 := by
      apply UInt64.toNat_inj.mp
      rw [htrained.number, hlength]
      rfl
    rw [WatchItem.isLearning, htrained.parameters, hlast]
    rfl
  refine ⟨tr, item, unlearned_proper, hrun, ?_, hraised, ?_⟩
  · rw [hthreshold]
    decide
  · have hnew : { item with counter := 1 }.exceeded.1.average =
        { item with counter := 1 }.nextAverage .learn := by
      unfold WatchItem.exceeded
      dsimp only
      split
      · rfl
      · rename_i hnot
        exact absurd hlearning hnot
    rw [hnew, WatchItem.nextAverage]
    dsimp only
    rw [htrained.parameters, haverage]
    decide +kernel

end WormsAttack.Distack
