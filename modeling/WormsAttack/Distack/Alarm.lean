/-
  When an aggregate raises and lowers its alert.

  The alert depends on one thing only: which intervals exceed.  `lastExceeded` and
  `exceedingSince` read the flag and the counter of an item off its history; the `unsigned
  short` can wrap around only while an alert is raised.
-/
import Mathlib.Tactic.Positivity
import Mathlib.Tactic.Linarith
import WormsAttack.Foundation.Run
import WormsAttack.Distack.AggregateWatch

namespace WormsAttack.Distack

open Foundation Bool

def WatchItem.Exceeds (item : WatchItem) (counter : Nat) : Prop :=
  item.thresholdLow ≤ counter ∧ item.threshold < counter

instance decidableExceeds (item : WatchItem) (counter : Nat) : Decidable (item.Exceeds counter) :=
  inferInstanceAs (Decidable (_ ∧ _))

/-! ## One interval -/

structure Flags where
  exceedCounter : UInt16
  saveMode : Bool
  n1Exceeded : Bool

def WatchItem.flags (item : WatchItem) : Flags :=
  ⟨item.exceedCounter, item.saveMode, item.n1Exceeded⟩

def Flags.exceeding (f : Flags) (exceedThreshold : UInt32) : Flags × WatchResult :=
  if (f.exceedCounter + 1).toUInt32 > exceedThreshold ∧ f.saveMode = false then
    (⟨f.exceedCounter + 1, true, true⟩, .raiseAlert)
  else (⟨f.exceedCounter + 1, f.saveMode, true⟩, .nothing)

/-- What an interval that does not exceed does: the second one in a row is a reset. -/
def Flags.normal (f : Flags) : Flags × WatchResult :=
  if f.n1Exceeded then (⟨f.exceedCounter, f.saveMode, false⟩, .nothing)
  else (⟨0, false, false⟩, if f.saveMode then .lowerAlert else .nothing)

def Flags.next (f : Flags) (exceedThreshold : UInt32) (learning exceeds : Bool) :
    Flags × WatchResult :=
  if learning then (f, .nothing)
  else if exceeds then f.exceeding exceedThreshold
  else f.normal

theorem normal_flags (item : WatchItem) (groupDeviation groupAverage : ValueGroup) :
    ((item.normal groupDeviation groupAverage).1.flags,
      (item.normal groupDeviation groupAverage).2) = item.flags.normal ∧
      (item.normal groupDeviation groupAverage).1.parameters = item.parameters := by
  unfold WatchItem.normal Flags.normal
  by_cases hlast : item.n1Exceeded = true
  · simp [hlast, WatchItem.flags, WatchItem.updateParameters]
  · simp [hlast, WatchItem.flags, WatchItem.updateParameters]

theorem exceeding_flags (item : WatchItem) :
    (item.exceeding.1.flags, item.exceeding.2) =
        item.flags.exceeding item.parameters.exceedThreshold ∧
      item.exceeding.1.parameters = item.parameters := by
  unfold WatchItem.exceeding
  dsimp only
  by_cases hmore : (item.exceedCounter + 1).toUInt32 > item.parameters.exceedThreshold
  · rw [if_pos hmore]
    by_cases hsave : item.saveMode = true
    · rw [if_pos hsave, Flags.exceeding, if_neg]
      · exact ⟨rfl, rfl⟩
      · change ¬ (_ ∧ item.saveMode = false)
        rw [hsave]
        exact fun h => Bool.noConfusion h.2
    · rw [if_neg hsave, Flags.exceeding, if_pos]
      · exact ⟨rfl, rfl⟩
      · exact ⟨hmore, eq_false_iff.mpr hsave⟩
  · have hquiet : item.flags.exceeding item.parameters.exceedThreshold =
        (⟨item.exceedCounter + 1, item.saveMode, true⟩, .nothing) := if_neg fun h => hmore h.1
    rw [if_neg hmore, hquiet]
    split <;> exact ⟨rfl, rfl⟩

variable {item item' : WatchItem} {ret : WatchResult} {counter : Nat}

theorem interval_flags (h : interval item counter = .ok (item', ret)) :
    (item'.flags, ret) = item.flags.next item.parameters.exceedThreshold item.isLearning
        (item.Exceeds counter) ∧ item'.parameters = item.parameters := by
  have hexceeded : { item with counter := counter }.exceeded = (item', ret) := Except.ok.inj h
  unfold Flags.next
  change (if item.isLearning = true then _ else _) = _ at hexceeded
  split at hexceeded
  · rename_i hlearning
    cases hexceeded
    rw [if_pos hlearning]
    exact ⟨rfl, rfl⟩
  · rename_i hnot
    rw [if_neg hnot]
    split at hexceeded
    · rename_i hlow
      have hbelow : ¬ item.Exceeds counter := fun hexceeds => absurd hlow (not_lt.mpr hexceeds.1)
      rw [if_neg (by rwa [decide_eq_true_eq])]
      obtain ⟨hflags, hparameters⟩ := normal_flags
        { item with counter := counter, intervalNo := item.intervalNo + 1 } .red .red
      rw [hexceeded] at hflags hparameters
      exact ⟨hflags, hparameters⟩
    · rename_i hlow
      split at hexceeded
      · rename_i hbetween
        have hbelow : ¬ item.Exceeds counter :=
          fun hexceeds => absurd hbetween.2 (not_le.mpr hexceeds.2)
        rw [if_neg (by rwa [decide_eq_true_eq])]
        obtain ⟨hflags, hparameters⟩ := normal_flags
          { item with counter := counter, intervalNo := item.intervalNo + 1 } .dev .avg
        rw [hexceeded] at hflags hparameters
        exact ⟨hflags, hparameters⟩
      · rename_i hbetween
        have habove : item.Exceeds counter :=
          ⟨not_lt.mp hlow, not_le.mp fun hle => hbetween ⟨not_lt.mp hlow, hle⟩⟩
        rw [if_pos (decide_eq_true habove)]
        obtain ⟨hflags, hparameters⟩ := exceeding_flags
          { item with counter := counter, intervalNo := item.intervalNo + 1 }
        rw [hexceeded] at hflags hparameters
        exact ⟨hflags, hparameters⟩

inductive Verdict (item item' : WatchItem) (counter : Nat) : WatchResult → Prop
  | learns (hlearning : item.isLearning = true) (hnew : item'.flags = item.flags) :
      Verdict item item' counter .nothing
  | raises (hlearning : item.isLearning = false) (hexceeds : item.Exceeds counter)
      (hidle : item.saveMode = false)
      (hmore : (item.exceedCounter + 1).toUInt32 > item.parameters.exceedThreshold)
      (hnew : item'.flags = ⟨item.exceedCounter + 1, true, true⟩) :
      Verdict item item' counter .raiseAlert
  | exceeds (hlearning : item.isLearning = false) (hexceeds : item.Exceeds counter)
      (hless : item.saveMode = false →
        ¬ (item.exceedCounter + 1).toUInt32 > item.parameters.exceedThreshold)
      (hnew : item'.flags = ⟨item.exceedCounter + 1, item.saveMode, true⟩) :
      Verdict item item' counter .nothing
  | pauses (hlearning : item.isLearning = false) (hexceeds : ¬ item.Exceeds counter)
      (hlast : item.n1Exceeded = true)
      (hnew : item'.flags = ⟨item.exceedCounter, item.saveMode, false⟩) :
      Verdict item item' counter .nothing
  | resets (hlearning : item.isLearning = false) (hexceeds : ¬ item.Exceeds counter)
      (hlast : item.n1Exceeded = false) (hnew : item'.flags = ⟨0, false, false⟩) :
      Verdict item item' counter (if item.saveMode then .lowerAlert else .nothing)

theorem interval_verdict (h : interval item counter = .ok (item', ret)) :
    Verdict item item' counter ret := by
  obtain ⟨hflags, -⟩ := interval_flags h
  unfold Flags.next at hflags
  split at hflags
  · rename_i hlearning
    obtain ⟨hnew, rfl⟩ := Prod.mk.inj hflags
    exact .learns hlearning hnew
  · rename_i hnot
    have hlearning : item.isLearning = false := eq_false_iff.mpr hnot
    split_ifs at hflags with hexceeds
    · have hexceeds' := of_decide_eq_true hexceeds
      unfold Flags.exceeding at hflags
      split_ifs at hflags with hraise
      · obtain ⟨hnew, rfl⟩ := Prod.mk.inj hflags
        exact .raises hlearning hexceeds' hraise.2 hraise.1 hnew
      · obtain ⟨hnew, rfl⟩ := Prod.mk.inj hflags
        exact .exceeds hlearning hexceeds' (fun hidle hmore => hraise ⟨hmore, hidle⟩) hnew
    · have hexceeds' : ¬ item.Exceeds counter := of_decide_eq_false (eq_false_iff.mpr hexceeds)
      unfold Flags.normal at hflags
      split at hflags
      · rename_i hlast
        obtain ⟨hnew, rfl⟩ := Prod.mk.inj hflags
        exact .pauses hlearning hexceeds' hlast hnew
      · rename_i hlast
        obtain ⟨hnew, rfl⟩ := Prod.mk.inj hflags
        exact .resets hlearning hexceeds' (eq_false_iff.mpr hlast) hnew

theorem Verdict.raise_iff (h : Verdict item item' counter ret) :
    ret = .raiseAlert ↔ item.isLearning = false ∧ item.Exceeds counter ∧ item.saveMode = false ∧
      (item.exceedCounter + 1).toUInt32 > item.parameters.exceedThreshold := by
  cases h with
  | learns hlearning _ =>
    refine iff_of_false (by simp) fun hraise => ?_
    exact Bool.noConfusion (hlearning.symm.trans hraise.1)
  | raises hlearning hexceeds hidle hmore _ =>
    exact iff_of_true rfl ⟨hlearning, hexceeds, hidle, hmore⟩
  | exceeds _ _ hless _ =>
    exact iff_of_false (by simp) fun hraise => hless hraise.2.2.1 hraise.2.2.2
  | pauses _ hexceeds _ _ => exact iff_of_false (by simp) fun hraise => hexceeds hraise.2.1
  | resets _ hexceeds _ _ =>
    refine iff_of_false ?_ fun hraise => hexceeds hraise.2.1
    split <;> simp

theorem Verdict.lower_iff (h : Verdict item item' counter ret) :
    ret = .lowerAlert ↔ item.isLearning = false ∧ ¬ item.Exceeds counter ∧
      item.n1Exceeded = false ∧ item.saveMode = true := by
  cases h with
  | learns hlearning _ =>
    refine iff_of_false (by simp) fun hlower => ?_
    exact Bool.noConfusion (hlearning.symm.trans hlower.1)
  | raises _ hexceeds _ _ _ | exceeds _ hexceeds _ _ =>
    exact iff_of_false (by simp) fun hlower => hlower.2.1 hexceeds
  | pauses _ _ hlast _ =>
    refine iff_of_false (by simp) fun hlower => ?_
    exact Bool.noConfusion (hlast.symm.trans hlower.2.2.1)
  | resets hlearning hexceeds hlast _ =>
    split_ifs with hraised
    · exact iff_of_true rfl ⟨hlearning, hexceeds, hlast, hraised⟩
    · exact iff_of_false (by simp) fun hlower => hraised hlower.2.2.2

/-! ## Histories -/

abbrev WatchTrace := List (Step WatchItem Nat WatchResult)

def lastExceeded : WatchTrace → Bool
  | [] => false
  | st :: tr => if st.pre.isLearning then lastExceeded tr else st.pre.Exceeds st.event

/-- The intervals that have exceeded since the last reset, the second of two that did not exceed. -/
def exceedingSince : WatchTrace → Nat
  | [] => 0
  | st :: tr =>
      if st.pre.isLearning then exceedingSince tr
      else if st.pre.Exceeds st.event then exceedingSince tr + 1
      else if lastExceeded tr then exceedingSince tr
      else 0

section History

variable {tr : WatchTrace} {item : WatchItem} {counter : Nat} {ret : WatchResult}
  (hlearning : item.isLearning = false)

include hlearning

theorem lastExceeded_learned :
    lastExceeded (⟨item, counter, ret⟩ :: tr) = decide (item.Exceeds counter) := by
  rw [lastExceeded, if_neg (eq_false_iff.mp hlearning)]

omit hlearning in
theorem exceedingSince_learning (hlearning : item.isLearning = true) :
    exceedingSince (⟨item, counter, ret⟩ :: tr) = exceedingSince tr := by
  rw [exceedingSince, if_pos hlearning]

theorem exceedingSince_exceeds (hexceeds : item.Exceeds counter) :
    exceedingSince (⟨item, counter, ret⟩ :: tr) = exceedingSince tr + 1 := by
  rw [exceedingSince, if_neg (eq_false_iff.mp hlearning), if_pos hexceeds]

theorem exceedingSince_pauses (hexceeds : ¬ item.Exceeds counter) (hlast : lastExceeded tr = true) :
    exceedingSince (⟨item, counter, ret⟩ :: tr) = exceedingSince tr := by
  rw [exceedingSince, if_neg (eq_false_iff.mp hlearning), if_neg hexceeds, if_pos hlast]

theorem exceedingSince_resets
    (hexceeds : ¬ item.Exceeds counter) (hlast : lastExceeded tr = false) :
    exceedingSince (⟨item, counter, ret⟩ :: tr) = 0 := by
  rw [exceedingSince, if_neg (eq_false_iff.mp hlearning), if_neg hexceeds,
    if_neg (eq_false_iff.mp hlast)]

end History

def signals (tr : WatchTrace) : List WatchResult :=
  (tr.map (·.out)).filter (· ≠ .nothing)

def alternating : Nat → List WatchResult
  | 0 => []
  | n + 1 => (if n % 2 = 0 then .raiseAlert else .lowerAlert) :: alternating n

theorem length_alternating (n : Nat) : (alternating n).length = n := by
  induction n with
  | zero => rfl
  | succ n ih => rw [alternating, List.length_cons, ih]

theorem head?_alternating (n : Nat) :
    (alternating n).head? = some .raiseAlert ↔ n % 2 = 1 := by
  cases n with
  | zero => exact iff_of_false (by decide) (by decide)
  | succ n =>
    rw [alternating, List.head?_cons]
    split
    · exact iff_of_true rfl (by omega)
    · exact iff_of_false (by decide) (by omega)

structure Watching (param : WatchParams) (tr : WatchTrace) (item : WatchItem) : Prop where
  parameters : item.parameters = param
  flag : item.n1Exceeded = lastExceeded tr
  count : item.exceedCounter.toNat = exceedingSince tr % 65536
  below : item.saveMode = false → exceedingSince tr ≤ param.exceedThreshold.toNat
  alternates : ∃ n, signals tr = alternating n ∧ (item.saveMode = true ↔ n % 2 = 1)

theorem watching_new (param : WatchParams) : Watching param [] (.new param) :=
  ⟨rfl, rfl, rfl, fun _ => Nat.zero_le _, 0, rfl, iff_of_false Bool.noConfusion (by decide)⟩

theorem toNat_exceedCounter_succ {n : UInt16} {k : Nat} (h : n.toNat = k % 65536) :
    (n + 1).toNat = (k + 1) % 65536 := by
  rw [UInt16.toNat_add, h]
  exact (Nat.add_mod k 1 65536).symm

variable {tr : WatchTrace}

theorem Watching.more_iff {param : WatchParams} (h : Watching param tr item)
    (hthreshold : param.exceedThreshold.toNat < 65535) (hsave : item.saveMode = false) :
    (item.exceedCounter + 1).toUInt32 > param.exceedThreshold ↔
      param.exceedThreshold.toNat < exceedingSince tr + 1 := by
  have hbelow := h.below hsave
  rw [gt_iff_lt, UInt32.lt_iff_toNat_lt, UInt16.toNat_toUInt32, toNat_exceedCounter_succ h.count,
    Nat.mod_eq_of_lt (by omega)]

variable {st : Step WatchItem Nat WatchResult}

theorem signals_quiet (h : st.out = .nothing) : signals (st :: tr) = signals tr := by
  rw [signals, List.map_cons, h]
  rfl

theorem signals_cons (h : st.out ≠ .nothing) : signals (st :: tr) = st.out :: signals tr := by
  have htest : decide (st.out ≠ .nothing) = true := decide_eq_true h
  rw [signals, List.map_cons, List.filter_cons, if_pos htest]
  rfl

section Interval

variable {param : WatchParams} {tr : WatchTrace} {item item' : WatchItem} {counter : Nat}
  {ret : WatchResult}

theorem flag_verdict (h : item.n1Exceeded = lastExceeded tr)
    (hverdict : Verdict item item' counter ret) :
    item'.n1Exceeded = lastExceeded (⟨item, counter, ret⟩ :: tr) := by
  cases hverdict with
  | learns hlearning hnew =>
    rw [lastExceeded, if_pos hlearning, (Flags.mk.inj hnew).2.2]
    exact h
  | raises hlearning hexceeds _ _ hnew | exceeds hlearning hexceeds _ hnew =>
    rw [lastExceeded_learned hlearning, (Flags.mk.inj hnew).2.2]
    exact (decide_eq_true hexceeds).symm
  | pauses hlearning hexceeds _ hnew | resets hlearning hexceeds _ hnew =>
    rw [lastExceeded_learned hlearning, (Flags.mk.inj hnew).2.2]
    exact (decide_eq_false hexceeds).symm

theorem count_verdict (h : Watching param tr item) (hverdict : Verdict item item' counter ret) :
    item'.exceedCounter.toNat = exceedingSince (⟨item, counter, ret⟩ :: tr) % 65536 := by
  cases hverdict with
  | learns hlearning hnew =>
    rw [exceedingSince_learning hlearning, (Flags.mk.inj hnew).1]
    exact h.count
  | raises hlearning hexceeds _ _ hnew | exceeds hlearning hexceeds _ hnew =>
    rw [exceedingSince_exceeds hlearning hexceeds, (Flags.mk.inj hnew).1]
    exact toNat_exceedCounter_succ h.count
  | pauses hlearning hexceeds hlast hnew =>
    rw [exceedingSince_pauses hlearning hexceeds (h.flag.symm.trans hlast), (Flags.mk.inj hnew).1]
    exact h.count
  | resets hlearning hexceeds hlast hnew =>
    rw [exceedingSince_resets hlearning hexceeds (h.flag.symm.trans hlast), (Flags.mk.inj hnew).1]
    rfl

variable (hthreshold : param.exceedThreshold.toNat < 65535)

include hthreshold

theorem below_verdict (h : Watching param tr item) (hverdict : Verdict item item' counter ret)
    (hidle : item'.saveMode = false) :
    exceedingSince (⟨item, counter, ret⟩ :: tr) ≤ param.exceedThreshold.toNat := by
  cases hverdict with
  | learns hlearning hnew =>
    rw [exceedingSince_learning hlearning]
    exact h.below ((Flags.mk.inj hnew).2.1.symm.trans hidle)
  | raises _ _ _ _ hnew => exact absurd ((Flags.mk.inj hnew).2.1.symm.trans hidle) Bool.noConfusion
  | exceeds hlearning hexceeds hless hnew =>
    have hidle' : item.saveMode = false := (Flags.mk.inj hnew).2.1.symm.trans hidle
    have hnot := hless hidle'
    rw [h.parameters, h.more_iff hthreshold hidle'] at hnot
    rw [exceedingSince_exceeds hlearning hexceeds]
    omega
  | pauses hlearning hexceeds hlast hnew =>
    rw [exceedingSince_pauses hlearning hexceeds (h.flag.symm.trans hlast)]
    exact h.below ((Flags.mk.inj hnew).2.1.symm.trans hidle)
  | resets hlearning hexceeds hlast hnew =>
    rw [exceedingSince_resets hlearning hexceeds (h.flag.symm.trans hlast)]
    exact Nat.zero_le _

omit hthreshold in
theorem signals_verdict {n : Nat} (hsignals : signals tr = alternating n)
    (hodd : item.saveMode = true ↔ n % 2 = 1) (hverdict : Verdict item item' counter ret) :
    ∃ n, signals (⟨item, counter, ret⟩ :: tr) = alternating n ∧
      (item'.saveMode = true ↔ n % 2 = 1) := by
  have hquiet : item'.saveMode = item.saveMode → ret = .nothing →
      ∃ n, signals (⟨item, counter, ret⟩ :: tr) = alternating n ∧
        (item'.saveMode = true ↔ n % 2 = 1) := by
    intro hsame hret
    exact ⟨n, by rw [signals_quiet hret, hsignals], by rw [hsame, hodd]⟩
  cases hverdict with
  | learns _ hnew | exceeds _ _ _ hnew | pauses _ _ _ hnew =>
    exact hquiet (Flags.mk.inj hnew).2.1 rfl
  | raises _ _ hidle _ hnew =>
    rw [hidle] at hodd
    have heven : n % 2 = 0 := by
      have := mt hodd.mpr Bool.noConfusion
      omega
    refine ⟨n + 1, ?_, iff_of_true (Flags.mk.inj hnew).2.1 (by omega)⟩
    rw [signals_cons (by simp), hsignals, alternating, if_pos heven]
  | resets _ _ _ hnew =>
    have hsaved : item'.saveMode = false := (Flags.mk.inj hnew).2.1
    by_cases hraised : item.saveMode = true
    · have hodd' := hodd.mp hraised
      rw [if_pos hraised, hsaved]
      refine ⟨n + 1, ?_, iff_of_false Bool.noConfusion (by omega)⟩
      rw [signals_cons (by simp), hsignals, alternating, if_neg (by omega)]
    · rw [if_neg hraised] at hquiet ⊢
      exact hquiet (hsaved.trans (eq_false_iff.mpr hraised).symm) rfl

theorem watching_interval
    (h : Watching param tr item) (hinterval : interval item counter = .ok (item', ret)) :
    Watching param (⟨item, counter, ret⟩ :: tr) item' := by
  have hverdict := interval_verdict hinterval
  obtain ⟨n, hsignals, hodd⟩ := h.alternates
  exact ⟨(interval_flags hinterval).2.trans h.parameters, flag_verdict h.flag hverdict,
    count_verdict h hverdict, below_verdict hthreshold h hverdict,
    signals_verdict hsignals hodd hverdict⟩

theorem watching_run (h : Run interval (.new param) tr item) : Watching param tr item :=
  h.invariant (watching_new param) fun _ _ _ _ _ hwatching hinterval =>
    watching_interval hthreshold hwatching hinterval

def DoubleNormal (tr : WatchTrace) (item : WatchItem) (counter : Nat) : Prop :=
  item.isLearning = false ∧ ¬ item.Exceeds counter ∧ lastExceeded tr = false

theorem raise_iff (h : Watching param tr item) (hverdict : Verdict item item' counter ret) :
    ret = .raiseAlert ↔ item.isLearning = false ∧ item.Exceeds counter ∧ item.saveMode = false ∧
      param.exceedThreshold.toNat < exceedingSince tr + 1 := by
  rw [hverdict.raise_iff, h.parameters]
  refine and_congr_right fun _ => and_congr_right fun _ => and_congr_right fun hidle => ?_
  exact h.more_iff hthreshold hidle

omit hthreshold

theorem lower_iff (h : Watching param tr item) (hverdict : Verdict item item' counter ret) :
    ret = .lowerAlert ↔ DoubleNormal tr item counter ∧ item.saveMode = true := by
  rw [hverdict.lower_iff, h.flag]
  constructor
  · rintro ⟨hlearned, hnormal, hlast, hraised⟩
    exact ⟨⟨hlearned, hnormal, hlast⟩, hraised⟩
  · rintro ⟨⟨hlearned, hnormal, hlast⟩, hraised⟩
    exact ⟨hlearned, hnormal, hlast, hraised⟩

theorem exceedCounter_verdict (h : Watching param tr item)
    (hverdict : Verdict item item' counter ret) :
    (DoubleNormal tr item counter → item'.exceedCounter = 0) ∧
      (¬ DoubleNormal tr item counter → item'.exceedCounter =
        if item.isLearning = false ∧ item.Exceeds counter then item.exceedCounter + 1
        else item.exceedCounter) := by
  cases hverdict with
  | learns hlearning hnew =>
    refine ⟨fun hdouble => ?_, fun _ => ?_⟩
    · exact absurd (hlearning.symm.trans hdouble.1) Bool.noConfusion
    · rw [hlearning, if_neg fun hnot => Bool.noConfusion hnot.1]
      exact (Flags.mk.inj hnew).1
  | raises hlearning hexceeds _ _ hnew | exceeds hlearning hexceeds _ hnew =>
    refine ⟨fun hdouble => absurd hexceeds hdouble.2.1, fun _ => ?_⟩
    rw [if_pos ⟨hlearning, hexceeds⟩]
    exact (Flags.mk.inj hnew).1
  | pauses _ hexceeds hlast hnew =>
    refine ⟨fun hdouble => ?_, fun _ => ?_⟩
    · exact absurd (hlast.symm.trans (h.flag.trans hdouble.2.2)) Bool.noConfusion
    · rw [if_neg fun hnot => hexceeds hnot.2]
      exact (Flags.mk.inj hnew).1
  | resets hlearning hexceeds hlast hnew =>
    refine ⟨fun _ => (Flags.mk.inj hnew).1, fun hnot => ?_⟩
    exact absurd ⟨hlearning, hexceeds, h.flag.symm.trans hlast⟩ hnot

/-- The signals alternate and begin with a raise; the alert is raised and lowered just when the
intervals since the last reset say so. -/
theorem alert_alternates (hthreshold : param.exceedThreshold.toNat < 65535)
    (h : Run interval (.new param) tr item) :
    signals tr = alternating (signals tr).length ∧
      (item.saveMode = true ↔ (signals tr).head? = some .raiseAlert) ∧
      ∀ counter item' ret, interval item counter = .ok (item', ret) →
        (ret = .raiseAlert ↔ item.isLearning = false ∧ item.Exceeds counter ∧
          item.saveMode = false ∧ param.exceedThreshold.toNat < exceedingSince tr + 1) ∧
        (ret = .lowerAlert ↔ DoubleNormal tr item counter ∧ item.saveMode = true) ∧
        (DoubleNormal tr item counter → item'.exceedCounter = 0) ∧
        (¬ DoubleNormal tr item counter → item'.exceedCounter =
          if item.isLearning = false ∧ item.Exceeds counter then item.exceedCounter + 1
          else item.exceedCounter) := by
  have hwatching := watching_run hthreshold h
  obtain ⟨n, hsignals, hodd⟩ := hwatching.alternates
  refine ⟨?_, ?_, fun counter item' ret hinterval => ?_⟩
  · rw [hsignals, length_alternating]
  · rw [hsignals, head?_alternating, hodd]
  · have hverdict := interval_verdict hinterval
    exact ⟨raise_iff hthreshold hwatching hverdict, lower_iff hwatching hverdict,
      exceedCounter_verdict hwatching hverdict⟩

end Interval

def alertAtOnce (beta : Rat) : WatchParams :=
  { alphaAvg := 1 / 2
    alphaDev := 1 / 2
    alphaRed := 1 / 2
    alphaLearn := 1 / 2
    beta := beta
    exceedThreshold := 0
    learningIntervals := 1 }

theorem alert_alternates_raised :
    (alertAtOnce 2).exceedThreshold.toNat < 65535 ∧
      replays interval (.new (alertAtOnce 2)) [10, 20, 5, 5] = true ∧
      (replayState interval (.new (alertAtOnce 2)) [10, 20, 5, 5]).saveMode = false ∧
      (signals (replayTrace interval (.new (alertAtOnce 2)) [10, 20, 5, 5])).head? ≠
        some .raiseAlert := by
  have hthreshold : (alertAtOnce 2).exceedThreshold.toNat < 65535 := by decide
  have hrun : replays interval (.new (alertAtOnce 2)) [10, 20, 5, 5] = true := by decide +kernel
  have hsave : (replayState interval (.new (alertAtOnce 2)) [10, 20, 5, 5]).saveMode = false := by
    decide +kernel
  refine ⟨hthreshold, hrun, hsave, fun hraised => ?_⟩
  have hsave' := (alert_alternates hthreshold (run_of_replays hrun)).2.1.mpr hraised
  exact Bool.noConfusion (hsave.symm.trans hsave')

/-- A negative `beta` puts the lower threshold above the upper one, and no alert is raised. -/
theorem negative_beta_raises_nothing :
    let item := replayState interval (.new (alertAtOnce (-1))) [10]
    replays interval (.new (alertAtOnce (-1))) [10] = true ∧ item.isLearning = false ∧
      item.threshold < 3 ∧ item.saveMode = false ∧
      ((interval item 3).toOption.map Prod.snd) = some .nothing := by
  decide +kernel

/-! ## Thresholds -/

structure WatchParams.Proper (param : WatchParams) : Prop where
  beta : 0 ≤ param.beta
  alphaAvg : 0 ≤ param.alphaAvg ∧ param.alphaAvg ≤ 1
  alphaDev : 0 ≤ param.alphaDev ∧ param.alphaDev ≤ 1
  alphaRed : 0 ≤ param.alphaRed ∧ param.alphaRed ≤ 1
  alphaLearn : 0 ≤ param.alphaLearn ∧ param.alphaLearn ≤ 1

structure WatchItem.InOrder (item : WatchItem) : Prop where
  proper : item.parameters.Proper
  deviation : 0 ≤ item.deviation
  average : 0 ≤ item.average
  thresholds : item.thresholdLow ≤ item.threshold

theorem ewma_nonneg {alpha old new : Rat} (halpha : 0 ≤ alpha ∧ alpha ≤ 1) (hold : 0 ≤ old)
    (hnew : 0 ≤ new) : 0 ≤ (1 - alpha) * old + alpha * new :=
  add_nonneg (mul_nonneg (sub_nonneg.mpr halpha.2) hold) (mul_nonneg halpha.1 hnew)

theorem inOrder_updateParameters (h : item.InOrder) (groupDeviation groupAverage : ValueGroup) :
    (item.updateParameters groupDeviation groupAverage).InOrder := by
  have hzero : (0 : Rat) ≤ 0 ∧ (0 : Rat) ≤ 1 := by decide
  have hdeviation : 0 ≤ item.nextDeviation groupDeviation := by
    have habs := abs_nonneg ((item.counter : Rat) - item.average)
    cases groupDeviation with
    | avg => exact ewma_nonneg hzero h.deviation habs
    | dev => exact ewma_nonneg h.proper.alphaDev h.deviation habs
    | red =>
      simp only [WatchItem.nextDeviation]
      split
      · exact ewma_nonneg h.proper.alphaDev h.deviation habs
      · exact h.deviation
    | learn => exact ewma_nonneg h.proper.alphaLearn h.deviation habs
  have haverage : 0 ≤ item.nextAverage groupAverage := by
    have hcounter : (0 : Rat) ≤ item.counter := Nat.cast_nonneg _
    cases groupAverage with
    | avg => exact ewma_nonneg h.proper.alphaAvg h.average hcounter
    | dev => exact ewma_nonneg hzero h.average hcounter
    | red => exact ewma_nonneg h.proper.alphaRed h.average hcounter
    | learn => exact ewma_nonneg h.proper.alphaLearn h.average hcounter
  have hwidth := mul_nonneg h.proper.beta hdeviation
  refine ⟨h.proper, hdeviation, haverage, max_le ?_ ?_⟩
  · change _ ≤ item.nextAverage groupAverage + item.parameters.beta * _
    linarith
  · exact add_nonneg haverage hwidth

end WormsAttack.Distack
