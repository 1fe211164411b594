/-
  The analysis of the address space.

  Source: distack-1.2.3-dev/src/modules/attackdetection/ModuleAnalyzerAddressSpace.cpp.

  The analyzer gets the subnets of the last intervals with their counters, and for each interval
  a count and a threshold.

  An interval is abnormal if the count is above the threshold.  The search for attacked subnets
  asks by which part it is above, and takes that to be nothing for a threshold of 0.

  NUMBERS.  `double` values are exact rationals, and the numbers of subnets and of intervals are
  below `2 ^ 32`.
-/
import Mathlib.Algebra.Order.Field.Rat
import Mathlib.Algebra.Order.Field.Basic
import WormsAttack.Distack.AttackDetection
import WormsAttack.Distack.ProtocolAnomaly
import WormsAttack.Foundation.Double

namespace WormsAttack.Distack.Analysis

open Foundation SubnetCounterTree ProtocolAnomaly List Prod
open AttackDetection (CountThreshold Aggregate)

abbrev Subnets (c : Nat) := List (IpAddr × AddrCounter c)

structure Params where
  subnetChangePercent : UInt16
  activeSubnetPackets : UInt32
  activeSubnetRelation : Rat

inductive Stop
  /-- `m_haveAggregate == true` -/
  | noAggregate
  /-- `m_intervalSubnets.size() <= m_intervalValues.size()` -/
  | tooFewValues
  /-- `normalSubnets.size() == curSubnets.size()` -/
  | subnetCount
  /-- `(*normalBegin)->GetKey() == (*curBegin)->GetKey()` -/
  | subnetKey
  /-- `normalIntervals > 0` and `abnormalIntervals > 0` -/
  | noIntervals
  deriving DecidableEq

structure Interval (c : Nat) where
  subnets : Subnets c
  values : CountThreshold

variable {c : Nat}

namespace Interval

def abnormal (i : Interval c) : Bool := decide (i.values.threshold < i.values.count)

def exceeding (i : Interval c) : Rat :=
  if i.values.threshold ≠ 0 then i.values.count / i.values.threshold - 1 else 0

def activeSubnets (p : Params) (i : Interval c) : Nat :=
  i.subnets.countP fun subnet => p.activeSubnetPackets.toNat < subnet.2.srcCount.toNat

end Interval

/-! ## The attacked subnets -/

def suspicious (p : Params) (threshExceeding : Rat) (normalCount curCount : AddrCounter c) : Bool :=
  let subnetExceeding : Rat :=
    if curCount.dstCount.toNat < p.activeSubnetPackets.toNat then 0
    else if normalCount.dstCount = 0 then 0
    else curCount.dstCount.toNat / normalCount.dstCount.toNat - 1
  decide ((p.subnetChangePercent.toNat : Rat) / 100 * threshExceeding < subnetExceeding)

def compareSubnets (p : Params) (threshExceeding : Rat) :
    (normalSubnets curSubnets : Subnets c) → (attackedSubnets : List IpAddr) →
      Except Stop (List IpAddr)
  | (addr, normalCount) :: normal, (addr', curCount) :: cur, attackedSubnets =>
      if addr = addr' then
        compareSubnets p threshExceeding normal cur
          (if suspicious p threshExceeding normalCount curCount ∧
              !attackedSubnets.contains addr then
            attackedSubnets ++ [addr]
          else attackedSubnets)
      else .error .subnetKey
  | _, _, attackedSubnets => .ok attackedSubnets

structure Found where
  attackedSubnets : List IpAddr
  /-- The intervals whose subnets have been compared; not in the source. -/
  examined : List Nat
  deriving DecidableEq

def examine (p : Params) (normalSubnets : Subnets c) (found : Found) (entry : Interval c × Nat) :
    Except Stop Found :=
  if normalSubnets.length ≠ entry.1.subnets.length then .error .subnetCount
  else if entry.1.exceeding ≤ 0 then .ok found
  else do
    let attackedSubnets ←
      compareSubnets p entry.1.exceeding normalSubnets entry.1.subnets found.attackedSubnets
    .ok { attackedSubnets, examined := found.examined ++ [entry.2] }

def analyzeFindAttackedSubnets (p : Params) (intervals : List (Interval c))
    (intervalLastNormal intervalFirstAbnormal : Nat) : Except Stop Found :=
  let normalSubnets := intervals[intervalLastNormal]?.elim [] Interval.subnets
  ((intervals.drop intervalFirstAbnormal).zipIdx intervalFirstAbnormal).foldlM
    (examine p normalSubnets) ⟨[], []⟩

/-! ## The distributed attack -/

structure Tally where
  normalIntervals : Nat
  abnormalIntervals : Nat
  activeSubnetsInNormalIntervals : Nat
  activeSubnetsInAbnormalIntervals : Nat

def Tally.add (p : Params) (t : Tally) (i : Interval c) : Tally :=
  if i.abnormal then
    { t with
      abnormalIntervals := t.abnormalIntervals + 1
      activeSubnetsInAbnormalIntervals := t.activeSubnetsInAbnormalIntervals + i.activeSubnets p }
  else
    { t with
      normalIntervals := t.normalIntervals + 1
      activeSubnetsInNormalIntervals := t.activeSubnetsInNormalIntervals + i.activeSubnets p }

def analyzeIsDistributedAttack (p : Params) (intervals : List (Interval c))
    (intervalLastNormal : Nat) : Except Stop Bool :=
  let t := (intervals.drop intervalLastNormal).foldl (Tally.add p) ⟨0, 0, 0, 0⟩
  if t.normalIntervals = 0 ∨ t.abnormalIntervals = 0 then .error .noIntervals
  else
    let averageNormal : Rat := t.activeSubnetsInNormalIntervals / t.normalIntervals
    let averageAbnormal : Rat := t.activeSubnetsInAbnormalIntervals / t.abnormalIntervals
    .ok (decide (p.activeSubnetRelation * averageNormal ≤ averageAbnormal))

/-! ## The report -/

def intervalsOf (intervalSubnets : List (Subnets c)) (intervalValues : List CountThreshold) :
    List (Interval c) :=
  List.zipWith Interval.mk intervalSubnets intervalValues

inductive AlertMsg
  /-- "invalid alert, no abnormal intervals found" -/
  | noAbnormalIntervals
  /-- "found attack on subnet ", with the address -/
  | attackOnSubnet (addr : IpAddr)
  /-- "found distributed attack" -/
  | distributedAttack
  | empty
  /-- "no attacked subnet or distributed attack found. lowering alert level" -/
  | nothingFound
  deriving DecidableEq

structure Report where
  raiseLevel : Bool
  alertMsg : AlertMsg
  lastAnomalyType : Option AnomalyType
  deriving DecidableEq

def report (distributed : Bool) : (attackedSubnets : List IpAddr) → Report
  | [] =>
      if distributed then ⟨true, .distributedAttack, some .worm⟩
      else ⟨false, .nothingFound, some .unknown⟩
  | [addr] => ⟨true, .attackOnSubnet addr, some .dos⟩
  | _ => ⟨true, if distributed then .distributedAttack else .empty, some .worm⟩

def analyze (p : Params) (intervalSubnets : List (Subnets c))
    (intervalValues : List CountThreshold) : Except Stop Report :=
  if intervalValues.length < intervalSubnets.length then .error .tooFewValues
  else
    let intervals := intervalsOf intervalSubnets intervalValues
    match intervals.findIdx? Interval.abnormal with
    | none | some 0 => .ok ⟨false, .noAbnormalIntervals, none⟩
    | some (intervalLastNormal + 1) => do
        let found ← analyzeFindAttackedSubnets p intervals intervalLastNormal
          (intervalLastNormal + 1)
        let distributed ← analyzeIsDistributedAttack p intervals intervalLastNormal
        .ok (report distributed found.attackedSubnets)

/-! ## Which intervals are examined -/

theorem exceeding_pos_iff {i : Interval c} (h : 0 ≤ i.values.threshold) :
    0 < i.exceeding ↔ i.values.threshold ≠ 0 ∧ i.values.threshold < i.values.count := by
  unfold Interval.exceeding
  split_ifs with hzero
  · rw [sub_pos, one_lt_div (lt_of_le_of_ne h hzero.symm), and_iff_right hzero]
  · exact iff_of_false (lt_irrefl 0) fun hand => hzero hand.1

theorem examined_foldlM {p : Params} {normalSubnets : Subnets c}
    {entries : List (Interval c × Nat)} {found found' : Found}
    (h : entries.foldlM (examine p normalSubnets) found = .ok found') :
    found'.examined = found.examined ++
      (entries.filter fun entry => 0 < entry.1.exceeding).map snd := by
  induction entries generalizing found with
  | nil =>
    obtain rfl := Except.ok.inj h
    exact (append_nil _).symm
  | cons entry entries ih =>
    obtain ⟨found₁, hstep, hrest⟩ := foldlM_cons_eq_ok.mp h
    rw [ih hrest]
    unfold examine at hstep
    split_ifs at hstep with hlength hnone
    · obtain rfl := Except.ok.inj hstep
      rw [filter_cons_of_neg (by simpa using hnone)]
    · obtain ⟨attacked, -, hstep⟩ := bind_eq_ok.mp hstep
      obtain rfl := Except.ok.inj hstep
      rw [filter_cons_of_pos (by simpa using hnone), map_cons, append_assoc]
      rfl

/-- From the first abnormal interval on, the abnormal intervals are examined and no others, if
and only if none of them has a count and a threshold of 0. -/
theorem examined_iff {p : Params} {intervals : List (Interval c)}
    {intervalLastNormal intervalFirstAbnormal : Nat} {found : Found}
    (hnonneg : ∀ interval ∈ intervals, 0 ≤ interval.values.threshold)
    (hfound : analyzeFindAttackedSubnets p intervals intervalLastNormal intervalFirstAbnormal =
      .ok found) :
    (∀ i interval, intervalFirstAbnormal ≤ i → intervals[i]? = some interval →
        (i ∈ found.examined ↔ interval.values.threshold < interval.values.count)) ↔
      ∀ i interval, intervalFirstAbnormal ≤ i → intervals[i]? = some interval →
        ¬ (interval.values.threshold = 0 ∧ 0 < interval.values.count) := by
  have hexamined : ∀ i interval, intervalFirstAbnormal ≤ i → intervals[i]? = some interval →
      (i ∈ found.examined ↔ 0 < interval.exceeding) := by
    intro i interval hle hi
    rw [examined_foldlM hfound, nil_append, mem_map]
    have hmem : ∀ entry : Interval c × Nat, entry.2 = i →
        (entry ∈ (intervals.drop intervalFirstAbnormal).zipIdx intervalFirstAbnormal ↔
          entry.1 = interval) := by
      rintro ⟨interval', _⟩ rfl
      rw [mk_mem_zipIdx_iff_le_and_getElem?_sub, getElem?_drop,
        Nat.add_sub_of_le hle, hi, and_iff_right hle, Option.some.injEq]
      exact eq_comm
    constructor
    · rintro ⟨entry, hentry, hsnd⟩
      obtain ⟨hentry, hpos⟩ := mem_filter.mp hentry
      rw [← (hmem entry hsnd).mp hentry]
      exact of_decide_eq_true hpos
    · intro hpos
      exact ⟨(interval, i), mem_filter.mpr ⟨(hmem _ rfl).mpr rfl, decide_eq_true hpos⟩, rfl⟩
  refine forall_congr' fun i => forall_congr' fun interval => forall_congr' fun hle =>
    forall_congr' fun hi => ?_
  rw [hexamined i interval hle hi, exceeding_pos_iff (hnonneg _ (mem_of_getElem? hi))]
  by_cases hzero : interval.values.threshold = 0
  · rw [hzero]
    simp
  · simp [hzero]

def someSubnets (srcCount dstCount : BitVec 32) : List (Subnets 32) :=
  let addr := (Vector.replicate 4 0).set! 0 10
  [[(addr, ⟨0, 5⟩)], [(addr, ⟨srcCount, dstCount⟩)]]

def someValues (count : Nat) (threshold : Rat) : List CountThreshold :=
  [⟨0, 5, 10⟩, ⟨1, count, threshold⟩]

def someParams : Params := ⟨50, 10, 2⟩

theorem examined_iff_second :
    1 ∈ (⟨[#v[10, 0, 0, 0]], [1]⟩ : Found).examined ↔ (10 : Rat) < (30 : Nat) := by
  have hfound : analyzeFindAttackedSubnets someParams
      (intervalsOf (someSubnets 0 50) (someValues 30 10)) 0 1 = .ok ⟨[#v[10, 0, 0, 0]], [1]⟩ := by
    decide +kernel
  have hpositive : ∀ interval ∈ intervalsOf (someSubnets 0 50) (someValues 30 10),
      ¬ (interval.values.threshold = 0 ∧ 0 < interval.values.count) := by
    decide +kernel
  exact (examined_iff (by decide +kernel) hfound).mpr
    (fun _ _ _ hi => hpositive _ (mem_of_getElem? hi)) 1 _ (by decide) rfl

theorem zero_threshold_not_examined :
    (intervalsOf (someSubnets 0 50) (someValues 30 0)).findIdx? Interval.abnormal = some 1 ∧
      analyzeFindAttackedSubnets someParams (intervalsOf (someSubnets 0 50) (someValues 30 0)) 0 1 =
        .ok ⟨[], []⟩ := by
  decide +kernel

/-! ## The averages -/

theorem tally_eq (p : Params) (intervals : List (Interval c)) (t : Tally) :
    intervals.foldl (Tally.add p) t =
      ⟨t.normalIntervals + intervals.countP (! ·.abnormal),
        t.abnormalIntervals + intervals.countP (·.abnormal), t.activeSubnetsInNormalIntervals +
          ((intervals.filter (! ·.abnormal)).map (·.activeSubnets p)).sum,
        t.activeSubnetsInAbnormalIntervals +
          ((intervals.filter (·.abnormal)).map (·.activeSubnets p)).sum⟩ := by
  induction intervals generalizing t with
  | nil => rfl
  | cons i intervals ih =>
    rw [foldl_cons, ih, Tally.add]
    cases h : i.abnormal <;> simp [h] <;> omega

def Interval.Active (p : Params) (i : Interval c) : Prop :=
  ∃ subnet ∈ i.subnets, p.activeSubnetPackets.toNat < subnet.2.srcCount.toNat

section Distributed

variable {p : Params} {intervals : List (Interval c)} {n : Nat}

theorem exists_normal_abnormal (h : intervals.findIdx? Interval.abnormal = some (n + 1)) :
    (∃ i ∈ intervals.drop n, i.abnormal = false) ∧ (∃ i ∈ intervals.drop n, i.abnormal = true) ∧
      ∀ i ∈ intervals, i.abnormal = true → i ∈ intervals.drop n := by
  obtain ⟨hlt, habnormal, hbefore⟩ := findIdx?_eq_some_iff_getElem.mp h
  refine ⟨⟨intervals[n], ?_, ?_⟩, ⟨intervals[n + 1], ?_, habnormal⟩, fun i hi hi' => ?_⟩
  · exact mem_drop_iff_getElem.mpr ⟨0, by omega, by simp⟩
  · exact eq_false_of_ne_true (hbefore n (Nat.lt_succ_self n))
  · exact mem_drop_iff_getElem.mpr ⟨1, by omega, rfl⟩
  obtain ⟨j, hj, rfl⟩ := mem_iff_getElem.mp hi
  have hle : n ≤ j := by
    by_contra hlt
    exact hbefore j (by omega) hi'
  exact mem_drop_iff_getElem.mpr ⟨j - n, by omega, by simp [Nat.add_sub_of_le hle]⟩

def average (p : Params) (intervals : List (Interval c)) : Rat :=
  ((intervals.map (·.activeSubnets p)).sum : Nat) / (intervals.length : Nat)

def distributed (p : Params) (intervals : List (Interval c)) (n : Nat) : Bool :=
  decide (p.activeSubnetRelation * average p ((intervals.drop n).filter (! ·.abnormal)) ≤
    average p ((intervals.drop n).filter (·.abnormal)))

theorem analyzeIsDistributedAttack_eq (h : intervals.findIdx? Interval.abnormal = some (n + 1)) :
    analyzeIsDistributedAttack p intervals n = .ok (distributed p intervals n) := by
  obtain ⟨⟨i, hi, hnormal⟩, ⟨i', hi', habnormal⟩, -⟩ := exists_normal_abnormal h
  have hpos : 0 < (intervals.drop n).countP (! ·.abnormal) :=
    countP_pos_iff.mpr ⟨i, hi, by rw [hnormal]; rfl⟩
  have hpos' : 0 < (intervals.drop n).countP (·.abnormal) :=
    countP_pos_iff.mpr ⟨i', hi', habnormal⟩
  unfold analyzeIsDistributedAttack
  simp only [tally_eq, Nat.zero_add]
  rw [if_neg (by omega), countP_eq_length_filter, countP_eq_length_filter]
  rfl

end Distributed

/-! ## Thresholds that are not numbers -/

section Analyze

variable {p : Params} {subnets : List (Subnets c)} {values : List CountThreshold} {r : Report}

theorem analyze_eq_ok :
    analyze p subnets values = .ok r ↔ subnets.length ≤ values.length ∧
      ((∀ n, (intervalsOf subnets values).findIdx? Interval.abnormal ≠ some (n + 1)) ∧
          r = ⟨false, .noAbnormalIntervals, none⟩ ∨
        ∃ n found, (intervalsOf subnets values).findIdx? Interval.abnormal = some (n + 1) ∧
          analyzeFindAttackedSubnets p (intervalsOf subnets values) n (n + 1) = .ok found ∧
          r = report (distributed p (intervalsOf subnets values) n) found.attackedSubnets) := by
  unfold analyze
  by_cases hle : subnets.length ≤ values.length
  · rw [if_neg (Nat.not_lt_of_le hle), and_iff_right hle]
    rcases hfirst : (intervalsOf subnets values).findIdx? Interval.abnormal with _ | _ | n
    · simp [hfirst, eq_comm]
    · simp [hfirst, eq_comm]
    · simp [hfirst, analyzeIsDistributedAttack_eq hfirst, bind_eq_ok, eq_comm (a := r)]
  · rw [if_pos (Nat.lt_of_not_le hle)]
    exact iff_of_false nofun fun h => hle h.1

end Analyze

def SameSubnets (intervalSubnets : List (Subnets c)) : Prop :=
  ∃ keys, ∀ subnets ∈ intervalSubnets, subnets.map Prod.fst = keys

theorem compareSubnets_ok (p : Params) (threshExceeding : Rat) {normal cur : Subnets c}
    (h : normal.map fst = cur.map fst) (attackedSubnets : List IpAddr) :
    ∃ attacked, compareSubnets p threshExceeding normal cur attackedSubnets = .ok attacked := by
  induction normal generalizing cur attackedSubnets with
  | nil => exact ⟨attackedSubnets, by rw [compareSubnets]; simp⟩
  | cons subnet normal ih =>
    cases cur with
    | nil => cases h
    | cons subnet' cur =>
      obtain ⟨hkey, hrest⟩ := cons.inj h
      rw [compareSubnets, if_pos hkey]
      exact ih hrest _

theorem analyzeFindAttackedSubnets_ok (p : Params) {intervals : List (Interval c)}
    {keys : List IpAddr} (h : ∀ i ∈ intervals, i.subnets.map fst = keys) {n : Nat}
    (hn : n < intervals.length) (first : Nat) :
    ∃ found, analyzeFindAttackedSubnets p intervals n first = .ok found := by
  apply foldlM_progress
  intro before entry after found hsplit _
  have hmem : entry.1 ∈ intervals := by
    have hentry : entry ∈ (intervals.drop first).zipIdx first := by
      rw [hsplit]
      exact mem_append_right before mem_cons_self
    exact mem_of_mem_drop (fst_mem_of_mem_zipIdx hentry)
  have hsame : (intervals[n]?.elim [] Interval.subnets).map fst =
      entry.1.subnets.map fst := by
    rw [getElem?_eq_getElem hn]
    exact (h _ (getElem_mem hn)).trans (h _ hmem).symm
  obtain ⟨attacked, hok⟩ := compareSubnets_ok p entry.1.exceeding hsame found.attackedSubnets
  have hlength := congrArg length hsame
  rw [length_map, length_map] at hlength
  unfold examine
  rw [if_neg (not_not.mpr hlength), hok]
  split
  · exact ⟨_, rfl⟩
  · exact ⟨_, rfl⟩

theorem analyze_ok_iff {p : Params} {subnets : List (Subnets c)} {values : List CountThreshold}
    (hsame : SameSubnets subnets) :
    (∃ r, analyze p subnets values = .ok r) ↔ subnets.length ≤ values.length := by
  refine ⟨fun ⟨r, hok⟩ => (analyze_eq_ok.mp hok).1, fun hle => ?_⟩
  by_cases hfirst : ∃ n, (intervalsOf subnets values).findIdx? Interval.abnormal = some (n + 1)
  · obtain ⟨n, hfirst⟩ := hfirst
    obtain ⟨keys, hkeys⟩ := hsame
    obtain ⟨hlt, -, -⟩ := findIdx?_eq_some_iff_getElem.mp hfirst
    have hintervals : ∀ i ∈ intervalsOf subnets values, i.subnets.map fst = keys := by
      intro i hi
      obtain ⟨j, hj⟩ := mem_iff_getElem?.mp hi
      rw [intervalsOf, getElem?_zipWith_eq_some] at hj
      obtain ⟨tree, value, htree, -, rfl⟩ := hj
      exact hkeys tree (mem_of_getElem? htree)
    obtain ⟨found, hfound⟩ :=
      analyzeFindAttackedSubnets_ok p hintervals (Nat.lt_of_succ_lt hlt) (n + 1)
    exact ⟨_, analyze_eq_ok.mpr ⟨hle, .inr ⟨n, found, hfirst, hfound, rfl⟩⟩⟩
  · exact ⟨_, analyze_eq_ok.mpr ⟨hle, .inl ⟨not_exists.mp hfirst, rfl⟩⟩⟩

/-! ## Messages in any order -/

inductive Message (c : Nat)
  | addressDistribution (subnets : List (Subnets c))
  | lastSuspiciousAggregate (aggregate : Option Aggregate)
  | aggregateIntervalValues (values : List CountThreshold)
  | anomalyTypeRequest
  /-- a request that other modules answer, or an answer to one of its own -/
  | other

inductive Sent
  | aggregateIntervalValuesRequest (aggregate : Option Aggregate)
  | anomalyType (type : AnomalyType)
  | alert (raiseLevel : Bool) (alertMsg : AlertMsg)

/-- `ModuleAnalyzerAddressSpace`.  There are subnets and values if `m_haveSubnetTree` and
`m_haveIntervalValues` are true. -/
structure Analyzer (c : Nat) where
  haveAggregate : Bool
  suspiciousAggregate : Option Aggregate
  intervalSubnets : Option (List (Subnets c))
  intervalValues : Option (List CountThreshold)
  lastAnomalyType : AnomalyType

namespace Analyzer

/-- The constructor; it leaves the last anomaly as it is in memory. -/
def new (lastAnomalyType : AnomalyType) : Analyzer c :=
  ⟨false, none, none, none, lastAnomalyType⟩

def handle (z : Analyzer c) : Message c → Except Stop (Analyzer c × List Sent)
  | .addressDistribution subnets => .ok ({ z with intervalSubnets := some subnets }, [])
  | .lastSuspiciousAggregate aggregate =>
      if z.haveAggregate || aggregate.isSome then
        .ok ({ z with haveAggregate := true, suspiciousAggregate := aggregate },
          [.aggregateIntervalValuesRequest aggregate])
      else .error .noAggregate
  | .aggregateIntervalValues values => .ok ({ z with intervalValues := some values }, [])
  | .anomalyTypeRequest => .ok (z, [.anomalyType z.lastAnomalyType])
  | .other => .ok (z, [])

def react (p : Params) (z : Analyzer c) : Except Stop (Analyzer c × List Sent) :=
  match z.haveAggregate, z.intervalSubnets, z.intervalValues with
  | true, some subnets, some values => do
      let r ← analyze p subnets values
      .ok ({ z with lastAnomalyType := r.lastAnomalyType.getD z.lastAnomalyType },
        [.alert r.raiseLevel r.alertMsg])
  | _, _, _ => .ok (z, [])

def receiveMessage (p : Params) (z : Analyzer c) (msg : Message c) :
    Except Stop (Analyzer c × List Sent) := do
  let (z, sent) ← z.handle msg
  let (z, alerts) ← z.react p
  .ok (z, sent ++ alerts)

def run (p : Params) (z : Analyzer c) (messages : List (Message c)) : Except Stop (Analyzer c) :=
  messages.foldlM (fun z msg => z.receiveMessage p msg >>= fun next => .ok next.1) z

end Analyzer

section Messages

def Named (messages : List (Message c)) : Prop :=
  ∃ aggregate, .lastSuspiciousAggregate (some aggregate) ∈ messages

def lastSubnets (messages : List (Message c)) : Option (List (Subnets c)) :=
  messages.foldl (fun last msg => match msg with
    | .addressDistribution subnets => some subnets
    | _ => last) none

def lastValues (messages : List (Message c)) : Option (List CountThreshold) :=
  messages.foldl (fun last msg => match msg with
    | .aggregateIntervalValues values => some values
    | _ => last) none

/-- After `before`, the message may come: it names an aggregate if none has been named, and if
everything is there then there is a value for each interval. -/
def Admissible (before : List (Message c)) (msg : Message c) : Prop :=
  (msg = .lastSuspiciousAggregate none → Named before) ∧
    ∀ subnets values, Named (before ++ [msg]) → lastSubnets (before ++ [msg]) = some subnets →
      lastValues (before ++ [msg]) = some values → subnets.length ≤ values.length

structure Knows (messages : List (Message c)) (z : Analyzer c) : Prop where
  named : z.haveAggregate = true ↔ Named messages
  subnets : z.intervalSubnets = lastSubnets messages
  values : z.intervalValues = lastValues messages

variable {p : Params} {before : List (Message c)} {msg : Message c} {z z' : Analyzer c}
  {sent : List Sent}

theorem named_concat :
    Named (before ++ [msg]) ↔
      Named before ∨ ∃ aggregate, msg = .lastSuspiciousAggregate (some aggregate) := by
  simp [Named, exists_or, eq_comm]

variable (h : Knows before z)

include h

theorem Knows.handle (hok : z.handle msg = .ok (z', sent)) : Knows (before ++ [msg]) z' := by
  have hnamed := h.named
  have hsubnets := h.subnets
  have hvalues := h.values
  cases msg with
  | lastSuspiciousAggregate aggregate =>
    rw [Analyzer.handle] at hok
    split_ifs at hok with hand
    obtain ⟨rfl, rfl⟩ := mk.inj (Except.ok.inj hok)
    refine ⟨iff_of_true rfl (named_concat.mpr ?_), ?_, ?_⟩
    · rcases Bool.or_eq_true_iff.mp hand with hbefore | hsome
      · exact .inl (hnamed.mp hbefore)
      · obtain ⟨aggregate, rfl⟩ := Option.isSome_iff_exists.mp hsome
        exact .inr ⟨aggregate, rfl⟩
    · rw [lastSubnets, foldl_append]
      exact hsubnets
    · rw [lastValues, foldl_append]
      exact hvalues
  | addressDistribution subnets | aggregateIntervalValues values | anomalyTypeRequest | other =>
    obtain ⟨rfl, rfl⟩ := mk.inj (Except.ok.inj hok)
    refine ⟨?_, ?_, ?_⟩
    · rw [named_concat]
      simpa using hnamed
    · rw [lastSubnets, foldl_append]
      first | exact hsubnets | rfl
    · rw [lastValues, foldl_append]
      first | exact hvalues | rfl

theorem Knows.handle_ok_iff :
    (∃ z' sent, z.handle msg = .ok (z', sent)) ↔
      (msg = .lastSuspiciousAggregate none → Named before) := by
  cases msg with
  | lastSuspiciousAggregate aggregate =>
    rw [Analyzer.handle, ← h.named]
    cases aggregate <;> cases z.haveAggregate <;> simp
  | addressDistribution subnets | aggregateIntervalValues values | anomalyTypeRequest | other =>
    exact iff_of_true ⟨_, _, rfl⟩ (fun heq => by cases heq)

theorem Knows.react (hok : z.react p = .ok (z', sent)) : Knows before z' := by
  unfold Analyzer.react at hok
  split at hok
  · obtain ⟨r, -, hok⟩ := bind_eq_ok.mp hok
    obtain ⟨rfl, -⟩ := mk.inj (Except.ok.inj hok)
    exact ⟨h.named, h.subnets, h.values⟩
  · obtain ⟨rfl, -⟩ := mk.inj (Except.ok.inj hok)
    exact h

theorem Knows.react_ok_iff
    (hsame : ∀ subnets, lastSubnets before = some subnets → SameSubnets subnets) :
    (∃ z' sent, z.react p = .ok (z', sent)) ↔
      ∀ subnets values, Named before → lastSubnets before = some subnets →
        lastValues before = some values → subnets.length ≤ values.length := by
  rw [← h.named, ← h.subnets, ← h.values]
  rw [← h.subnets] at hsame
  unfold Analyzer.react
  split
  · rename_i subnets values hnamed hsubnets hvalues
    have hanalyze : (∃ z' sent, (analyze p subnets values >>= fun r =>
        .ok ({ z with lastAnomalyType := r.lastAnomalyType.getD z.lastAnomalyType },
          [Sent.alert r.raiseLevel r.alertMsg])) = .ok (z', sent)) ↔
        ∃ r, analyze p subnets values = .ok r := by
      simp [bind_eq_ok]
    rw [hanalyze, analyze_ok_iff (hsame subnets hsubnets), hnamed, hsubnets, hvalues]
    simp
  · rename_i hnot
    refine iff_of_true ⟨_, _, rfl⟩ fun subnets values hnamed hsubnets hvalues => ?_
    exact absurd hvalues (hnot subnets values hnamed hsubnets)

omit h in
theorem receiveMessage_eq_ok :
    (z.receiveMessage p msg >>= fun next => .ok next.1) = .ok z' ↔
      ∃ z₁ sent alerts, z.handle msg = .ok (z₁, sent) ∧ z₁.react p = .ok (z', alerts) := by
  simp [Analyzer.receiveMessage, bind_eq_ok]

theorem Knows.receiveMessage_ok_iff
    (hsame : ∀ subnets, lastSubnets (before ++ [msg]) = some subnets → SameSubnets subnets) :
    (∃ z', (z.receiveMessage p msg >>= fun next => .ok next.1) = .ok z') ↔
      Admissible before msg := by
  constructor
  · rintro ⟨z', hok⟩
    obtain ⟨z₁, sent, alerts, hhandle, hreact⟩ := receiveMessage_eq_ok.mp hok
    exact ⟨h.handle_ok_iff.mp ⟨z₁, sent, hhandle⟩,
      ((h.handle hhandle).react_ok_iff hsame).mp ⟨z', alerts, hreact⟩⟩
  · rintro ⟨hnamed, hle⟩
    obtain ⟨z₁, sent, hhandle⟩ := h.handle_ok_iff.mpr hnamed
    obtain ⟨z', alerts, hreact⟩ := ((h.handle hhandle).react_ok_iff hsame).mpr hle
    exact ⟨z', receiveMessage_eq_ok.mpr ⟨z₁, sent, alerts, hhandle, hreact⟩⟩

omit h

variable {messages : List (Message c)} {type : AnomalyType}

theorem run_knows (h : Analyzer.run p (.new type) messages = .ok z) : Knows messages z := by
  induction messages using reverseRecOn generalizing z with
  | nil =>
    obtain rfl := Except.ok.inj h
    exact ⟨by simp [Named, Analyzer.new], rfl, rfl⟩
  | append_singleton messages msg ih =>
    obtain ⟨z₀, hbefore, hlast⟩ := foldlM_concat_eq_ok.mp h
    obtain ⟨z₁, sent, alerts, hhandle, hreact⟩ := receiveMessage_eq_ok.mp hlast
    exact ((ih hbefore).handle hhandle).react hreact

theorem lastSubnets_mem {subnets : List (Subnets c)} (h : lastSubnets messages = some subnets) :
    .addressDistribution subnets ∈ messages := by
  induction messages using reverseRecOn with
  | nil => cases h
  | append_singleton messages msg ih =>
    rw [lastSubnets, foldl_append, ← lastSubnets] at h
    cases msg with
    | addressDistribution subnets' =>
      obtain rfl := Option.some.inj h
      exact mem_append_right messages mem_cons_self
    | lastSuspiciousAggregate _ | aggregateIntervalValues _ | anomalyTypeRequest | other =>
      exact mem_append_left _ (ih h)

end Messages

/-- If the histories that are sent have the same subnets in all intervals, no assertion fails if
and only if every message is admissible. -/
theorem run_ok_iff (p : Params) (type : AnomalyType) {messages : List (Message c)}
    (hsame : ∀ subnets, .addressDistribution subnets ∈ messages → SameSubnets subnets) :
    (∃ z, Analyzer.run p (.new type) messages = .ok z) ↔
      ∀ before msg, before ++ [msg] <+: messages → Admissible before msg := by
  induction messages using reverseRecOn with
  | nil => exact iff_of_true ⟨_, rfl⟩ forall_prefix_nil
  | append_singleton messages msg ih =>
    have hbefore := ih fun subnets hmem => hsame subnets (mem_append_left _ hmem)
    have hlast : ∀ subnets, lastSubnets (messages ++ [msg]) = some subnets →
        SameSubnets subnets := fun subnets h => hsame subnets (lastSubnets_mem h)
    rw [forall_prefix_concat, ← hbefore]
    constructor
    · rintro ⟨z, hok⟩
      obtain ⟨z₀, hrun, hstep⟩ := foldlM_concat_eq_ok.mp hok
      exact ⟨⟨z₀, hrun⟩, ((run_knows hrun).receiveMessage_ok_iff hlast).mp ⟨z, hstep⟩⟩
    · rintro ⟨⟨z₀, hrun⟩, hmsg⟩
      obtain ⟨z, hstep⟩ := ((run_knows hrun).receiveMessage_ok_iff hlast).mpr hmsg
      exact ⟨z, foldlM_concat_eq_ok.mpr ⟨z₀, hrun, hstep⟩⟩

theorem run_ok_iff_named :
    ∃ z, Analyzer.run someParams (.new .unknown)
      ([] ++ [.lastSuspiciousAggregate (some (.protocol .tcp))] : List (Message 32)) = .ok z := by
  refine (run_ok_iff someParams .unknown ?_).mpr ?_
  · intro subnets hmem
    cases mem_singleton.mp hmem
  · refine forall_prefix_concat.mpr ⟨forall_prefix_nil, ?_, ?_⟩
    · intro heq
      cases heq
    · intro subnets values _ hsubnets
      cases hsubnets

/-- Without a suspicious aggregate the answer stops the analyzer, and so do the values of an
empty history. -/
theorem answers_stop :
    Analyzer.run someParams (.new .unknown)
        ([.lastSuspiciousAggregate none] : List (Message 32)) = .error .noAggregate ∧
      Analyzer.run someParams (.new .unknown) [.addressDistribution (someSubnets 0 5),
        .lastSuspiciousAggregate (some (.protocol .tcp)),
        .aggregateIntervalValues ((⟨1, [], 0⟩ : AttackDetection.AggregateThreshold)
          |>.handleRequestValuesMsg (some (.protocol .tcp)))] = .error .tooFewValues :=
  ⟨rfl, rfl⟩

end WormsAttack.Distack.Analysis
