/-
  Do distributions and counts belong to the same interval?

  Interval `k` is the time between the timer messages number `k` and `k + 1` of the configured
  timer.
-/
import Mathlib.Data.List.Nodup
import Mathlib.Data.List.Perm.Subperm
import WormsAttack.Distack.AttackDetection

namespace WormsAttack.Distack.AttackDetection

open Foundation List

/-! ## What an answer is about -/

/-- The interval of the distribution that timer message `opened` has opened: that message and the
next one are from the configured timer. -/
def coveredInterval (timerModule : String) (timers : List String) (opened : Nat) : Option Nat :=
  if timers[opened]? = some timerModule ∧
      (timers[opened + 1]? = none ∨ timers[opened + 1]? = some timerModule) then
    some ((timers.take (opened + 1)).count timerModule)
  else none

def Analyzer.Aligned (timerModule : String) (z : Analyzer) : Prop :=
  ∀ (i : Nat) (distribution : Distribution), z.intervalSubnets[i]? = some distribution →
    ∃ values, z.intervalValues[i]? = some values ∧
      coveredInterval timerModule z.subnetsAt distribution.opened = some values.interval

def window (n total : Nat) : List Nat := List.range' (total - n) (min total n)

@[simp]
theorem length_window (n total : Nat) : (window n total).length = min total n :=
  length_range'

variable {n total : Nat} {timerModule : String} {timers : List String}

theorem window_push (hn : 1 ≤ n) (total : Nat) :
    (if n ≤ total then (window n total).drop 1 else window n total) ++ [total] =
      window n (total + 1) := by
  obtain ⟨m, rfl⟩ := Nat.exists_eq_add_of_le' hn
  unfold window
  split_ifs with hfull
  · obtain ⟨rest, rfl⟩ := Nat.exists_eq_add_of_le' hfull
    have hnow : rest + (m + 1) - (m + 1) = rest := by omega
    have hnext : rest + (m + 1) + 1 - (m + 1) = rest + 1 := by omega
    have hmin : min (rest + (m + 1)) (m + 1) = m + 1 := by omega
    have hmin' : min (rest + (m + 1) + 1) (m + 1) = m + 1 := by omega
    have hlast : rest + (m + 1) = rest + 1 + m := by omega
    rw [hnow, hnext, hmin, hmin', range'_succ, drop_one, tail_cons, range'_1_concat, hlast]
  · have hnow : total - (m + 1) = 0 := by omega
    have hnext : total + 1 - (m + 1) = 0 := by omega
    have hmin : min total (m + 1) = total := by omega
    have hmin' : min (total + 1) (m + 1) = total + 1 := by omega
    rw [hnow, hnext, hmin, hmin', range'_1_concat, Nat.zero_add]

theorem getElem?_window {i k : Nat} :
    (window n total)[i]? = some k ↔ i < min total n ∧ k = total - n + i := by
  unfold window
  constructor
  · intro h
    obtain ⟨hlt, heq⟩ := List.getElem?_eq_some_iff.mp h
    rw [length_range'] at hlt
    rw [getElem_range', Nat.one_mul] at heq
    exact ⟨hlt, heq.symm⟩
  · rintro ⟨hlt, rfl⟩
    rw [getElem?_range' hlt, Nat.one_mul]

/-! ## What the modules keep -/

def IntervalItems.Once (values : IntervalItems) : Prop :=
  (values.infos.map AggregateInfo.aggregate).Nodup

def Message.values? : Message → Option IntervalItems
  | .aggregateWatchValues values => some values
  | _ => none

def SubnetsOf (n : Nat) (subnets : List Distribution) (timers : List String) : Prop :=
  subnets.map Distribution.opened = window n timers.length

/-- An answer with counts is about some of the last intervals, one count for each. -/
def ValuesOf (n : Nat) (values : List CountThreshold) (handled : Nat) : Prop :=
  (values.map CountThreshold.interval).Sublist (window n handled)

def Message.Answers (n : Nat) : Message → Prop
  | .addressDistribution subnets timers => SubnetsOf n subnets timers
  | .aggregateIntervalValues values handled => ValuesOf n values handled
  | _ => True

structure Analyzer.Answered (n : Nat) (z : Analyzer) : Prop where
  subnets : z.haveSubnetTree = true → SubnetsOf n z.intervalSubnets z.subnetsAt
  values : z.haveIntervalValues = true → ValuesOf n z.intervalValues z.valuesAt

structure Kept (setup : Setup) (s : System) : Prop where
  timerModule : s.watch.timerModule = setup.timerModule
  lengths : s.addressSpace.historyLength = setup.historyLength ∧
    s.thresholds.historyLength = setup.historyLength
  protocols : (s.watch.protocolCountMap.map Prod.fst).Nodup
  sizes : (s.watch.sizeCountMap.map Prod.fst).Nodup
  subnets : SubnetsOf setup.historyLength s.addressSpace.addressDistributions s.addressSpace.timers
  intervals : s.thresholds.intervals.map IntervalItems.interval =
    window setup.historyLength s.thresholds.handled
  waiting : List.range s.thresholds.handled ++
    (s.queue.filterMap Message.values?).map IntervalItems.interval = List.range s.watch.reported
  once : ∀ values, values ∈ s.thresholds.intervals ∨ .aggregateWatchValues values ∈ s.queue →
    values.Once
  answers : ∀ msg ∈ s.queue, msg.Answers setup.historyLength
  analyzer : ∀ z, s.analyzer = some z → z.Answered setup.historyLength

theorem kept_initial (setup : Setup) : Kept setup (.initial setup) where
  timerModule := rfl
  lengths := ⟨rfl, rfl⟩
  protocols := nodup_nil
  sizes := by
    have hkeys : (System.initial setup).watch.sizeCountMap.map Prod.fst = setup.ranges := by
      simp [System.initial, Function.comp_def]
    rw [hkeys]
    exact setup.nodup
  subnets := by simp [SubnetsOf, System.initial, window]
  intervals := by simp [System.initial, window]
  waiting := rfl
  once := by
    intro values hvalues
    simp [System.initial] at hvalues
  answers := by
    intro msg hmsg
    simp [System.initial] at hmsg
  analyzer := nofun

/-! ## Frames -/

theorem fst_countPacket (params : WatchParams) (items : List (Protocol × WatchItem))
    (protocol : Protocol) (h : (items.map Prod.fst).Nodup) :
    ((countPacket params items protocol).map Prod.fst).Nodup := by
  unfold countPacket
  split_ifs with hnone hmem
  · exact h
  · have hkeys : (items.map fun entry =>
        if entry.1 = protocol then (entry.1, increment entry.2) else entry).map Prod.fst =
        items.map Prod.fst := by
      rw [map_map]
      refine map_congr_left fun entry _ => ?_
      simp only [Function.comp_apply]
      split_ifs <;> rfl
    rw [hkeys]
    exact h
  · rw [map_append]
    exact nodup_append.mpr ⟨h, nodup_singleton _, fun a ha b hb heq => by
      obtain rfl := mem_singleton.mp hb
      exact hmem (heq ▸ ha)⟩

theorem fst_frameCall {w : AggregateWatch} (frame : Frame)
    (hprotocols : (w.protocolCountMap.map Prod.fst).Nodup)
    (hsizes : (w.sizeCountMap.map Prod.fst).Nodup) :
    ((w.frameCall frame).protocolCountMap.map Prod.fst).Nodup ∧
      ((w.frameCall frame).sizeCountMap.map Prod.fst).Nodup := by
  unfold AggregateWatch.frameCall
  split_ifs with hempty
  · exact ⟨hprotocols, hsizes⟩
  constructor
  · exact foldlRecOn frame.packets (countPacket w.params) hprotocols
      fun items hitems protocol _ => fst_countPacket w.params items protocol hitems
  · have hkeys : (w.sizeCountMap.map fun entry =>
        if entry.1.1 ≤ frame.size ∧ frame.size ≤ entry.1.2 then (entry.1, increment entry.2)
        else entry).map Prod.fst = w.sizeCountMap.map Prod.fst := by
      rw [map_map]
      refine map_congr_left fun entry _ => ?_
      simp only [Function.comp_apply]
      split_ifs <;> rfl
    rw [hkeys]
    exact hsizes

theorem AggregateWatch.once_handleTimerMsg {w : AggregateWatch}
    (hprotocols : (w.protocolCountMap.map Prod.fst).Nodup)
    (hsizes : (w.sizeCountMap.map Prod.fst).Nodup) : w.handleTimerMsg.1.Once := by
  have hkeys : w.handleTimerMsg.1.infos.map AggregateInfo.aggregate =
      (w.protocolCountMap.map Prod.fst).map .protocol ++
        (w.sizeCountMap.map Prod.fst).map fun range => .size range.1 range.2 := by
    simp [AggregateWatch.handleTimerMsg, AggregateWatch.items, Function.comp_def]
  unfold IntervalItems.Once
  rw [hkeys]
  refine nodup_append.mpr ⟨hprotocols.map ?_, hsizes.map ?_, ?_⟩
  · intro a b hab
    exact Aggregate.protocol.inj hab
  · intro a b hab
    exact Prod.ext (Aggregate.size.inj hab).1 (Aggregate.size.inj hab).2
  · intro a ha b hb hab
    obtain ⟨protocol, -, rfl⟩ := mem_map.mp ha
    obtain ⟨range, -, rfl⟩ := mem_map.mp hb
    exact Aggregate.noConfusion hab

/-! ## Answers -/

theorem AggregateThreshold.interval_matching {values : IntervalItems} (h : values.Once)
    (aggregate : Option Aggregate) :
    ((matching aggregate values).map CountThreshold.interval).Sublist [values.interval] := by
  unfold matching
  obtain ⟨interval, infos⟩ := values
  induction infos with
  | nil => exact nil_sublist _
  | cons info infos ih =>
    obtain ⟨hnew, hrest⟩ := nodup_cons.mp h
    by_cases hinfo : some info.aggregate = aggregate
    · -- no later one has the same name
      have hnone : infos.filter (fun other => some other.aggregate = aggregate) = [] := by
        refine filter_eq_nil_iff.mpr fun other hother hsame => ?_
        have heq : other.aggregate = info.aggregate := by
          simpa [← hinfo] using hsame
        exact hnew (heq ▸ mem_map_of_mem hother)
      simp [hinfo, hnone]
    · simpa [hinfo] using ih hrest

theorem AggregateThreshold.interval_handleRequestValuesMsg {b : AggregateThreshold}
    (h : ∀ values ∈ b.intervals, values.Once) (aggregate : Option Aggregate) :
    ((b.handleRequestValuesMsg aggregate).map CountThreshold.interval).Sublist
      (b.intervals.map IntervalItems.interval) := by
  unfold handleRequestValuesMsg
  generalize b.intervals = intervals at h ⊢
  induction intervals with
  | nil => exact List.Sublist.refl _
  | cons values intervals ih =>
    rw [flatMap_cons, map_append, map_cons]
    exact (interval_matching (h values mem_cons_self) aggregate).append
      (ih fun other hother => h other (mem_cons_of_mem _ hother))

/-! ## Steps -/

namespace Kept

variable {setup : Setup} {s : System} {msg : Message} {queue : List Message} (hk : Kept setup s)

include hk

theorem drop (hqueue : s.queue = msg :: queue) (hmsg : msg.values? = none) :
    Kept setup { s with queue := queue } :=
  { hk with
    waiting := by
      have h := hk.waiting
      rw [hqueue, filterMap_cons_none hmsg] at h
      exact h
    once := by
      intro values hvalues
      refine hk.once values (hvalues.imp_right fun h => ?_)
      rw [hqueue]
      exact mem_cons_of_mem _ h
    answers := by
      intro msg hmsg
      refine hk.answers msg ?_
      rw [hqueue]
      exact mem_cons_of_mem _ hmsg }

theorem send (hmsg : msg.values? = none) (hanswers : msg.Answers setup.historyLength) :
    Kept setup { s with queue := s.queue ++ [msg] } :=
  { hk with
    waiting := by
      have h := hk.waiting
      rw [filterMap_append, filterMap_cons_none hmsg, filterMap_nil,
        append_nil]
      exact h
    once := by
      rintro values (hvalues | hvalues)
      · exact hk.once values (.inl hvalues)
      rcases mem_append.mp hvalues with hold | hnew
      · exact hk.once values (.inr hold)
      · rw [← mem_singleton.mp hnew] at hmsg
        cases hmsg
    answers := by
      intro other hother
      rcases mem_append.mp hother with hold | hnew
      · exact hk.answers other hold
      · rw [mem_singleton.mp hnew]
        exact hanswers }

theorem withAnalyzer {analyzer : Option Analyzer}
    (hanalyzer : ∀ z, analyzer = some z → z.Answered setup.historyLength) :
    Kept setup { s with analyzer := analyzer } :=
  { hk with analyzer := hanalyzer }

theorem watched (frame : Frame) : Kept setup { s with watch := s.watch.frameCall frame } := by
  obtain ⟨hprotocols, hsizes⟩ := fst_frameCall frame hk.protocols hk.sizes
  have hsame : (s.watch.frameCall frame).timerModule = s.watch.timerModule ∧
      (s.watch.frameCall frame).reported = s.watch.reported := by
    unfold AggregateWatch.frameCall
    split_ifs <;> exact ⟨rfl, rfl⟩
  exact
    { hk with
      timerModule := hsame.1.trans hk.timerModule
      protocols := hprotocols
      sizes := hsizes
      waiting := by
        rw [hsame.2]
        exact hk.waiting }

theorem collected (frame : Frame) :
    Kept setup { s with addressSpace := s.addressSpace.frameCall frame } := by
  have hsame : (s.addressSpace.frameCall frame).historyLength = s.addressSpace.historyLength ∧
      (s.addressSpace.frameCall frame).timers = s.addressSpace.timers ∧
      (s.addressSpace.frameCall frame).addressDistributions.map Distribution.opened =
        s.addressSpace.addressDistributions.map Distribution.opened := by
    unfold AddressSpace.frameCall
    split
    next => exact ⟨rfl, rfl, rfl⟩
    next => exact ⟨rfl, rfl, rfl⟩
    next pair current _ hcurrent =>
      obtain ⟨older, hsplit⟩ := getLast?_eq_some_iff.mp hcurrent
      simp [hsplit]
  obtain ⟨hlength, htimers, hopened⟩ := hsame
  exact
    { hk with
      lengths := ⟨hlength.trans hk.lengths.1, hk.lengths.2⟩
      subnets := by
        unfold SubnetsOf
        rw [htimers, hopened]
        exact hk.subnets }

theorem opened (name : String) :
    Kept setup { s with addressSpace := s.addressSpace.handleTimerMsg name } :=
  { hk with
    subnets := by
      have hlength : s.addressSpace.addressDistributions.length =
          min s.addressSpace.timers.length setup.historyLength := by
        rw [← length_map Distribution.opened, hk.subnets, length_window]
      have hfull : s.addressSpace.addressDistributions.length = s.addressSpace.historyLength ↔
          setup.historyLength ≤ s.addressSpace.timers.length := by
        rw [hlength, hk.lengths.1]
        omega
      unfold SubnetsOf AddressSpace.handleTimerMsg
      simp only [hfull, map_append, length_append, length_singleton, apply_ite,
        map_drop, map_cons, map_nil]
      rw [hk.subnets]
      exact window_push setup.positive _ }

theorem reported :
    Kept setup { s with
      watch := s.watch.handleTimerMsg.2
      queue := s.queue ++ [.aggregateWatchValues s.watch.handleTimerMsg.1] } :=
  { hk with
    protocols := by
      have hkeys : s.watch.handleTimerMsg.2.protocolCountMap.map Prod.fst =
          s.watch.protocolCountMap.map Prod.fst := by
        simp [AggregateWatch.handleTimerMsg, Function.comp_def]
      rw [hkeys]
      exact hk.protocols
    sizes := by
      have hkeys : s.watch.handleTimerMsg.2.sizeCountMap.map Prod.fst =
          s.watch.sizeCountMap.map Prod.fst := by
        simp [AggregateWatch.handleTimerMsg, Function.comp_def]
      rw [hkeys]
      exact hk.sizes
    waiting := by
      change range s.thresholds.handled ++ ((s.queue ++
        [Message.aggregateWatchValues s.watch.handleTimerMsg.1]).filterMap Message.values?).map
          IntervalItems.interval = range (s.watch.reported + 1)
      rw [filterMap_append, map_append, ← append_assoc, hk.waiting,
        range_succ]
      rfl
    once := by
      rintro values (hvalues | hvalues)
      · exact hk.once values (.inl hvalues)
      rcases mem_append.mp hvalues with hold | hnew
      · exact hk.once values (.inr hold)
      · obtain rfl := Message.aggregateWatchValues.inj (mem_singleton.mp hnew)
        exact AggregateWatch.once_handleTimerMsg hk.protocols hk.sizes
    answers := by
      intro msg hmsg
      rcases mem_append.mp hmsg with hold | hnew
      · exact hk.answers msg hold
      · rw [mem_singleton.mp hnew]
        trivial }

theorem stored {values : IntervalItems} (hqueue : s.queue = .aggregateWatchValues values :: queue) :
    Kept setup { s with
      thresholds := s.thresholds.handleInputValuesMsg values
      queue := queue } := by
  have hwaiting := hk.waiting
  have hsome : Message.values? (.aggregateWatchValues values) = some values := rfl
  rw [hqueue, filterMap_cons_some hsome, map_cons] at hwaiting
  have hnumber : values.interval = s.thresholds.handled := by
    have hat := congrArg (fun numbers => numbers[s.thresholds.handled]?) hwaiting
    simp only [getElem?_append_right, length_range, Nat.le_refl, Nat.sub_self,
      getElem?_cons_zero] at hat
    obtain ⟨hlt, heq⟩ := List.getElem?_eq_some_iff.mp hat.symm
    rw [← heq, getElem_range]
  exact
    { hk with
      intervals := by
        have hlength : s.thresholds.intervals.length =
            min s.thresholds.handled setup.historyLength := by
          rw [← length_map IntervalItems.interval, hk.intervals, length_window]
        have hfull : s.thresholds.historyLength ≤ s.thresholds.intervals.length ↔
            setup.historyLength ≤ s.thresholds.handled := by
          rw [hlength, hk.lengths.2]
          omega
        unfold AggregateThreshold.handleInputValuesMsg
        simp only [hfull, map_append, apply_ite, map_drop, map_cons, map_nil]
        rw [hk.intervals, hnumber]
        exact window_push setup.positive _
      waiting := by
        change range (s.thresholds.handled + 1) ++ _ = _
        rw [range_succ, append_assoc, ← hwaiting, hnumber]
        rfl
      once := by
        have hhead : values.Once := hk.once values (.inr (hqueue ▸ mem_cons_self))
        rintro other (hother | hother)
        · rcases mem_append.mp hother with hold | hnew
          · refine hk.once other (.inl ?_)
            split_ifs at hold
            · exact mem_of_mem_drop hold
            · exact hold
          · rw [mem_singleton.mp hnew]
            exact hhead
        · exact hk.once other (.inr (hqueue ▸ mem_cons_of_mem _ hother))
      answers := fun msg hmsg => hk.answers msg (hqueue ▸ mem_cons_of_mem _ hmsg) }

theorem handle (hqueue : s.queue = msg :: queue) {s' : System}
    (hs : System.handle { s with queue := queue } msg = .ok s') : Kept setup s' := by
  have hanswers : msg.Answers setup.historyLength :=
    hk.answers msg (hqueue ▸ mem_cons_self)
  cases msg with
  | timer name =>
    have hopened := (hk.drop hqueue rfl).opened name
    simp only [System.handle] at hs
    split_ifs at hs with hname
    · cases hs
      exact hopened.reported
    · cases hs
      exact hopened
  | aggregateWatchValues values =>
    cases hs
    exact hk.stored hqueue
  | addressDistributionRequest =>
    cases hs
    exact (hk.drop hqueue rfl).send rfl hk.subnets
  | addressDistribution subnets timers =>
    cases hs
    refine (hk.drop hqueue rfl).withAnalyzer fun z hz => ?_
    obtain ⟨before, hbefore, rfl⟩ := Option.map_eq_some_iff.mp hz
    exact ⟨fun _ => hanswers, (hk.analyzer before hbefore).values⟩
  | lastSuspiciousRequest =>
    cases hs
    exact (hk.drop hqueue rfl).send rfl trivial
  | lastSuspicious aggregate =>
    simp only [System.handle] at hs
    split at hs
    next =>
      cases hs
      exact hk.drop hqueue rfl
    next z hz =>
      split_ifs at hs with hsome
      cases hs
      refine ((hk.drop hqueue rfl).withAnalyzer fun after hafter => ?_).send rfl trivial
      obtain rfl := Option.some.inj hafter
      exact ⟨(hk.analyzer z hz).subnets, (hk.analyzer z hz).values⟩
  | aggregateIntervalValuesRequest aggregate =>
    cases hs
    refine (hk.drop hqueue rfl).send rfl ?_
    have hsub := AggregateThreshold.interval_handleRequestValuesMsg
      (fun values hvalues => hk.once values (.inl hvalues)) aggregate
    rw [hk.intervals] at hsub
    exact hsub
  | aggregateIntervalValues values handled =>
    cases hs
    refine (hk.drop hqueue rfl).withAnalyzer fun z hz => ?_
    obtain ⟨before, hbefore, rfl⟩ := Option.map_eq_some_iff.mp hz
    exact ⟨(hk.analyzer before hbefore).subnets, fun _ => hanswers⟩

theorem step {e : System.Event} {out : Unit} {s' : System}
    (hs : System.step s e = .ok (s', out)) : Kept setup s' := by
  cases e with
  | watched frame =>
    cases hs
    exact hk.watched frame
  | collected frame =>
    cases hs
    exact hk.collected frame
  | timer name =>
    cases hs
    exact hk.send rfl trivial
  | load =>
    cases hs
    have hnew : ∀ z, some Analyzer.new = some z → z.Answered setup.historyLength := by
      intro z hz
      obtain rfl := Option.some.inj hz
      exact ⟨nofun, nofun⟩
    have hfirst : Kept setup { s with
        analyzer := some .new
        queue := s.queue ++ [.addressDistributionRequest] } :=
      (hk.withAnalyzer hnew).send rfl trivial
    have hboth : Kept setup { s with
        analyzer := some .new
        queue := s.queue ++ [.addressDistributionRequest] ++ [.lastSuspiciousRequest] } :=
      hfirst.send rfl trivial
    rw [append_assoc] at hboth
    exact hboth
  | deliver =>
    simp only [System.step] at hs
    split at hs
    next => cases hs
    next msg queue hqueue =>
      split at hs
      next => cases hs
      next after hafter =>
        cases hs
        exact hk.handle hqueue hafter

omit hk

theorem run {tr : List (Step System System.Event Unit)}
    (h : Run System.step (System.initial setup) tr s) : Kept setup s := by
  induction h with
  | start => exact kept_initial setup
  | next _ hstep ih => exact ih.step hstep

end Kept

/-! ## Which intervals are compared -/

theorem coveredInterval_eq_some {opened k : Nat} :
    coveredInterval timerModule timers opened = some k ↔
      timers[opened]? = some timerModule ∧
        (timers[opened + 1]? = none ∨ timers[opened + 1]? = some timerModule) ∧
        (timers.take (opened + 1)).count timerModule = k := by
  unfold coveredInterval
  split_ifs with h
  · exact ⟨fun heq => ⟨h.1, h.2, Option.some.inj heq⟩, fun heq => congrArg some heq.2.2⟩
  · simp only [false_iff]
    rintro ⟨hat, hnext, -⟩
    exact h ⟨hat, hnext⟩

theorem count_take_add {m : Nat} (h : ∀ name ∈ timers.drop m, name = timerModule) :
    (timers.take m).count timerModule + (timers.length - m) = timers.count timerModule := by
  have hdrop : (timers.drop m).count timerModule = timers.length - m := by
    rw [count_eq_length.mpr fun name hname => (h name hname).symm, length_drop]
  rw [← hdrop, ← count_append, take_append_drop]

theorem mem_drop_iff_window {P : String → Prop} :
    (∀ name ∈ timers.drop (timers.length - n), P name) ↔
      ∀ i < min timers.length n, ∃ name, timers[timers.length - n + i]? = some name ∧ P name := by
  constructor
  · intro h i hi
    have hlt : timers.length - n + i < timers.length := by omega
    refine ⟨_, getElem?_eq_getElem hlt, h _ ?_⟩
    refine mem_iff_getElem?.mpr ⟨i, ?_⟩
    rw [getElem?_drop, getElem?_eq_getElem hlt]
  · intro h name hname
    obtain ⟨i, hi⟩ := mem_iff_getElem?.mp hname
    rw [getElem?_drop] at hi
    have hlt := (List.getElem?_eq_some_iff.mp hi).1
    obtain ⟨other, hother, hP⟩ := h i (by omega)
    rw [hi] at hother
    exact Option.some.inj hother ▸ hP

theorem Analyzer.aligned_iff_index {z : Analyzer} (timerModule : String)
    (hsubnets : SubnetsOf n z.intervalSubnets z.subnetsAt)
    (hvalues : z.intervalValues.map CountThreshold.interval = window n z.valuesAt) :
    z.Aligned timerModule ↔ ∀ i < min z.subnetsAt.length n, i < min z.valuesAt n ∧
      coveredInterval timerModule z.subnetsAt (z.subnetsAt.length - n + i) =
        some (z.valuesAt - n + i) := by
  have hopened : ∀ i opened, (z.intervalSubnets.map Distribution.opened)[i]? = some opened ↔
      i < min z.subnetsAt.length n ∧ opened = z.subnetsAt.length - n + i := by
    intro i opened
    rw [hsubnets, getElem?_window]
  have hinterval : ∀ i k, (z.intervalValues.map CountThreshold.interval)[i]? = some k ↔
      i < min z.valuesAt n ∧ k = z.valuesAt - n + i := by
    intro i k
    rw [hvalues, getElem?_window]
  simp only [getElem?_map, Option.map_eq_some_iff] at hopened hinterval
  constructor
  · intro h i hi
    obtain ⟨distribution, hat, hnumber⟩ := (hopened i _).mpr ⟨hi, rfl⟩
    obtain ⟨values, hvalue, hcovered⟩ := h i distribution hat
    obtain ⟨hlt, hk⟩ := (hinterval i values.interval).mp ⟨values, hvalue, rfl⟩
    rw [hnumber, hk] at hcovered
    exact ⟨hlt, hcovered⟩
  · intro h i distribution hat
    obtain ⟨hi, hnumber⟩ := (hopened i distribution.opened).mp ⟨distribution, hat, rfl⟩
    obtain ⟨hlt, hcovered⟩ := h i hi
    obtain ⟨values, hvalue, hk⟩ := (hinterval i _).mpr ⟨hlt, rfl⟩
    refine ⟨values, hvalue, ?_⟩
    rw [hnumber, hcovered, hk]

/-- The answers belong together exactly if the collector of the address space had seen the
configured timer alone, and that of thresholds was one interval ahead. -/
theorem covered_window_iff (hn : 1 ≤ n) :
    (∀ i < min timers.length n, i < min total n ∧
        coveredInterval timerModule timers (timers.length - n + i) = some (total - n + i)) ↔
      timers = [] ∨ ((∀ name ∈ timers.drop (timers.length - n), name = timerModule) ∧
        total = n + 1 + (timers.count timerModule - min timers.length n)) := by
  simp only [coveredInterval_eq_some]
  constructor
  · intro h
    by_cases hempty : timers = []
    · exact .inl hempty
    have hpos : 0 < timers.length := length_pos_iff.mpr hempty
    have hall : ∀ name ∈ timers.drop (timers.length - n), name = timerModule :=
      mem_drop_iff_window.mpr fun i hi => ⟨timerModule, (h i hi).2.1, rfl⟩
    -- the last distribution is the one that is running
    have hlast := (h (min timers.length n - 1) (by omega)).2.2.2
    have hend : timers.length - n + (min timers.length n - 1) + 1 = timers.length := by omega
    rw [hend, take_length] at hlast
    have hcount := count_take_add hall
    exact .inr ⟨hall, by omega⟩
  · rintro (rfl | ⟨hall, htotal⟩) i hi
    · simp at hi
    have hcount := count_take_add hall
    have hat := mem_drop_iff_window.mp hall
    have hrest : ∀ name ∈ timers.drop (timers.length - n + i + 1), name = timerModule := by
      intro name hname
      refine hall name ?_
      rw [Nat.add_assoc, ← drop_drop] at hname
      exact mem_of_mem_drop hname
    have htake := count_take_add hrest
    obtain ⟨name, hname, rfl⟩ := hat i hi
    refine ⟨by omega, hname, ?_, by omega⟩
    by_cases hnext : i + 1 < min timers.length n
    · obtain ⟨next, hnext, heq⟩ := hat (i + 1) hnext
      exact .inr (heq ▸ hnext)
    · exact .inl (getElem?_eq_none (by omega))

theorem interval_eq_window {values : List CountThreshold} (h : ValuesOf n values total)
    (hall : ∀ k ∈ window n total, k ∈ values.map CountThreshold.interval) :
    values.map CountThreshold.interval = window n total := by
  refine h.eq_of_length_le ?_
  have hnodup : (window n total).Nodup := nodup_range'
  exact (hnodup.subperm hall).length_le

/-- The distributions and counts with the same index are of the same interval exactly if the
histories are from the configured timer and the collector of thresholds answered one interval
later. -/
theorem aligned_iff {setup : Setup} {tr : List (Step System System.Event Unit)} {s : System}
    (h : Run System.step (System.initial setup) tr s) {z : Analyzer} (hz : s.analyzer = some z)
    (hsubnets : z.haveSubnetTree = true) (hvalues : z.haveIntervalValues = true)
    (hreported : ∀ k ∈ window setup.historyLength z.valuesAt,
      k ∈ z.intervalValues.map CountThreshold.interval) :
    z.Aligned setup.timerModule ↔
      z.subnetsAt = [] ∨
        ((∀ name ∈ z.subnetsAt.drop (z.subnetsAt.length - setup.historyLength),
            name = setup.timerModule) ∧ z.valuesAt = setup.historyLength + 1 +
            (z.subnetsAt.count setup.timerModule -
              min z.subnetsAt.length setup.historyLength)) := by
  have hanswered := (Kept.run h).analyzer z hz
  rw [Analyzer.aligned_iff_index setup.timerModule (hanswered.subnets hsubnets)
    (interval_eq_window (hanswered.values hvalues) hreported)]
  exact covered_window_iff setup.positive

/-! ## Two runs -/

def watchAll : WatchParams :=
  { alphaAvg := 0, alphaDev := 0, alphaRed := 0, alphaLearn := 0, beta := 0
    exceedThreshold := 0, learningIntervals := 0 }

def lastInterval : Setup where
  historyLength := 1
  timerModule := "timer"
  params := watchAll
  ranges := []
  positive := Nat.le_refl 1
  nodup := List.nodup_nil

def icmpFrame : Frame where
  packets := [.ip, .icmp]
  size := 84
  addresses := some (0x0A000001, 0xC0A80001)

def firstAlert : List System.Event :=
  [.watched icmpFrame, .timer "timer", .load, .deliver]

/-- The analyzer compares the distribution of interval 1 with the count of interval 0. -/
theorem not_aligned_at_first_alert :
    ∃ tr s z, Run System.step (System.initial lastInterval) tr s ∧ s.analyzer = some z ∧
      z.haveSubnetTree = true ∧ z.haveIntervalValues = true ∧
      (∀ k ∈ window 1 z.valuesAt, k ∈ z.intervalValues.map CountThreshold.interval) ∧
      z.subnetsAt = ["timer"] ∧ ¬ z.Aligned "timer" := by
  have hrun : replays System.step (System.initial lastInterval)
      (firstAlert ++ replicate 7 .deliver) = true := by decide
  have hz : (replayState System.step (System.initial lastInterval)
      (firstAlert ++ replicate 7 .deliver)).analyzer =
      some ⟨true, true, true, [⟨0, []⟩], [⟨0, 1, 0⟩], ["timer"], 1⟩ := by decide
  refine ⟨_, _, _, run_of_replays hrun, hz, rfl, rfl, by decide, rfl, fun h => ?_⟩
  obtain ⟨values, hvalues, hcovered⟩ := h 0 ⟨0, []⟩ rfl
  obtain rfl := Option.some.inj hvalues
  exact absurd hcovered (by decide)

theorem aligned_iff_one_ahead :
    ∃ tr s z, Run System.step (System.initial lastInterval) tr s ∧ s.analyzer = some z ∧
      z.subnetsAt = ["timer"] ∧ z.valuesAt = 2 ∧
      (z.Aligned "timer" ↔ z.subnetsAt = [] ∨
          ((∀ name ∈ z.subnetsAt.drop (z.subnetsAt.length - 1), name = "timer") ∧
            z.valuesAt = 1 + 1 + (z.subnetsAt.count "timer" - min z.subnetsAt.length 1))) := by
  have hrun : replays System.step (System.initial lastInterval)
      (firstAlert ++ [.timer "timer"] ++ replicate 9 .deliver) = true := by decide
  have hz : (replayState System.step (System.initial lastInterval)
      (firstAlert ++ [.timer "timer"] ++ replicate 9 .deliver)).analyzer =
      some ⟨true, true, true, [⟨0, []⟩], [⟨1, 0, 0⟩], ["timer"], 2⟩ := by decide
  exact ⟨_, _, _, run_of_replays hrun, hz, rfl, rfl,
    aligned_iff (run_of_replays hrun) hz rfl rfl (by decide)⟩

end WormsAttack.Distack.AttackDetection
