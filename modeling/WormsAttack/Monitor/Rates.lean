/-
  The rates that a monitor measures.

  Source: ReaSE/src/applications/linkmonitor/LinkMonitor.cc, `processMessage` and
  `beginNewInterval`.

  The monitor of Handlers.lean with rates that are `Double`s, and with the bits next to it.

  NUMBERS.  Times are `Int` numbers of picoseconds.  The counters of an interval count ten
  packets at most.
-/
import Mathlib.Data.Int.CharZero
import WormsAttack.Foundation.Double
import WormsAttack.Monitor.Handlers

namespace WormsAttack.Monitor

open Foundation List LinkMonitor

def seconds (ticks : Int) : Rat := ticks / 10 ^ 12

def doubles : Doubles Double :=
  { perSec := fun count ticks => .finite count / .finite (seconds ticks)
    atLeast := fun rate n => rate.ge (.finite n)
    above := fun rate n => rate.ge (.finite n) && !(Double.finite n).ge rate }

structure Packet where
  t : Int
  name : String
  bitLength : Nat
  widths : Char → Nat

structure Meter where
  monitor : LinkMonitor Double
  intvlNumBits : Nat
  currentBitPerSec : Double

structure Interval where
  start : Int
  now : Int
  currentBitPerSec : Double
  rates : Rates Double

namespace Meter

def new (rates : Rates Double) (currentBitPerSec : Double) : Meter :=
  { monitor := .new rates, intvlNumBits := 0, currentBitPerSec := currentBitPerSec }

def closes (m : Meter) (t : Int) : Bool :=
  m.monitor.intvlNumPackets ≥ batchSize || t - m.monitor.intvlStartTime ≥ maxInterval

/-- `processMessage`; the interval that it closes, if it does, is put out. -/
def processMessage (link : Link) (m : Meter) (p : Packet) :
    Except Stop (Meter × Option Interval) :=
  let counted := m.monitor.countPacket doubles p.t p.name
  let monitor := (counted.updateDisplay doubles link p.widths).1
  if m.closes p.t then
    let currentBitPerSec :=
      .finite m.intvlNumBits / .finite (seconds (p.t - m.monitor.intvlStartTime))
    .ok
      ({ monitor, intvlNumBits := p.bitLength, currentBitPerSec },
        some { start := m.monitor.intvlStartTime, now := p.t, currentBitPerSec,
               rates := counted.rates })
  else
    .ok ({ m with monitor, intvlNumBits := m.intvlNumBits + p.bitLength }, none)

end Meter

variable {m m' : Meter} {p : Packet} {out : Option Interval} {t : Int} {link : Link}

theorem processMessage_monitor {ι : Type} {link : ι → Link} (a : ι) (triggered : Bool)
    (h : m.processMessage (link a) p = .ok (m', out)) :
    ∃ actions, handle doubles link a triggered m.monitor (.packet p.t p.name p.widths) =
      .ok (triggered, m'.monitor, actions) := by
  unfold Meter.processMessage at h
  split at h <;> cases h <;> exact ⟨_, rfl⟩

/-! ## One packet -/

structure Counters where
  intvlStartTime : Int
  intvlNumPackets : Nat
  benignNumPackets : Nat
  maliciousNumPackets : Nat

def counters (m : LinkMonitor Double) : Counters :=
  ⟨m.intvlStartTime, m.intvlNumPackets, m.benignNumPackets, m.maliciousNumPackets⟩

def Counters.count (c : Counters) (name : String) : Counters :=
  if LinkMonitor.isMalicious name then
    { c with
      intvlNumPackets := c.intvlNumPackets + 1
      maliciousNumPackets := c.maliciousNumPackets + 1 }
  else
    { c with
      intvlNumPackets := c.intvlNumPackets + 1
      benignNumPackets := c.benignNumPackets + 1 }

theorem counters_item (link : Link) (m : LinkMonitor Double) (c : Char) :
    counters (m.item doubles link c).1 = counters m := by
  unfold item checkLoad checkThreshold
  dsimp only
  repeat' split
  all_goals rfl

theorem counters_display (link : Link) (widths : Char → Nat) (format : List Char) (written : Nat)
    (m : LinkMonitor Double) :
    counters (display doubles link widths format written m).1 = counters m := by
  induction format generalizing written m with
  | nil => rfl
  | cons c format ih =>
    rw [display]
    split
    · exact (ih _ _).trans (counters_item link m c)
    · rfl

inductive Processed (m m' : Meter) (p : Packet) : Option Interval → Prop
  | closes (hcloses : m.closes p.t = true)
      (hcounters : counters m'.monitor = Counters.count ⟨p.t, 0, 0, 0⟩ p.name)
      (hbits : m'.intvlNumBits = p.bitLength) :
      Processed m m' p (some
        { start := m.monitor.intvlStartTime
          now := p.t
          currentBitPerSec :=
            .finite m.intvlNumBits / .finite (seconds (p.t - m.monitor.intvlStartTime))
          rates := (m.monitor.beginNewInterval doubles p.t).rates })
  | counts (hopen : m.closes p.t = false)
      (hcounters : counters m'.monitor = (counters m.monitor).count p.name)
      (hbits : m'.intvlNumBits = m.intvlNumBits + p.bitLength) : Processed m m' p none

theorem countPacket_closes (hcloses : m.closes t = true) (name : String) :
    counters (m.monitor.countPacket doubles t name) = Counters.count ⟨t, 0, 0, 0⟩ name ∧
      (m.monitor.countPacket doubles t name).rates =
        (m.monitor.beginNewInterval doubles t).rates := by
  unfold Meter.closes at hcloses
  unfold countPacket Counters.count
  dsimp only
  split <;> exact ⟨rfl, rfl⟩

theorem countPacket_counts (hopen : ¬ m.closes t = true) (name : String) :
    counters (m.monitor.countPacket doubles t name) = (counters m.monitor).count name := by
  unfold Meter.closes at hopen
  unfold countPacket Counters.count
  dsimp only
  split <;> rfl

theorem processMessage_processed (h : m.processMessage link p = .ok (m', out)) :
    Processed m m' p out := by
  unfold Meter.processMessage at h
  split_ifs at h with hcloses
  · cases h
    obtain ⟨hcounters, hrates⟩ := countPacket_closes hcloses p.name
    rw [hrates]
    exact .closes hcloses ((counters_display _ _ _ _ _).trans hcounters) rfl
  · cases h
    have hcounters := countPacket_counts hcloses p.name
    exact .counts (Bool.eq_false_iff.mpr hcloses) ((counters_display _ _ _ _ _).trans hcounters) rfl

/-! ## Histories -/

abbrev MeterStep := Step Meter Packet (Option Interval)

def begins (st : MeterStep) : Bool := st.out.isSome

def malicious (st : MeterStep) : Bool := LinkMonitor.isMalicious st.event.name

/-- When the current interval has begun; the first one begins at time 0. -/
def startTime : List MeterStep → Int
  | [] => 0
  | st :: tr => if begins st then st.event.t else startTime tr

def sinceStart : List MeterStep → List MeterStep
  | [] => []
  | st :: tr => if begins st then [st] else st :: sinceStart tr

structure Metered (tr : List MeterStep) (m : Meter) : Prop where
  start : m.monitor.intvlStartTime = startTime tr
  packets : m.monitor.intvlNumPackets = (sinceStart tr).length
  benign : m.monitor.benignNumPackets = (sinceStart tr).countP (!malicious ·)
  malicious : m.monitor.maliciousNumPackets = (sinceStart tr).countP malicious
  bits : m.intvlNumBits = ((sinceStart tr).map (·.event.bitLength)).sum
  full : (sinceStart tr).length ≤ batchSize

theorem metered_new (rates : Rates Double) (currentBitPerSec : Double) :
    Metered [] (.new rates currentBitPerSec) :=
  ⟨rfl, rfl, rfl, rfl, rfl, Nat.zero_le _⟩

variable {st : MeterStep} {tr earlier : List MeterStep}

theorem metered_count (counted : List MeterStep) (hsince : sinceStart tr = st :: counted)
    (hstart : startTime tr = t) (hcounters : counters m'.monitor = Counters.count
      ⟨t, counted.length, counted.countP (!malicious ·), counted.countP malicious⟩ st.event.name)
    (hbits : m'.intvlNumBits = (counted.map (·.event.bitLength)).sum + st.event.bitLength)
    (hfull : counted.length < batchSize) : Metered tr m' := by
  have hcount : counters m'.monitor = ⟨t, (sinceStart tr).length,
      (sinceStart tr).countP (!malicious ·), (sinceStart tr).countP malicious⟩ := by
    rw [hcounters, hsince, Counters.count, length_cons]
    split_ifs with hmalicious
    · have hyes : malicious st = true := hmalicious
      rw [countP_cons_of_neg (by simp [hyes]), countP_cons_of_pos hyes]
    · have hno : malicious st = false := Bool.eq_false_iff.mpr hmalicious
      rw [countP_cons_of_pos (by simp [hno]), countP_cons_of_neg (by simp [hno])]
  obtain ⟨h1, h2, h3, h4⟩ := Counters.mk.inj hcount
  refine ⟨h1.trans hstart.symm, h2, h3, h4, ?_, ?_⟩
  · rw [hbits, hsince, map_cons, sum_cons, Nat.add_comm]
  · rw [hsince]
    exact hfull

theorem metered_processed (h : Metered tr m) (hprocessed : Processed m m' p out) :
    Metered (⟨m, p, out⟩ :: tr) m' := by
  cases hprocessed with
  | closes _ hcounters hbits =>
    exact metered_count [] rfl rfl hcounters (by simpa using hbits) (by decide)
  | counts hopen hcounters hbits =>
    have hcloses := Bool.eq_false_iff.mp hopen
    have hfull : (sinceStart tr).length < batchSize := by
      rw [← h.packets]
      by_contra hge
      exact hcloses (by simp [Meter.closes, not_lt.mp hge])
    apply metered_count (sinceStart tr) rfl rfl ?_ ?_ hfull
    · rw [hcounters, counters, h.start, h.packets, h.benign, h.malicious]
      rfl
    · rw [hbits, h.bits]

theorem metered_run {rates : Rates Double} {currentBitPerSec : Double}
    (h : Run (Meter.processMessage link) (.new rates currentBitPerSec) tr m) : Metered tr m :=
  h.invariant (metered_new rates currentBitPerSec) fun _ _ _ _ _ hmetered hstep =>
    metered_processed hmetered (processMessage_processed hstep)

/-! ## Bursts -/

/-- Eleven packets at one time, the first of which begins an interval or is the first packet
at all, at time 0. -/
def Burst (tr : List MeterStep) : Prop :=
  ∃ later burst earlier t, tr = later ++ burst ++ earlier ∧ burst.length = 11 ∧
    (∀ st ∈ burst, st.event.t = t) ∧
    ((earlier = [] ∧ t = 0) ∨ ∃ first, burst.getLast? = some first ∧ begins first = true)

section Burst

variable {link : Link} {rates : Rates Double} {currentBitPerSec : Double} {m : Meter}

section

variable {later earlier : List MeterStep} {st : MeterStep}
  (h : Run (Meter.processMessage link) (.new rates currentBitPerSec) (later ++ st :: earlier) m)

include h

theorem processed_of_run :
    Metered earlier st.pre ∧ ∃ m', Processed st.pre m' st.event st.out := by
  obtain ⟨m', hbefore, hstep, -⟩ := h.split
  exact ⟨metered_run hbefore, m', processMessage_processed hstep⟩

theorem begins_iff :
    begins st = true ↔
      batchSize ≤ (sinceStart earlier).length ∨ maxInterval ≤ st.event.t - startTime earlier := by
  obtain ⟨hmetered, m', hprocessed⟩ := processed_of_run h
  rw [← hmetered.packets, ← hmetered.start]
  unfold begins
  generalize st.out = out at hprocessed
  cases hprocessed with
  | closes hcloses _ _ =>
    simp only [Meter.closes, Bool.or_eq_true, decide_eq_true_eq] at hcloses
    exact iff_of_true rfl hcloses
  | counts hopen _ _ =>
    simp only [Meter.closes, Bool.or_eq_false_iff, decide_eq_false_iff_not] at hopen
    exact iff_of_false Bool.noConfusion fun hcloses => hcloses.elim hopen.1 hopen.2

end

theorem sinceStart_still {t : Int} {base : List MeterStep} (hbase : startTime base = t) :
    ∀ (more later : List MeterStep) {m : Meter},
      Run (Meter.processMessage link) (.new rates currentBitPerSec) (later ++ (more ++ base)) m →
      (∀ st ∈ more, st.event.t = t) → (sinceStart base).length + more.length ≤ batchSize →
      startTime (more ++ base) = t ∧
        (sinceStart (more ++ base)).length = (sinceStart base).length + more.length := by
  intro more
  induction more with
  | nil =>
    intro later m _ _ _
    exact ⟨hbase, rfl⟩
  | cons st more ih =>
    intro later m hrun htime hfull
    rw [length_cons] at hfull
    rw [cons_append] at hrun
    obtain ⟨hstart, hlength⟩ := ih (later ++ [st]) (by simpa using hrun)
      (fun st' hst' => htime st' (mem_cons_of_mem st hst')) (by omega)
    have hnot : ¬ begins st = true := by
      rw [begins_iff hrun, hstart, htime st mem_cons_self, hlength]
      change ¬ (_ ∨ (10 ^ 11 : Int) ≤ t - t)
      omega
    rw [cons_append, startTime, sinceStart, if_neg hnot, if_neg hnot, length_cons, hlength]
    exact ⟨hstart, by rw [length_cons]; omega⟩

theorem exists_still_of_burst {tr : List MeterStep}
    (h : Run (Meter.processMessage link) (.new rates currentBitPerSec) tr m) (hburst : Burst tr) :
    ∃ later st earlier, tr = later ++ st :: earlier ∧ begins st = true ∧
      st.event.t = startTime earlier := by
  obtain ⟨later, burst, earlier, t, rfl, hlength, htime, hfirst⟩ := hburst
  obtain ⟨last, more, rfl⟩ := exists_cons_of_length_eq_add_one hlength
  rw [length_cons] at hlength
  rw [append_assoc, cons_append] at h ⊢
  -- the packets before the last one: those after the first, on top of what the first has begun
  obtain ⟨others, base, hsplit, hbase, hcount, hothers⟩ : ∃ others base,
      more ++ earlier = others ++ base ∧ startTime base = t ∧
        (sinceStart base).length + others.length = batchSize ∧ ∀ st ∈ others, st.event.t = t := by
    obtain ⟨rfl, rfl⟩ | ⟨first, hlast, hbegins⟩ := hfirst
    · refine ⟨more, [], rfl, rfl, ?_, fun st hst => htime st (mem_cons_of_mem last hst)⟩
      change 0 + more.length = 10
      omega
    · have hne : more ≠ [] := by
        rintro rfl
        cases hlength
      rw [getLast?_cons_of_ne_nil hne] at hlast
      obtain ⟨others, rfl⟩ := getLast?_eq_some_iff.mp hlast
      refine ⟨others, first :: earlier, by simp, ?_, ?_, ?_⟩
      · rw [startTime, if_pos hbegins]
        exact htime first (by simp)
      · rw [sinceStart, if_pos hbegins]
        rw [length_append] at hlength
        change 1 + others.length = 10
        simp only [length_singleton] at hlength
        omega
      · exact fun st hst => htime st (by simp [hst])
  have hrun : Run (Meter.processMessage link) (.new rates currentBitPerSec)
      ((later ++ [last]) ++ (others ++ base)) m := by
    rw [← hsplit]
    simpa using h
  obtain ⟨hstart, hfull⟩ := sinceStart_still hbase others _ hrun hothers hcount.le
  refine ⟨later, last, more ++ earlier, rfl, ?_, ?_⟩
  · rw [begins_iff h, hsplit, hfull, hcount]
    exact .inl (le_refl _)
  · rw [hsplit, hstart]
    exact htime last mem_cons_self

end Burst

/-! ## Times in order -/

/-- The packets come one after the other, from time 0 on; the trace is newest first. -/
def InTime (tr : List MeterStep) : Prop :=
  (∀ st ∈ tr, 0 ≤ st.event.t) ∧ tr.Pairwise fun later earlier => earlier.event.t ≤ later.event.t

instance (tr : List MeterStep) : Decidable (InTime tr) :=
  inferInstanceAs (Decidable ((∀ st ∈ tr, _) ∧ tr.Pairwise _))

theorem InTime.tail (h : InTime (st :: tr)) : InTime tr :=
  ⟨(forall_mem_cons.mp h.1).2, (pairwise_cons.mp h.2).2⟩

theorem InTime.of_append {later : List MeterStep} (h : InTime (later ++ earlier)) :
    InTime earlier :=
  ⟨fun st hst => h.1 st (mem_append_right later hst), (pairwise_append.mp h.2).2.1⟩

theorem startTime_le (hzero : 0 ≤ t) (hle : ∀ st ∈ tr, st.event.t ≤ t) : startTime tr ≤ t := by
  induction tr with
  | nil => exact hzero
  | cons st tr ih =>
    obtain ⟨hst, htr⟩ := forall_mem_cons.mp hle
    rw [startTime]
    split
    · exact hst
    · exact ih htr

theorem InTime.startTime_le (h : InTime (st :: tr)) : startTime tr ≤ st.event.t :=
  Monitor.startTime_le (h.1 st mem_cons_self) (pairwise_cons.mp h.2).1

theorem InTime.le_sinceStart (h : InTime tr) : ∀ st ∈ sinceStart tr, startTime tr ≤ st.event.t := by
  induction tr with
  | nil => simp [sinceStart]
  | cons st tr ih =>
    rw [startTime, sinceStart]
    split
    · simp
    · exact forall_mem_cons.mpr ⟨h.startTime_le, ih h.tail⟩

/-- The packets of an interval are the newest ones, from the one that has begun it on. -/
theorem exists_append_sinceStart (tr : List MeterStep) :
    ∃ earlier, tr = sinceStart tr ++ earlier ∧
      ((earlier = [] ∧ startTime tr = 0) ∨
        ∃ first, (sinceStart tr).getLast? = some first ∧ begins first = true) := by
  induction tr with
  | nil => exact ⟨[], rfl, .inl ⟨rfl, rfl⟩⟩
  | cons st tr ih =>
    rw [startTime, sinceStart]
    split_ifs with hbegins
    · exact ⟨tr, rfl, .inr ⟨st, rfl, hbegins⟩⟩
    obtain ⟨earlier, hsplit, hfirst⟩ := ih
    refine ⟨earlier, by rw [cons_append, ← hsplit], hfirst.imp id ?_⟩
    rintro ⟨first, hlast, hbegins⟩
    refine ⟨first, ?_, hbegins⟩
    rw [getLast?_cons, hlast]
    rfl

theorem burst_of_still {rates : Rates Double} {currentBitPerSec : Double} {later : List MeterStep}
    (h : Run (Meter.processMessage link) (.new rates currentBitPerSec) (later ++ st :: earlier) m)
    (htime : InTime (later ++ st :: earlier)) (hbegins : begins st = true)
    (hstill : st.event.t = startTime earlier) : Burst (later ++ st :: earlier) := by
  have hin : InTime (st :: earlier) := htime.of_append
  have hfull : (sinceStart earlier).length = batchSize := by
    refine le_antisymm (processed_of_run h).1.full ?_
    refine ((begins_iff h).mp hbegins).resolve_right ?_
    change ¬ (10 ^ 11 : Int) ≤ _
    omega
  obtain ⟨before, hsplit, hfirst⟩ := exists_append_sinceStart earlier
  refine ⟨later, st :: sinceStart earlier, before, st.event.t, ?_, ?_, ?_, ?_⟩
  · rw [append_assoc, cons_append, ← hsplit]
  · rw [length_cons, hfull]
    rfl
  · refine forall_mem_cons.mpr ⟨rfl, fun st' hst' => ?_⟩
    have hmem : st' ∈ earlier := by
      rw [hsplit]
      exact mem_append_left before hst'
    refine le_antisymm ((pairwise_cons.mp hin.2).1 st' hmem) ?_
    rw [hstill]
    exact hin.tail.le_sinceStart st' hst'
  · refine hfirst.imp (fun hnone => ⟨hnone.1, hstill.trans hnone.2⟩) ?_
    rintro ⟨first, hlast, hfirst⟩
    refine ⟨first, ?_, hfirst⟩
    rw [getLast?_cons, hlast]
    rfl

/-! ## The rates -/

/-- The interval has a duration, and its rates are what was counted since it began, divided by
the duration. -/
structure Interval.Exact (i : Interval) (counted : List MeterStep) : Prop where
  duration : 0 < i.now - i.start
  packets : i.rates.currentPkPerSec = .finite (counted.length / seconds (i.now - i.start))
  malicious : i.rates.maliciousPkPerSec =
    .finite (counted.countP Monitor.malicious / seconds (i.now - i.start))
  benign : i.rates.benignPkPerSec =
    .finite (counted.countP (!Monitor.malicious ·) / seconds (i.now - i.start))
  bits : i.currentBitPerSec =
    .finite ((counted.map (·.event.bitLength)).sum / seconds (i.now - i.start))
  all : counted.countP Monitor.malicious + counted.countP (!Monitor.malicious ·) = counted.length

theorem seconds_ne_zero {ticks : Int} (h : 0 < ticks) : seconds ticks ≠ 0 :=
  div_ne_zero (Int.cast_ne_zero.mpr h.ne') (by decide)

theorem interval_processed {i : Interval} (h : Metered earlier m)
    (hprocessed : Processed m m' p (some i)) :
    i.start = startTime earlier ∧ i.now = p.t ∧
      (startTime earlier < p.t → i.Exact (sinceStart earlier)) := by
  cases hprocessed
  refine ⟨h.start, rfl, fun hlt => ?_⟩
  rw [← h.start] at hlt
  have hduration : 0 < p.t - m.monitor.intvlStartTime := by omega
  have hseconds := seconds_ne_zero hduration
  exact
    { duration := hduration
      packets := by rw [← h.packets]; exact Double.finite_div hseconds
      malicious := by rw [← h.malicious]; exact Double.finite_div hseconds
      benign := by rw [← h.benign]; exact Double.finite_div hseconds
      bits := by rw [← h.bits]; exact Double.finite_div hseconds
      all := by
        rw [length_eq_countP_add_countP Monitor.malicious]
        simp }

/-- Every interval that is closed has a duration and exact rates, just when no eleven packets
come at one time from the beginning of an interval on. -/
theorem rates_exact_iff {link : Link} {rates : Rates Double} {currentBitPerSec : Double}
    {tr : List MeterStep} {m : Meter}
    (h : Run (Meter.processMessage link) (.new rates currentBitPerSec) tr m) (htime : InTime tr) :
    (∀ later st earlier i, tr = later ++ st :: earlier → st.out = some i →
        i.start = startTime earlier ∧ i.now = st.event.t ∧ i.Exact (sinceStart earlier)) ↔
      ¬ Burst tr := by
  constructor
  · intro hexact hburst
    obtain ⟨later, st, earlier, hsplit, hbegins, hstill⟩ := exists_still_of_burst h hburst
    obtain ⟨i, hout⟩ := Option.isSome_iff_exists.mp hbegins
    obtain ⟨hstart, hnow, hi⟩ := hexact later st earlier i hsplit hout
    have hduration := hi.duration
    omega
  · rintro hquiet later st earlier i rfl hout
    have hbegins : begins st = true := by rw [begins, hout]; rfl
    obtain ⟨hmetered, m', hprocessed⟩ := processed_of_run h
    rw [hout] at hprocessed
    obtain ⟨hstart, hnow, hi⟩ := interval_processed hmetered hprocessed
    refine ⟨hstart, hnow, hi (lt_of_le_of_ne ?_ fun hstill => ?_)⟩
    · exact (InTime.of_append htime).startTime_le
    · exact hquiet (burst_of_still h htime hbegins hstill.symm)

theorem not_burst_of_nodup (h : (tr.map (·.event.t)).Nodup) : ¬ Burst tr := by
  rintro ⟨later, burst, earlier, t, rfl, hlength, htime, -⟩
  match burst, hlength with
  | a :: b :: others, _ =>
    have hsame : a.event.t = b.event.t :=
      (htime a (by simp)).trans (htime b (by simp)).symm
    have hnodup : ((a :: b :: others).map (·.event.t)).Nodup := by
      refine h.sublist (List.Sublist.map _ ?_)
      exact (sublist_append_right later _).trans (sublist_append_left _ earlier)
    exact (nodup_cons.mp hnodup).1 (by simp [hsame])

def fresh : Meter := .new { currentPkPerSec := 0, benignPkPerSec := 0, maliciousPkPerSec := 0 } 0

def noFormat : Link := { format := [], fullPath := "net.r0", gateIndex := 0 }

def dataAt (t : Int) : Packet := { t := t, name := "data", bitLength := 8000, widths := fun _ => 0 }

def spread : List Packet := (List.range 11).map fun k => dataAt (k * 10 ^ 9)

theorem rates_exact_iff_spread :
    replays (Meter.processMessage noFormat) fresh spread = true ∧
      ∀ later st earlier i,
        replayTrace (Meter.processMessage noFormat) fresh spread = later ++ st :: earlier →
        st.out = some i →
        i.start = startTime earlier ∧ i.now = st.event.t ∧ i.Exact (sinceStart earlier) := by
  have hrun : replays (Meter.processMessage noFormat) fresh spread = true := by decide +kernel
  refine ⟨hrun, (rates_exact_iff (run_of_replays hrun) ?_).mpr (not_burst_of_nodup ?_)⟩ <;>
    decide +kernel

def atOnce : List Packet := List.replicate 11 (dataAt (10 ^ 12))

theorem burst_has_no_rates :
    replays (Meter.processMessage noFormat) fresh atOnce = true ∧
      InTime (replayTrace (Meter.processMessage noFormat) fresh atOnce) ∧
      ((replayTrace (Meter.processMessage noFormat) fresh atOnce).head?.bind (·.out)).map
          (fun i => (i.now - i.start, i.rates.currentPkPerSec, i.rates.benignPkPerSec,
            i.rates.maliciousPkPerSec, i.currentBitPerSec)) =
        some (0, .infinite false, .infinite false, .nan, .infinite false) := by
  decide +kernel

end WormsAttack.Monitor
