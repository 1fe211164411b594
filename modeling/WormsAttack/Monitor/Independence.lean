/-
  Every monitor reports the overload of its own link.

  A call of `updateDisplay` is busy when the rate is 3000 packets per second or more and the
  loop over the format comes to the item `p`.
-/
import Mathlib.Algebra.Order.Ring.Rat
import WormsAttack.Monitor.Handlers

namespace WormsAttack.Monitor

open Foundation List LinkMonitor

section Calls

variable {ρ : Type} (d : Doubles ρ) (link : Link)

def textBefore (numPackets : Nat) (widths : Char → Nat) : List Char → Nat
  | [] => 0
  | c :: format =>
      if c = 'p' then 0
      else LinkMonitor.width numPackets widths c + textBefore numPackets widths format

def Call.isHigh (call : Call ρ) : Bool := d.atLeast call.currentPkPerSec 3000

def Call.isBusy (call : Call ρ) : Bool :=
  call.isHigh d && textBefore call.numPackets call.widths link.format < 180

def Action.call : Action ρ → Option (Call ρ)
  | .updateDisplay call => some call
  | .publish _ _ => none

def Action.publication : Action ρ → Option (String × List String)
  | .updateDisplay _ => none
  | .publish name values => some (name, values)

def callsIn (labels : List (Event × List (Action ρ))) : List (Call ρ) :=
  (labels.flatMap (·.2)).filterMap Action.call

def published (labels : List (Event × List (Action ρ))) : List (String × List String) :=
  (labels.flatMap (·.2)).filterMap Action.publication

def load : String × List String := ("load", [link.fullPath, toString link.gateIndex])

end Calls

/-! ## The loop over the format -/

section Display

variable {ρ : Type} (d : Doubles ρ) (link : Link)

def alarm (m : LinkMonitor ρ) : ρ × Bool × Nat :=
  (m.rates.currentPkPerSec, m.triggered, m.triggeredCount)

def seen (r : LinkMonitor ρ × List (Action ρ)) : (ρ × Bool × Nat) × List (Action ρ) :=
  (alarm r.1, r.2)

def checkIf (room : Bool) (m : LinkMonitor ρ) : LinkMonitor ρ × List (Action ρ) :=
  if room then m.checkLoad d link else (m, [])

theorem seen_checkLoad {m m' : LinkMonitor ρ} (h : alarm m = alarm m') :
    seen (m.checkLoad d link) = seen (m'.checkLoad d link) := by
  obtain ⟨hrate, htriggered, hcount⟩ : m.rates.currentPkPerSec = m'.rates.currentPkPerSec ∧
      m.triggered = m'.triggered ∧ m.triggeredCount = m'.triggeredCount := by
    simpa [alarm] using h
  unfold checkLoad
  simp only [hrate, htriggered, hcount]
  split
  · split
    · simp [seen, alarm, hrate]
    · simp [seen, alarm, hrate]
  · simp [seen, alarm, hrate, htriggered, hcount]

theorem seen_checkIf {room : Bool} {m m' : LinkMonitor ρ} (h : alarm m = alarm m') :
    seen (checkIf d link room m) = seen (checkIf d link room m') := by
  unfold checkIf
  split
  · exact seen_checkLoad d link h
  · rw [seen, seen, h]

theorem item_other {c : Char} (hc : c ≠ 'p') (m : LinkMonitor ρ) :
    alarm (m.item d link c).1 = alarm m ∧ (m.item d link c).1.numPackets = m.numPackets ∧
      (m.item d link c).2 = [] := by
  unfold item
  rw [if_neg hc]
  split
  · refine ⟨?_, ?_, rfl⟩ <;> (unfold checkThreshold; split <;> rfl)
  · exact ⟨rfl, rfl, rfl⟩

variable (widths : Char → Nat)

theorem display_other {format : List Char} (h : 'p' ∉ format) (written : Nat) (m : LinkMonitor ρ) :
    seen (display d link widths format written m) = seen (m, []) := by
  induction format generalizing written m with
  | nil => rfl
  | cons c format ih =>
    have hc : c ≠ 'p' := fun heq => h (heq ▸ mem_cons_self)
    obtain ⟨halarm, -, hout⟩ := item_other d link hc m
    simp only [display]
    split
    · rw [hout, nil_append]
      refine (ih (fun hmem => h (mem_cons_of_mem c hmem)) _ _).trans ?_
      rw [seen, seen, halarm]
    · rfl

theorem display_once {format : List Char} (h : format.count 'p' = 1) (written : Nat)
    (m : LinkMonitor ρ) :
    seen (display d link widths format written m) =
      seen (checkIf d link (written + textBefore m.numPackets widths format < 180) m) := by
  induction format generalizing written m with
  | nil => cases h
  | cons c format ih =>
    rw [display, textBefore]
    dsimp only
    by_cases hc : c = 'p'
    · have hformat : 'p' ∉ format := by
        rw [hc, count_cons_self] at h
        exact count_eq_zero.mp (Nat.succ.inj h)
      rw [if_pos hc, checkIf, item, if_pos hc]
      split
      · rw [if_pos (decide_eq_true (by omega))]
        have hrest := display_other d link widths hformat
          (written + width m.numPackets widths c) (m.checkLoad d link).1
        obtain ⟨halarm, hout⟩ := Prod.mk.inj hrest
        rw [seen, seen, halarm, hout, append_nil]
      · rw [if_neg (by rw [decide_eq_true_eq]; omega)]
    · rw [count_cons_of_ne hc] at h
      obtain ⟨halarm, hpackets, hout⟩ := item_other d link hc m
      split
      · rw [hout, nil_append, ← Nat.add_assoc, ← hpackets]
        exact (ih h _ _).trans (seen_checkIf d link halarm)
      · -- the buffer is full, and the item is even further on
        rw [checkIf, if_neg (by rw [decide_eq_true_eq]; omega)]

end Display

/-! ## The record of a monitor -/

section Runs

variable {ρ : Type} {d : Doubles ρ} {link : Link}

def busyCalls (d : Doubles ρ) (link : Link) (labels : List (Event × List (Action ρ))) : Nat :=
  (callsIn labels).countP (Call.isBusy d link)

structure Counted (d : Doubles ρ) (link : Link) (labels : List (Event × List (Action ρ)))
    (m : LinkMonitor ρ) : Prop where
  count : m.triggeredCount = min 100 (busyCalls d link labels)
  triggered : m.triggered = decide (100 ≤ busyCalls d link labels)
  published : published labels = if 100 ≤ busyCalls d link labels then [load link] else []

theorem counted_new (rates : Rates ρ) : Counted d link [] (new rates) :=
  ⟨rfl, rfl, rfl⟩

theorem alarm_countPacket (m : LinkMonitor ρ) (t : Int) (name : String) :
    (m.countPacket d t name).triggered = m.triggered ∧
      (m.countPacket d t name).triggeredCount = m.triggeredCount := by
  unfold countPacket beginNewInterval
  dsimp only
  split <;> split <;> exact ⟨rfl, rfl⟩

variable {out : List (Action ρ)} {m m' : LinkMonitor ρ} {labels : List (Event × List (Action ρ))}

theorem busyCalls_cons (d : Doubles ρ) (link : Link) (e : Event) (call : Call ρ)
    (hout : out.filterMap Action.call = []) (labels : List (Event × List (Action ρ))) :
    busyCalls d link ((e, .updateDisplay call :: out) :: labels) =
      (if call.isBusy d link then 1 else 0) + busyCalls d link labels := by
  unfold busyCalls callsIn
  rw [flatMap_cons, filterMap_append]
  simp only [filterMap_cons, Action.call, hout]
  rw [countP_append, countP_singleton]

theorem published_cons (e : Event) (call : Call ρ) (out : List (Action ρ))
    (labels : List (Event × List (Action ρ))) :
    published ((e, .updateDisplay call :: out) :: labels) =
      out.filterMap Action.publication ++ published labels := by
  unfold published
  rw [flatMap_cons, filterMap_append]
  rfl

/-- What a call does to the count: a busy call is counted until there are a hundred. -/
theorem checkLoad_counts {room : Bool} (h : seen (m', out) = seen (checkIf d link room m)) :
    if (d.atLeast m.rates.currentPkPerSec 3000 && room) && !m.triggered then
      m'.triggeredCount = m.triggeredCount + 1 ∧
        m'.triggered = decide (m.triggeredCount + 1 = 100) ∧
        out = if m.triggeredCount + 1 = 100 then
          [.publish "load" [link.fullPath, toString link.gateIndex]] else []
    else m'.triggeredCount = m.triggeredCount ∧ m'.triggered = m.triggered ∧ out = [] := by
  obtain ⟨halarm, hout⟩ := Prod.mk.inj h
  obtain ⟨-, hrest⟩ := Prod.mk.inj halarm
  obtain ⟨htriggered, hcount⟩ := Prod.mk.inj hrest
  change out = _ at hout
  rw [htriggered, hcount, hout, checkIf]
  cases room with
  | false => simp
  | true =>
    simp only [Bool.and_true, if_true]
    unfold checkLoad
    split
    · rename_i hcheck
      have hnot : m.triggered = false := by
        rw [Bool.and_eq_true, Bool.not_eq_true'] at hcheck
        exact hcheck.2
      dsimp only
      split_ifs with hhundred
      · exact ⟨rfl, (decide_eq_true hhundred).symm, rfl⟩
      · exact ⟨rfl, hnot.trans (decide_eq_false hhundred).symm, rfl⟩
    · exact ⟨rfl, rfl, rfl⟩

theorem counted_busy {e : Event} {call : Call ρ} (h : Counted d link labels m)
    (hyes : call.isBusy d link = true) (hless : ¬ 100 ≤ busyCalls d link labels)
    (hcount : m'.triggeredCount = min 100 (busyCalls d link labels) + 1)
    (htriggered : m'.triggered = decide (min 100 (busyCalls d link labels) + 1 = 100))
    (hout : out = if min 100 (busyCalls d link labels) + 1 = 100 then
      [.publish "load" [link.fullPath, toString link.gateIndex]] else []) :
    Counted d link ((e, .updateDisplay call :: out) :: labels) m' := by
  have hcalls : out.filterMap Action.call = [] := by
    rw [hout]
    split <;> rfl
  have hbusy := busyCalls_cons d link e call hcalls labels
  have hpublished := published_cons e call out labels
  rw [if_pos hyes] at hbusy
  rw [h.published, if_neg hless, append_nil] at hpublished
  have hnumber : min 100 (busyCalls d link labels) + 1 = 100 ↔
      100 ≤ 1 + busyCalls d link labels := by omega
  refine ⟨?_, ?_, ?_⟩
  · omega
  · rw [hbusy, htriggered]
    exact decide_eq_decide.mpr hnumber
  · rw [hbusy, hpublished, hout]
    by_cases hhundred : 100 ≤ 1 + busyCalls d link labels
    · rw [if_pos hhundred, if_pos (hnumber.mpr hhundred)]
      rfl
    · rw [if_neg hhundred, if_neg (mt hnumber.mp hhundred)]
      rfl

theorem counted_idle {e : Event} {call : Call ρ} (h : Counted d link labels m)
    (hidle : call.isBusy d link = true → 100 ≤ busyCalls d link labels)
    (hcount : m'.triggeredCount = min 100 (busyCalls d link labels))
    (htriggered : m'.triggered = decide (100 ≤ busyCalls d link labels)) :
    Counted d link ((e, [.updateDisplay call]) :: labels) m' := by
  have hbusy := busyCalls_cons d link e call filterMap_nil labels
  have hpublished := published_cons e call [] labels
  rw [h.published] at hpublished
  have hsame : min 100 (busyCalls d link ((e, [.updateDisplay call]) :: labels)) =
      min 100 (busyCalls d link labels) := by
    rw [hbusy]
    split_ifs with hyes
    · have := hidle hyes
      omega
    · omega
  have hsame' : 100 ≤ busyCalls d link labels ↔
      100 ≤ busyCalls d link ((e, [.updateDisplay call]) :: labels) := by omega
  refine ⟨?_, ?_, ?_⟩
  · rw [hcount, hsame]
  · rw [htriggered]
    exact decide_eq_decide.mpr hsame'
  · rw [hpublished]
    exact if_congr hsame' rfl rfl

theorem counted_packet (hformat : link.format.count 'p' = 1) (h : Counted d link labels m) (t : Int)
    (name : String) (widths : Char → Nat) :
    Counted d link
      ((.packet t name widths, ((m.countPacket d t name).updateDisplay d link widths).2) :: labels)
      ((m.countPacket d t name).updateDisplay d link widths).1 := by
  obtain ⟨hsameTriggered, hsameCount⟩ := alarm_countPacket (d := d) m t name
  generalize m.countPacket d t name = m₁ at hsameTriggered hsameCount
  unfold updateDisplay
  have hseen := display_once d link widths hformat 0 m₁
  generalize display d link widths link.format 0 m₁ = r at hseen
  obtain ⟨m₂, out⟩ := r
  rw [Nat.zero_add] at hseen
  have hcounts := checkLoad_counts hseen
  generalize hcall : (⟨m₁.rates.currentPkPerSec, m₁.numPackets, widths⟩ : Call ρ) = call
  have hisBusy : (d.atLeast m₁.rates.currentPkPerSec 3000 &&
      decide (textBefore m₁.numPackets widths link.format < 180)) = call.isBusy d link := by
    rw [← hcall]
    rfl
  rw [hisBusy, hsameTriggered, hsameCount, h.triggered, h.count] at hcounts
  by_cases hcheck : (call.isBusy d link && !decide (100 ≤ busyCalls d link labels)) = true
  · rw [if_pos hcheck] at hcounts
    rw [Bool.and_eq_true, Bool.not_eq_true', decide_eq_false_iff_not] at hcheck
    obtain ⟨hcount, htriggered, hout⟩ := hcounts
    exact counted_busy h hcheck.1 hcheck.2 hcount htriggered hout
  · rw [if_neg hcheck] at hcounts
    rw [Bool.and_eq_true, Bool.not_eq_true', decide_eq_false_iff_not, not_and, not_not] at hcheck
    obtain ⟨hcount, htriggered, rfl⟩ := hcounts
    exact counted_idle h hcheck hcount htriggered

variable {ι : Type} [DecidableEq ι]

abbrev Trace (ι ρ : Type) :=
  List (Step (Network ι Bool (LinkMonitor ρ)) (ι × Event) (List (Action ρ)))

def start (rates : ι → Rates ρ) : Network ι Bool (LinkMonitor ρ) :=
  ⟨false, fun a => LinkMonitor.new (rates a)⟩

/-- The overload of a link is published once if there have been a hundred busy calls, and not at
all otherwise. -/
theorem load_published {link : ι → Link} {rates : ι → Rates ρ} {a : ι}
    (hformat : (link a).format.count 'p' = 1) {tr : Trace ι ρ} {n : Network ι Bool (LinkMonitor ρ)}
    (h : Run (Network.step (handle d link)) (start rates) tr n) :
    published (Network.labelsOf a tr) =
      if 100 ≤ busyCalls d (link a) (Network.labelsOf a tr) then [load (link a)] else [] := by
  have hcounted : Counted d (link a) (Network.labelsOf a tr) (n.members a) := by
    refine Network.history_of_run (counted_new (rates a)) ?_ h
    intro labels shared m e shared' m' out hcounted hok
    cases e with
    | packet t name widths =>
      cases hok
      exact counted_packet hformat hcounted t name widths
    | message =>
      cases hok
      exact ⟨hcounted.count, hcounted.triggered, hcounted.published⟩
  exact hcounted.published

end Runs

def exactRates : Doubles Rat :=
  { perSec := fun count time => count / time * 10 ^ 12
    atLeast := fun rate n => n ≤ rate
    above := fun rate n => n < rate }

/-- Link 0 shows the rate only, link 1 has the average of 15 characters in front of it, twelve
times. -/
def twoLinks (a : Fin 2) : Link :=
  { format := if a = 0 then ['p'] else List.replicate 12 'P' ++ ['p']
    fullPath := if a = 0 then "net.r0" else "net.r1"
    gateIndex := 0 }

def noRates (_ : Fin 2) : Rates Rat :=
  { currentPkPerSec := 0, benignPkPerSec := 0, maliciousPkPerSec := 0 }

def flooded (a : Fin 2) : List (Fin 2 × Event) :=
  (List.range 115).map fun k => (a, .packet (k * 10 ^ 8) "udp_flood" fun _ => 15)

theorem load_published_flooded :
    (twoLinks 0).format.count 'p' = 1 ∧
      replays (Network.step (handle exactRates twoLinks)) (start noRates) (flooded 0) = true ∧
      published (Network.labelsOf 0 (replayTrace (Network.step (handle exactRates twoLinks))
        (start noRates) (flooded 0))) = [load (twoLinks 0)] := by
  have hformat : (twoLinks 0).format.count 'p' = 1 := by decide +kernel
  have hrun : replays (Network.step (handle exactRates twoLinks)) (start noRates) (flooded 0) =
      true := by decide +kernel
  refine ⟨hformat, hrun, ?_⟩
  rw [load_published hformat (run_of_replays hrun)]
  exact if_pos (by decide +kernel)

/-- A hundred calls with a high rate and no publication: the text before the item `p` leaves
no room for it. -/
theorem long_text_hides_overload :
    (twoLinks 1).format.count 'p' = 1 ∧
      replays (Network.step (handle exactRates twoLinks)) (start noRates) (flooded 1) = true ∧
      100 ≤ (callsIn (Network.labelsOf 1 (replayTrace (Network.step (handle exactRates twoLinks))
        (start noRates) (flooded 1)))).countP (Call.isHigh exactRates) ∧
      published (Network.labelsOf 1 (replayTrace (Network.step (handle exactRates twoLinks))
        (start noRates) (flooded 1))) = [] := by
  decide +kernel

end WormsAttack.Monitor
