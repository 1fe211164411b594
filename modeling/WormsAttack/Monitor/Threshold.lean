/-
  The alarm of the item `T`.

  Each time the loop over the format comes to the item `T`, the monitor records its alarm and
  then compares the rate with the threshold.
-/
import WormsAttack.Foundation.Machine
import WormsAttack.Monitor.Independence

namespace WormsAttack.Monitor

open Foundation LinkMonitor

section Evaluation

variable {ρ : Type} (d : Doubles ρ)

/-- An evaluation of the item `T` that sees this rate: what is recorded is the alarm before. -/
def evaluate (m : LinkMonitor ρ) (rate : ρ) : Except Stop (LinkMonitor ρ × Bool) :=
  .ok ({ m with rates := { m.rates with currentPkPerSec := rate } }.checkThreshold d, m.value)

/-- The evaluations since the last one that did not see a rate above the threshold. -/
def runLength : List (Step (LinkMonitor ρ) ρ Bool) → Nat
  | [] => 0
  | st :: tr => if d.above st.event threshold then runLength tr + 1 else 0

def LastAbove (tr : List (Step (LinkMonitor ρ) ρ Bool)) : Prop :=
  100 ≤ tr.length ∧ ∀ st ∈ tr.take 100, d.above st.event threshold = true

theorem le_runLength_iff (n : Nat) (tr : List (Step (LinkMonitor ρ) ρ Bool)) :
    n ≤ runLength d tr ↔
      n ≤ tr.length ∧ ∀ st ∈ tr.take n, d.above st.event threshold = true := by
  induction tr generalizing n with
  | nil => simp [runLength]
  | cons st tr ih =>
    cases n with
    | zero => simp
    | succ n =>
      rw [runLength, List.take_succ_cons, List.forall_mem_cons, List.length_cons]
      split_ifs with habove
      · rw [Nat.succ_le_succ_iff, Nat.succ_le_succ_iff, ih]
        simp [habove]
      · exact iff_of_false (Nat.not_succ_le_zero n) fun h => habove h.2.1

structure Alarmed (tr : List (Step (LinkMonitor ρ) ρ Bool)) (m : LinkMonitor ρ) : Prop where
  cnt : m.cnt = Int32.ofNat (runLength d tr)
  value : m.value = true ↔ 100 ≤ runLength d tr

theorem alarmed_new (rates : Rates ρ) : Alarmed d [] (.new rates) :=
  ⟨rfl, iff_of_false Bool.noConfusion (by simp [runLength])⟩

theorem ofNat_eq_intvlTime {n : Nat} (h : Int32.ofNat n = intvlTime) : 100 ≤ n := by
  have hle := toInt_ofNat_le n
  rw [h] at hle
  change (100 : Int) ≤ n at hle
  omega

variable {tr : List (Step (LinkMonitor ρ) ρ Bool)} {m : LinkMonitor ρ}

theorem alarmed_evaluate {m' : LinkMonitor ρ} {rate : ρ} {recorded : Bool} (h : Alarmed d tr m)
    (hstep : evaluate d m rate = .ok (m', recorded)) :
    Alarmed d (⟨m, rate, recorded⟩ :: tr) m' := by
  cases hstep
  unfold checkThreshold
  split_ifs with habove
  · have hrun : runLength d (⟨m, rate, m.value⟩ :: tr) = runLength d tr + 1 := if_pos habove
    have hcnt : m.cnt + 1 = Int32.ofNat (runLength d tr + 1) := by
      rw [h.cnt]
      exact (Int32.ofNat_add _ _).symm
    refine ⟨hcnt.trans (congrArg Int32.ofNat hrun.symm), ?_⟩
    rw [hrun]
    rw [Bool.or_eq_true, decide_eq_true_eq, h.value, hcnt]
    constructor
    · rintro (hlong | hnow)
      · exact Nat.le_succ_of_le hlong
      · exact ofNat_eq_intvlTime hnow
    · intro hlong
      rcases Nat.lt_or_eq_of_le hlong with hmore | hnow
      · exact .inl (Nat.le_of_lt_succ hmore)
      · exact .inr (by rw [← hnow]; rfl)
  · have hrun : runLength d (⟨m, rate, m.value⟩ :: tr) = 0 := if_neg habove
    refine ⟨(congrArg Int32.ofNat hrun).symm, ?_⟩
    rw [hrun]
    exact iff_of_false Bool.noConfusion (by decide)

theorem alarmed_run {rates : Rates ρ} (h : Run (evaluate d) (.new rates) tr m) : Alarmed d tr m :=
  h.invariant (alarmed_new d rates) fun _ _ _ _ _ halarmed hstep =>
    alarmed_evaluate d halarmed hstep

/-- The alarm is set just when the last 100 evaluations have seen a rate above the threshold. -/
theorem threshold_alarm {rates : Rates ρ} {tr : List (Step (LinkMonitor ρ) ρ Bool)}
    {m : LinkMonitor ρ} (h : Run (evaluate d) (.new rates) tr m) :
    (m.value = true ↔ LastAbove d tr) ∧
      (runLength d tr < 2147483648 → m.cnt.toInt = runLength d tr) ∧
      ∀ later st earlier, tr = later ++ st :: earlier →
        (st.out = true ↔ LastAbove d earlier) := by
  have hvalue {tr : List (Step (LinkMonitor ρ) ρ Bool)} {m : LinkMonitor ρ}
      (h : Run (evaluate d) (.new rates) tr m) : m.value = true ↔ LastAbove d tr := by
    rw [(alarmed_run d h).value, le_runLength_iff]
    rfl
  refine ⟨hvalue h, fun hshort => ?_, ?_⟩
  · rw [(alarmed_run d h).cnt, toInt_ofNat_eq_iff]
    exact hshort
  · rintro later st earlier rfl
    obtain ⟨m', hbefore, hstep, -⟩ := h.split
    have hrecorded : st.out = st.pre.value := (congrArg Prod.snd (Except.ok.inj hstep)).symm
    rw [hrecorded]
    exact hvalue hbefore

end Evaluation

theorem threshold_alarm_hundred :
    (replayState (evaluate exactRates) (.new (noRates 0)) (List.replicate 100 101)).value =
      true := by
  have hrun : replays (evaluate exactRates) (.new (noRates 0)) (List.replicate 100 101) = true := by
    decide +kernel
  refine (threshold_alarm exactRates (run_of_replays hrun)).1.mpr ⟨?_, ?_⟩ <;> decide +kernel

theorem exists_run_of_length (n : Nat) :
    ∃ tr m, Run (evaluate exactRates) (.new (noRates 0)) tr m ∧ runLength exactRates tr = n := by
  induction n with
  | zero => exact ⟨[], _, .start, rfl⟩
  | succ n ih =>
    obtain ⟨tr, m, hrun, hlength⟩ := ih
    have habove : exactRates.above 101 threshold = true := by decide
    refine ⟨_, _, hrun.next (e := 101) rfl, ?_⟩
    rw [runLength, if_pos habove, hlength]

theorem cnt_overflows :
    ∃ tr m, Run (evaluate exactRates) (.new (noRates 0)) tr m ∧
      runLength exactRates tr = 2147483648 ∧ m.cnt.toInt = -2147483648 := by
  obtain ⟨tr, m, hrun, hlength⟩ := exists_run_of_length 2147483648
  refine ⟨tr, m, hrun, hlength, ?_⟩
  rw [(alarmed_run exactRates hrun).cnt, hlength]
  rfl

end WormsAttack.Monitor
