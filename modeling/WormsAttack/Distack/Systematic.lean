/-
  The systematic sampling modules of Distack.

  Sources: distack-1.2.3-dev/src/modules/sampling/ModuleSamplingSystematicCountBased.cpp and
  ModuleSamplingSystematicTimeBased.cpp.

  The frame counter is increased only for a frame that is not selected.
-/
import WormsAttack.Foundation.Machine

namespace WormsAttack.Distack.Sampling

open Foundation

/-! ## By the number of frames -/

structure SystematicCountBased where
  samplingCount : UInt64
  selectionCount : UInt64
  currentFrameCount : UInt64

namespace SystematicCountBased

def new : SystematicCountBased :=
  { samplingCount := 0, selectionCount := 0, currentFrameCount := 0 }

def configure (m : SystematicCountBased) :
    (samplingCount selectionCount : Option Int64) → SystematicCountBased × Bool
  | some sampling, some selection =>
      ({ m with samplingCount := sampling.toUInt64, selectionCount := selection.toUInt64 },
        selection.toUInt64 ≤ sampling.toUInt64)
  | _, _ => (m, false)

def frameCall (m : SystematicCountBased) : SystematicCountBased × Bool :=
  if m.currentFrameCount < m.selectionCount then (m, true)
  else if m.currentFrameCount + 1 < m.samplingCount then
    ({ m with currentFrameCount := m.currentFrameCount + 1 }, false)
  else ({ m with currentFrameCount := 0 }, false)

def answers (m : SystematicCountBased) : (frames : Nat) → List Bool
  | 0 => []
  | frames + 1 => m.frameCall.2 :: m.frameCall.1.answers frames

def block (m : SystematicCountBased) (i : Nat) : List Bool :=
  (m.answers ((i + 1) * m.samplingCount.toNat)).drop (i * m.samplingCount.toNat)

variable {m : SystematicCountBased}

theorem answers_of_lt (h : m.currentFrameCount < m.selectionCount) (frames : Nat) :
    m.answers frames = List.replicate frames true := by
  have hcall : m.frameCall = (m, true) := if_pos h
  induction frames with
  | zero => rfl
  | succ frames ih => rw [answers, hcall, ih, List.replicate_succ]

theorem answers_of_none (h : m.selectionCount = 0) (frames : Nat) :
    m.answers frames = List.replicate frames false := by
  induction frames generalizing m with
  | zero => rfl
  | succ frames ih =>
    have hcall : m.frameCall.2 = false ∧ m.frameCall.1.selectionCount = 0 := by
      have hnot : ¬ m.currentFrameCount < m.selectionCount := by
        rw [h]
        apply UInt64.not_lt_zero
      rw [frameCall, if_neg hnot]
      split <;> exact ⟨rfl, h⟩
    rw [answers, hcall.1, ih hcall.2, List.replicate_succ]

theorem block_replicate {ret : Bool} (h : ∀ frames, m.answers frames = List.replicate frames ret)
    (i : Nat) : m.block i = List.replicate m.samplingCount.toNat ret := by
  rw [block, h, List.drop_replicate, Nat.succ_mul, Nat.add_sub_cancel_left]

/-- Every block of frames has the configured number of selected ones exactly if none is to be
selected, or all are. -/
theorem block_selected_iff {m : SystematicCountBased} {sampling selection : Int64}
    (hm : new.configure (some sampling) (some selection) = (m, true))
    (hselection : 0 ≤ selection.toInt) (hsampling : 1 ≤ sampling.toInt) :
    (∀ i, (m.block i).count true = selection.toInt) ↔
      selection.toInt = 0 ∨ selection.toInt = sampling.toInt := by
  have hsame := toNat_toUInt64_of_nonneg hselection
  have hsame' := toNat_toUInt64_of_nonneg (n := sampling) (by omega)
  obtain rfl := (Prod.mk.inj hm).1
  by_cases hzero : selection.toInt = 0
  · have hnone : selection.toUInt64 = 0 := UInt64.toNat_inj.mp (by rw [UInt64.toNat_zero]; omega)
    refine iff_of_true (fun i => ?_) (.inl hzero)
    rw [block_replicate (answers_of_none hnone), List.count_replicate, hzero]
    rfl
  · have hsome : (0 : UInt64) < selection.toUInt64 :=
      UInt64.lt_iff_toNat_lt.mpr (by rw [UInt64.toNat_zero]; omega)
    have hall := block_replicate (answers_of_lt (m := ⟨sampling.toUInt64, selection.toUInt64, 0⟩)
      hsome)
    have hcount : ∀ i, ((block ⟨sampling.toUInt64, selection.toUInt64, 0⟩ i).count true : Int) =
        sampling.toInt := by
      intro i
      rw [hall, List.count_replicate_self]
      exact hsame'
    constructor
    · intro h
      exact .inr ((h 0).symm.trans (hcount 0))
    · rintro (h | h) i
      · exact absurd h hzero
      · exact (hcount i).trans h.symm

theorem block_selected_all :
    ((new.configure (some 3) (some 3)).1.block 4).count true = (3 : Int64).toInt :=
  (block_selected_iff rfl (by decide) (by decide)).mpr (.inr rfl) 4

theorem block_selects_all :
    (new.configure (some 3) (some 1)).2 = true ∧
      (new.configure (some 3) (some 1)).1.block 0 = [true, true, true] := by
  decide

end SystematicCountBased

/-! ## By the time -/

inductive Halt
  | divisionByZero
  | assertion

structure SystematicTimeBased where
  selectionDuration : UInt64
  samplingDuration : UInt64
  intervalStart : UInt64

namespace SystematicTimeBased

def new : SystematicTimeBased :=
  { selectionDuration := 0, samplingDuration := 0, intervalStart := 0 }

def configure (m : SystematicTimeBased) (now : UInt64) :
    (selectionDuration samplingDuration : Option Int64) → SystematicTimeBased × Bool
  | some selection, some sampling =>
      ({ m with
          selectionDuration := selection.toUInt64
          samplingDuration := sampling.toUInt64
          intervalStart := now },
        selection.toUInt64 ≤ sampling.toUInt64)
  | _, _ => (m, false)

def offset (m : SystematicTimeBased) (now : UInt64) : Except Halt UInt64 :=
  let nowDiff := now - m.intervalStart
  if m.samplingDuration < nowDiff then
    if m.samplingDuration = 0 then .error .divisionByZero
    else .ok (nowDiff % m.samplingDuration)
  else .ok nowDiff

def frameCall (m : SystematicTimeBased) (now : UInt64) : Except Halt Bool := do
  let offset ← m.offset now
  if offset ≤ m.samplingDuration then .ok (decide (offset ≤ m.selectionDuration))
  else .error .assertion

def inSelection (m : SystematicTimeBased) (now : UInt64) : Bool :=
  decide ((now.toNat - m.intervalStart.toNat) % m.samplingDuration.toNat <
    m.selectionDuration.toNat)

variable {m : SystematicTimeBased} {now : UInt64}

theorem frameCall_eq (hperiod : 0 < m.samplingDuration.toNat) (hnow : m.intervalStart ≤ now) :
    m.frameCall now = .ok (decide
      ((if now.toNat - m.intervalStart.toNat = m.samplingDuration.toNat then
          m.samplingDuration.toNat
        else (now.toNat - m.intervalStart.toNat) % m.samplingDuration.toNat) ≤
        m.selectionDuration.toNat)) := by
  have hdiff := UInt64.toNat_sub_of_le now m.intervalStart hnow
  have hlt := Nat.mod_lt (now.toNat - m.intervalStart.toNat) hperiod
  rw [frameCall, offset, ← hdiff]
  rw [← hdiff] at hlt
  split
  · rename_i hlonger
    have hne : m.samplingDuration ≠ 0 := fun h => Nat.ne_of_gt hperiod (by rw [h]; rfl)
    have hmod := UInt64.toNat_mod (now - m.intervalStart) m.samplingDuration
    have hle : (now - m.intervalStart) % m.samplingDuration ≤ m.samplingDuration := by
      exact Nat.le_of_lt hlt
    rw [UInt64.lt_iff_toNat_lt] at hlonger
    rw [if_neg hne, if_neg (Nat.ne_of_gt hlonger), ← hmod]
    exact if_pos hle
  · rename_i hshorter
    rw [UInt64.not_lt] at hshorter
    have hsame : (if (now - m.intervalStart).toNat = m.samplingDuration.toNat then
        m.samplingDuration.toNat else (now - m.intervalStart).toNat % m.samplingDuration.toNat) =
        (now - m.intervalStart).toNat := by
      rw [UInt64.le_iff_toNat_le] at hshorter
      split
      · omega
      · exact Nat.mod_eq_of_lt (by omega)
    rw [hsame]
    exact if_pos hshorter

theorem frameCall_of_no_period (hperiod : m.samplingDuration = 0) :
    m.frameCall now ≠ .ok false := by
  intro h
  rw [frameCall, offset, hperiod] at h
  split at h
  · cases h
  rename_i hzero
  have hdiff : now - m.intervalStart = 0 :=
    UInt64.le_zero_iff.mp (UInt64.not_lt.mp hzero)
  rw [hdiff] at h
  have hselected : decide (0 ≤ m.selectionDuration) = true := decide_eq_true UInt64.zero_le
  cases hselected.symm.trans (Except.ok.inj h)

/-- A frame is selected as it should be exactly if there is a period and the frame does not come at
the end of the selected time. -/
theorem frameCall_exact_iff {m : SystematicTimeBased} {start now : UInt64}
    {selection sampling : Int64}
    (hm : new.configure start (some selection) (some sampling) = (m, true)) (hnow : start ≤ now) :
    m.frameCall now = .ok (m.inSelection now) ↔
      m.samplingDuration ≠ 0 ∧
        if now.toNat - start.toNat = m.samplingDuration.toNat then
          m.selectionDuration.toNat = 0 ∨
            m.selectionDuration.toNat = m.samplingDuration.toNat
        else (now.toNat - start.toNat) % m.samplingDuration.toNat ≠ m.selectionDuration.toNat := by
  obtain ⟨hm, haccepted⟩ := Prod.mk.inj hm
  have hstart : m.intervalStart = start := by rw [← hm]
  have hle : m.selectionDuration ≤ m.samplingDuration := by
    rw [← hm]
    exact of_decide_eq_true haccepted
  rw [UInt64.le_iff_toNat_le] at hle
  rw [← hstart] at hnow ⊢
  by_cases hperiod : m.samplingDuration = 0
  · refine iff_of_false ?_ fun h => h.1 hperiod
    have hnone : m.inSelection now = false := by
      rw [hperiod, UInt64.toNat_zero] at hle
      rw [inSelection, Nat.le_zero.mp hle]
      rfl
    rw [hnone]
    exact frameCall_of_no_period hperiod
  · have hpos : 0 < m.samplingDuration.toNat :=
      Nat.pos_of_ne_zero fun h => hperiod (UInt64.toNat_inj.mp h)
    rw [frameCall_eq hpos hnow, inSelection, Except.ok.injEq, decide_eq_decide,
      and_iff_right hperiod]
    split
    · rename_i hend
      rw [hend, Nat.mod_self]
      omega
    · omega

theorem frameCall_exact_later :
    (⟨2, 10, 5⟩ : SystematicTimeBased).frameCall 16 = .ok true := by
  have hm : new.configure 5 (some 2) (some 10) = (⟨2, 10, 5⟩, true) := rfl
  have hnow : (5 : UInt64) ≤ 16 := by decide
  exact (frameCall_exact_iff hm hnow).mpr (by decide)

theorem end_of_selection_selected :
    (new.configure 5 (some 2) (some 10)).2 = true ∧
      (new.configure 5 (some 2) (some 10)).1.frameCall 7 = .ok true ∧
      (new.configure 5 (some 2) (some 10)).1.inSelection 7 = false :=
  ⟨rfl, rfl, rfl⟩

end SystematicTimeBased

end WormsAttack.Distack.Sampling
