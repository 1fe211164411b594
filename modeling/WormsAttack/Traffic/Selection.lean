/-
  Which profile is selected.
-/
import WormsAttack.Traffic.Profiles
import Mathlib.Algebra.BigOperators.Ring.List
import Mathlib.Order.Bounds.Defs
import Mathlib.Tactic.FieldSimp
import Mathlib.Tactic.Linarith

namespace WormsAttack.Traffic

open Foundation List

def Weighted (profiles : List TrafficProfile) (weights : List Rat) : Prop :=
  profiles.map (·.probability) = weights.map Double.finite

/-- The loop stops at the first position at which the sum is not below the random number, or
at the last one. -/
theorem scan_spec (prob : Rat) :
    ∀ (profiles : List TrafficProfile) (weights : List Rat) (cum : Rat),
      Weighted profiles weights → profiles ≠ [] →
      (∀ j < scan prob (.finite cum) profiles, cum + (weights.take (j + 1)).sum < prob) ∧
        (scan prob (.finite cum) profiles + 1 < profiles.length →
          prob ≤ cum + (weights.take (scan prob (.finite cum) profiles + 1)).sum)
  | [_], _, cum, _, _ => by simp [scan]
  | t :: next :: rest, [], cum, hweights, _ => by cases hweights
  | t :: next :: rest, w :: weights, cum, hweights, _ => by
    obtain ⟨ht, hrest⟩ := cons.inj hweights
    have ih := scan_spec prob (next :: rest) weights (cum + w) hrest (cons_ne_nil _ _)
    have hscan : scan prob (.finite cum) (t :: next :: rest) =
        if prob ≤ cum + w then 0 else scan prob (.finite (cum + w)) (next :: rest) + 1 := by
      rw [scan, show t.probability = .finite w from ht, Double.finite_add, Double.finite_ge]
      simp only [decide_eq_true_eq]
    rw [hscan]
    split
    · rename_i hreached
      exact ⟨fun j hj => absurd hj (Nat.not_lt_zero j), fun _ => by simpa using hreached⟩
    · rename_i hbelow
      obtain ⟨hbefore, hreached⟩ := ih
      constructor
      · intro j hj
        cases j with
        | zero => simpa using hbelow
        | succ j =>
          rw [take_succ_cons, sum_cons, ← add_assoc]
          exact hbefore j (Nat.lt_of_succ_lt_succ hj)
      · intro hlt
        rw [take_succ_cons, sum_cons, ← add_assoc]
        exact hreached (Nat.lt_of_succ_lt_succ hlt)

variable {profiles : List TrafficProfile} {ratios : List Rat}

theorem weighted_normalise (h : Weighted profiles ratios) (hpos : ratios.sum ≠ 0) :
    Weighted (normalise profiles) (ratios.map (· / ratios.sum)) := by
  have hcum : cumRatio profiles = .finite ratios.sum := by
    rw [cumRatio, h, Double.ofNat_eq, Double.foldl_add_finite, Nat.cast_zero, zero_add]
  have hdivided := congrArg (map (· / Double.finite ratios.sum)) h
  rw [map_map, map_map] at hdivided
  calc (normalise profiles).map (·.probability)
      = profiles.map ((· / Double.finite ratios.sum) ∘ (·.probability)) := by
        rw [normalise, map_map, hcum]
        rfl
    _ = ratios.map ((· / Double.finite ratios.sum) ∘ Double.finite) := hdivided
    _ = (ratios.map (· / ratios.sum)).map Double.finite := by
        rw [map_map]
        exact map_congr_left fun r _ => Double.finite_div hpos

theorem sum_take_div (ratios : List Rat) (total : Rat) (n : Nat) :
    ((ratios.map (· / total)).take n).sum = (ratios.take n).sum / total := by
  simp only [← map_take, div_eq_mul_inv, sum_map_mul_right, map_id']

/-- The positions at which the ratios up to there make up the share `prob` of all. -/
def reached (ratios : List Rat) (prob : Rat) : Set Nat :=
  { i | i < ratios.length ∧ prob * ratios.sum ≤ (ratios.take (i + 1)).sum }

theorem isLeast_scan
    (hne : profiles ≠ []) (h : Weighted profiles ratios) (hpos : 0 < ratios.sum) {prob : Rat}
    (hprob : prob ≤ 1) : IsLeast (reached ratios prob) (scan prob 0 (normalise profiles)) := by
  have hlength : (normalise profiles).length = ratios.length := by
    rw [normalise, length_map, ← length_map, h, length_map]
  have hlt := scan_lt prob 0 (normalise_ne_nil hne)
  obtain ⟨hbefore, hreached⟩ := scan_spec prob (normalise profiles) _ 0
    (weighted_normalise h hpos.ne') (normalise_ne_nil hne)
  simp only [zero_add, sum_take_div, div_lt_iff₀ hpos, le_div_iff₀ hpos] at hbefore hreached
  refine ⟨⟨hlength ▸ hlt, ?_⟩, fun j hj => ?_⟩
  · by_cases hlast : scan prob 0 (normalise profiles) + 1 < (normalise profiles).length
    · exact hreached hlast
    · -- the last profile: the ratios up to there are all ratios
      rw [take_of_length_le (by omega)]
      exact mul_le_of_le_one_left hpos.le hprob
  · by_contra hless
    exact absurd hj.2 (not_le.mpr (hbefore j (not_le.mp hless)))

/-- `getTrafficProfile` returns the first profile at which the ratios make up the share that was
drawn. -/
theorem selected_least {profiles : List TrafficProfile} {ratios : List Rat}
    (hne : profiles ≠ []) (h : Weighted profiles ratios) (hpos : 0 < ratios.sum) {prob : Rat}
    (hprob : prob ≤ 1) (foreignServerProb : Rat) (isForeign : Bool) :
    ∃ i, IsLeast (reached ratios prob) i ∧
      (normalise profiles)[i]? =
        some ((TrafficProfileManager.ofProfiles profiles hne).getTrafficProfile prob
          foreignServerProb isForeign).1 :=
  ⟨_, isLeast_scan hne h hpos hprob, getElem?_eq_getElem _⟩

def threeProfiles : List TrafficProfile :=
  [{ TrafficProfile.new with profileID := 3, label := "Web".toList, probability := 1 },
    { TrafficProfile.new with profileID := 13, label := "Misc".toList, probability := 0 },
    { TrafficProfile.new with profileID := 21, label := "Ping".toList, probability := 2 }]

theorem selected_least_three :
    ∃ i, IsLeast (reached [1, 0, 2] (1 / 2)) i ∧
      (normalise threeProfiles)[i]? =
        some ((TrafficProfileManager.ofProfiles threeProfiles (by decide)).getTrafficProfile
          (1 / 2) 0 false).1 :=
  have h : Weighted threeProfiles [1, 0, 2] := rfl
  selected_least (by decide) h (by decide +kernel) (by decide +kernel) 0 false

end WormsAttack.Traffic
