/-
  The probabilities of the networks.

  A network starts with its ratio as its probability, and `updateNetworkProbabilities` divides
  the probability by the sum of all ratios.
-/
import WormsAttack.Foundation.Run
import WormsAttack.Traffic.Handlers
import Mathlib.Algebra.BigOperators.Ring.Finset
import Mathlib.Algebra.BigOperators.Ring.List
import Mathlib.Algebra.Order.BigOperators.Group.List
import Mathlib.Tactic.Linarith

namespace WormsAttack.Traffic

open Foundation List

structure Ratio where
  value : Int
  pos : 0 < value

inductive NetworkEvent
  | addSubCM (manager : Nat) (moduleId : Int) (ratio : Ratio)
  | updateNetworkProbabilities

def networkStep (m : ConnectionManager) :
    NetworkEvent → Except Stop (ConnectionManager × List ForeignNetwork)
  | .addSubCM manager moduleId ratio =>
      let m := m.addSubCM (.new manager moduleId ratio.value)
      .ok (m, m.subCM)
  | .updateNetworkProbabilities => do
      let m ← m.updateNetworkProbabilities
      .ok (m, m.subCM)

/-! ## Sums of ratios -/

def totalRatio (networks : List ForeignNetwork) : Int := (networks.map (·.ratio)).sum

/-- The probability of each network is its share of the ratios, and they add up to 1. -/
def Normalised (networks : List ForeignNetwork) : Prop :=
  (∀ net ∈ networks, net.probability = .finite (net.ratio / totalRatio networks)) ∧
    (networks ≠ [] → (networks.map (·.probability)).foldl (· + ·) 0 = 1)

section Totals

variable {networks : List ForeignNetwork}

theorem totalRatio_pos (hpos : ∀ net ∈ networks, 0 < net.ratio) (hne : networks ≠ []) :
    0 < totalRatio networks := by
  refine sum_pos _ (fun r hr => ?_) ?_
  · obtain ⟨net, hnet, rfl⟩ := mem_map.mp hr
    exact hpos net hnet
  · rwa [Ne, map_eq_nil_iff]

theorem foldl_ratio (networks : List ForeignNetwork) :
    (networks.map fun net => Double.finite net.ratio).foldl (· + ·) 0 =
      .finite (totalRatio networks) := by
  have hfold := Double.foldl_add_finite (networks.map fun net => (net.ratio : Rat)) 0
  rw [map_map, zero_add] at hfold
  unfold totalRatio
  rw [Int.cast_list_sum, map_map]
  exact hfold

theorem foldl_share (hpos : 0 < totalRatio networks)
    (h : ∀ net ∈ networks, net.probability = .finite (net.ratio / totalRatio networks)) :
    (networks.map (·.probability)).foldl (· + ·) 0 = (1 : Double) := by
  have hne : (totalRatio networks : Rat) ≠ 0 := by exact_mod_cast hpos.ne'
  have hshares : networks.map (·.probability) =
      (networks.map fun net => (net.ratio : Rat) * (totalRatio networks : Rat)⁻¹).map .finite := by
    rw [map_map]
    refine map_congr_left fun net hnet => ?_
    rw [h net hnet, div_eq_mul_inv]
    rfl
  have hfold := Double.foldl_add_finite
    (networks.map fun net => (net.ratio : Rat) * (totalRatio networks : Rat)⁻¹) 0
  have hsum : (networks.map fun net => (net.ratio : Rat)).sum = totalRatio networks := by
    unfold totalRatio
    rw [Int.cast_list_sum, map_map]
    rfl
  rw [hshares]
  refine hfold.trans ?_
  rw [sum_map_mul_right, hsum, mul_inv_cancel₀ hne, zero_add]
  rfl

end Totals

/-! ## One update -/

def updated (networks : List ForeignNetwork) : List ForeignNetwork :=
  networks.map fun net =>
    { net with probability := net.probability / .finite (totalRatio networks) }

theorem updateNetworkProbabilities_eq {m : ConnectionManager} (htop : m.isTopCM = true) :
    m.updateNetworkProbabilities =
      .ok { m with networkProbabilityIsDirty := false, subCM := updated m.subCM } := by
  unfold ConnectionManager.updateNetworkProbabilities
  rw [htop, foldl_ratio]
  rfl

theorem totalRatio_updated (networks : List ForeignNetwork) :
    totalRatio (updated networks) = totalRatio networks := by
  unfold totalRatio updated
  rw [map_map]
  rfl

/-! ## Runs -/

def registeredRatio : List NetworkEvent → Int
  | [] => 0
  | .addSubCM _ _ ratio :: es => registeredRatio es + ratio.value
  | .updateNetworkProbabilities :: es => registeredRatio es

def Small : List NetworkEvent → Prop
  | [] => True
  | .addSubCM _ _ _ :: es => Small es
  | .updateNetworkProbabilities :: es => registeredRatio es ≤ 1 ∧ Small es

def SmallButLast : List NetworkEvent → Prop
  | [] => True
  | .addSubCM _ _ _ :: es => SmallButLast es
  | .updateNetworkProbabilities :: es => Small es

theorem Small.butLast {es : List NetworkEvent} (h : Small es) : SmallButLast es := by
  induction es with
  | nil => trivial
  | cons e es ih =>
    cases e with
    | addSubCM => exact ih h
    | updateNetworkProbabilities => exact h.2

structure Shares (es : List NetworkEvent) (m : ConnectionManager) : Prop where
  top : m.isTopCM = true
  total : totalRatio m.subCM = registeredRatio es
  pos : ∀ net ∈ m.subCM, 0 < net.ratio
  undivided : Small es → ∀ net ∈ m.subCM, net.probability = .finite net.ratio
  divided : ¬ Small es → ∃ net ∈ m.subCM, ∃ q : Rat, 1 < q ∧
    net.probability = .finite (net.ratio / q)

section Steps

variable {es : List NetworkEvent} {m m' : ConnectionManager} {out : List ForeignNetwork}

theorem shares_start (htop : m.isTopCM = true) (hempty : m.subCM = []) : Shares [] m := by
  refine ⟨htop, ?_, ?_, ?_, fun h => absurd trivial h⟩
  · rw [hempty]
    rfl
  · rw [hempty]
    exact forall_mem_nil _
  · rw [hempty]
    exact fun _ => forall_mem_nil _

theorem shares_addSubCM (h : Shares es m) (manager : Nat) (moduleId : Int) (ratio : Ratio) :
    Shares (.addSubCM manager moduleId ratio :: es)
      (m.addSubCM (.new manager moduleId ratio.value)) := by
  have hadd : m.addSubCM (.new manager moduleId ratio.value) =
      { m with
        isFlatNet := false
        subCM := m.subCM ++ [.new manager moduleId ratio.value]
        networkProbabilityIsDirty := true } := by
    unfold ConnectionManager.addSubCM
    rw [h.top]
    rfl
  rw [hadd]
  refine ⟨h.top, ?_, ?_, fun hsmall => ?_, fun hlarge => ?_⟩
  · unfold totalRatio
    rw [map_append, sum_append]
    exact congrArg₂ (· + ·) h.total (sum_singleton)
  · exact forall_mem_append.mpr ⟨h.pos, forall_mem_singleton.mpr ratio.pos⟩
  · exact forall_mem_append.mpr ⟨h.undivided hsmall, forall_mem_singleton.mpr rfl⟩
  · obtain ⟨net, hnet, hdivided⟩ := h.divided hlarge
    exact ⟨net, mem_append_left _ hnet, hdivided⟩

theorem mem_updated {networks : List ForeignNetwork} {net : ForeignNetwork} (h : net ∈ networks)
    {x : Rat} (hprobability : net.probability = .finite x) (htotal : 0 < totalRatio networks) :
    { net with probability := .finite (x / totalRatio networks) } ∈ updated networks := by
  have hne : (totalRatio networks : Rat) ≠ 0 := by exact_mod_cast htotal.ne'
  rw [← Double.finite_div hne, ← hprobability]
  exact mem_map_of_mem h

/-- The networks are right after an update exactly if all updates before it were small. -/
theorem normalised_updated (h : Shares es m) : Normalised (updated m.subCM) ↔ Small es := by
  constructor
  · intro hnormalised
    by_contra hlarge
    obtain ⟨net, hnet, q, hq, hprobability⟩ := h.divided hlarge
    have htotal := totalRatio_pos h.pos (ne_nil_of_mem hnet)
    have hafter := hnormalised.1 _ (mem_updated hnet hprobability htotal)
    rw [totalRatio_updated] at hafter
    have hne : (totalRatio m.subCM : Rat) ≠ 0 := by exact_mod_cast htotal.ne'
    have hratio : (net.ratio : Rat) ≠ 0 := by exact_mod_cast (h.pos net hnet).ne'
    have hsame : (net.ratio : Rat) / q = net.ratio :=
      (div_left_inj' hne).mp (Double.finite.inj hafter)
    have hone : q = 1 := by
      rw [div_eq_iff (by linarith)] at hsame
      exact (mul_eq_left₀ hratio).mp hsame.symm
    linarith
  · intro hsmall
    have hshares : ∀ net ∈ updated m.subCM,
        net.probability = .finite (net.ratio / totalRatio (updated m.subCM)) := by
      intro net hnet
      obtain ⟨net', hnet', rfl⟩ := mem_map.mp hnet
      have htotal := totalRatio_pos h.pos (ne_nil_of_mem hnet')
      have hne : (totalRatio m.subCM : Rat) ≠ 0 := by exact_mod_cast htotal.ne'
      rw [totalRatio_updated, ← Double.finite_div hne, ← h.undivided hsmall net' hnet']
    refine ⟨hshares, fun hne => foldl_share ?_ hshares⟩
    rw [totalRatio_updated]
    refine totalRatio_pos h.pos ?_
    rwa [updated, Ne, map_eq_nil_iff] at hne

theorem shares_update (h : Shares es m) :
    Shares (.updateNetworkProbabilities :: es)
      { m with networkProbabilityIsDirty := false, subCM := updated m.subCM } := by
  refine ⟨h.top, (totalRatio_updated _).trans h.total, ?_, fun hsmall => ?_, fun hlarge => ?_⟩
  · intro net hnet
    obtain ⟨net', hnet', rfl⟩ := mem_map.mp hnet
    exact h.pos net' hnet'
  · intro net hnet
    obtain ⟨net', hnet', rfl⟩ := mem_map.mp hnet
    -- the only network, with ratio 1
    have htotal := totalRatio_pos h.pos (ne_nil_of_mem hnet')
    have hle : totalRatio m.subCM ≤ 1 := h.total.trans_le hsmall.1
    have hone : totalRatio m.subCM = 1 := by omega
    rw [hone, h.undivided hsmall.2 net' hnet', Double.finite_div (by decide), Int.cast_one, div_one]
  · by_cases hsmall : Small es
    · -- this update is the first one that is not small
      have hsum : 1 < totalRatio m.subCM := by
        rw [h.total]
        exact not_le.mp fun hle => hlarge ⟨hle, hsmall⟩
      obtain ⟨net, hnet⟩ := exists_mem_of_ne_nil m.subCM fun hnil => by
        rw [hnil] at hsum
        exact absurd hsum (by decide)
      have hmem := mem_updated hnet (h.undivided hsmall net hnet) (by omega)
      exact ⟨_, hmem, totalRatio m.subCM, by exact_mod_cast hsum, rfl⟩
    · obtain ⟨net, hnet, q, hq, hprobability⟩ := h.divided hsmall
      have htotal := totalRatio_pos h.pos (ne_nil_of_mem hnet)
      have hge : (1 : Rat) ≤ totalRatio m.subCM := by exact_mod_cast htotal
      refine ⟨_, mem_updated hnet hprobability htotal, q * totalRatio m.subCM, ?_, ?_⟩
      · exact one_lt_mul_of_lt_of_le hq hge
      · rw [div_div]

theorem shares_step (h : Shares es m) {e : NetworkEvent} (hstep : networkStep m e = .ok (m', out)) :
    Shares (e :: es) m' ∧
      (e = .updateNetworkProbabilities → (Normalised out ↔ Small es)) := by
  cases e with
  | addSubCM manager moduleId ratio =>
    cases hstep
    exact ⟨shares_addSubCM h manager moduleId ratio, NetworkEvent.noConfusion⟩
  | updateNetworkProbabilities =>
    obtain ⟨m₁, hupdate, hstep⟩ := bind_eq_ok.mp hstep
    rw [updateNetworkProbabilities_eq h.top] at hupdate
    cases hupdate
    cases hstep
    exact ⟨shares_update h, fun _ => normalised_updated h⟩

theorem shares_run {m₀ : ConnectionManager}
    {tr : List (Step ConnectionManager NetworkEvent (List ForeignNetwork))}
    (htop : m₀.isTopCM = true) (hempty : m₀.subCM = []) (hrun : Run networkStep m₀ tr m) :
    Shares (tr.map Step.event) m :=
  hrun.invariant (I := fun tr m => Shares (tr.map Step.event) m) (shares_start htop hempty)
    fun _ _ _ _ _ hshares hstep => (shares_step hshares hstep).1

end Steps

/-- The networks are right after each update exactly if each update but the last one is made when
the ratios add up to at most 1. -/
theorem networks_normalised_iff {m₀ m : ConnectionManager}
    {tr : List (Step ConnectionManager NetworkEvent (List ForeignNetwork))}
    (htop : m₀.isTopCM = true) (hempty : m₀.subCM = []) (hrun : Run networkStep m₀ tr m) :
    (∀ st ∈ tr, st.event = .updateNetworkProbabilities → Normalised st.out) ↔
      SmallButLast (tr.map Step.event) := by
  induction hrun with
  | start => exact iff_of_true (forall_mem_nil _) trivial
  | @next tr m m' e out hprev hstep ih =>
    obtain ⟨-, hout⟩ := shares_step (shares_run htop hempty hprev) hstep
    rw [forall_mem_cons, ih]
    cases e with
    | addSubCM => exact and_iff_right NetworkEvent.noConfusion
    | updateNetworkProbabilities =>
      constructor
      · rintro ⟨hnew, -⟩
        exact (hout rfl).mp (hnew rfl)
      · intro hsmall
        exact ⟨fun _ => (hout rfl).mpr hsmall, Small.butLast hsmall⟩

def globalManager : ConnectionManager :=
  { ConnectionManager.new 1 with isTopCM := true, topCM := some 0 }

def lateNetwork : List NetworkEvent :=
  [.addSubCM 1 2 ⟨1, by decide⟩, .addSubCM 2 3 ⟨1, by decide⟩, .updateNetworkProbabilities,
    .addSubCM 3 4 ⟨1, by decide⟩, .updateNetworkProbabilities]

theorem networks_not_normalised :
    replays networkStep globalManager lateNetwork = true ∧
    (replayState networkStep globalManager lateNetwork).subCM.map (·.probability) =
      [.finite (1 / 6), .finite (1 / 6), .finite (1 / 3)] := by
  decide +kernel

def earlyNetworks : List NetworkEvent :=
  [.addSubCM 1 2 ⟨1, by decide⟩, .addSubCM 2 3 ⟨2, by decide⟩, .updateNetworkProbabilities]

theorem networks_normalised_once :
    Normalised (replayState networkStep globalManager earlyNetworks).subCM := by
  have hrun : replays networkStep globalManager earlyNetworks = true := rfl
  have hsmall :
      SmallButLast ((replayTrace networkStep globalManager earlyNetworks).map Step.event) := trivial
  exact (networks_normalised_iff rfl rfl (run_of_replays hrun)).mpr hsmall _ mem_cons_self rfl

end WormsAttack.Traffic
