/-
  Hosts whose failures are matched by traffic of their own.
-/
import Mathlib.Algebra.Order.Field.Basic
import Mathlib.Tactic.Linarith
import WormsAttack.Foundation.Tally
import WormsAttack.Ids.Publication

namespace WormsAttack.Ids

open Foundation Inet Omnet

instance Fits.decidable (m : Message) : Decidable (Fits m) :=
  match m with
  | ⟨_, _, .datagram _⟩ => inferInstanceAs (Decidable (_ → ∀ p ∈ _, _))
  | ⟨_, _, .plain⟩ => isTrue trivial
  | ⟨_, _, .packet⟩ => isTrue trivial
  | ⟨_, _, .ipBlock _ _⟩ => isTrue trivial

/-- A datagram from `a` that is not an unreachable message and is counted. -/
def countedFrom (a : IPAddress) (m : Message) : Bool :=
  decide (otherFrom m = some a) && decide (Fits m)

/-- Each unreachable message to `a` is preceded by a datagram from `a` that is its own.  The
messages stand newest first. -/
def Paired (a : IPAddress) (ms : List Message) : Prop :=
  ∃ partner : Nat → Nat,
    (∀ i m, ms[i]? = some m → unreachableTo m = some a →
      i < partner i ∧ ∃ m', ms[partner i]? = some m' ∧ countedFrom a m' = true) ∧
    ∀ i j m m', ms[i]? = some m → unreachableTo m = some a → ms[j]? = some m' →
      unreachableTo m' = some a → partner i = partner j → i = j

variable {a : IPAddress} {ms : List Message} {m : Message} {x : IDSModule} {out : List Action}
  {x' : IDSModule} {limit : Rat}

theorem Paired.suffix {later earlier : List Message} (h : Paired a (later ++ earlier)) :
    Paired a earlier := by
  obtain ⟨partner, hpartner, hown⟩ := h
  have hshift : ∀ {i : Nat}, (later ++ earlier)[later.length + i]? = earlier[i]? := by
    intro i
    rw [List.getElem?_append_right (Nat.le_add_right _ _), Nat.add_sub_cancel_left]
  refine ⟨fun i => partner (later.length + i) - later.length, ?_, ?_⟩
  · intro i m hm hto
    obtain ⟨hlt, m', hm', hcounted⟩ := hpartner (later.length + i) m (hshift.trans hm) hto
    refine ⟨Nat.lt_sub_of_add_lt (by omega), m', ?_, hcounted⟩
    rwa [← hshift, Nat.add_sub_cancel' (by omega)]
  · intro i j m m' hm hto hm' hto' heq
    have hi := (hpartner _ m (hshift.trans hm) hto).1
    simp only at heq
    have hsame := hown _ _ m m' (hshift.trans hm) hto (hshift.trans hm') hto' (by omega)
    omega

theorem Paired.ghosts_le (h : Paired a ms) : ghosts a ms ≤ ms.countP (countedFrom a) := by
  obtain ⟨partner, hpartner, hown⟩ := h
  refine Tally.countP_le_of_pairing partner ?_ ?_
  · intro i m hm hto
    exact (hpartner i m hm (of_decide_eq_true hto)).2
  · intro i j m m' hm hto hm' hto'
    exact hown i j m m' hm (of_decide_eq_true hto) hm' (of_decide_eq_true hto')

/-! ## The counters -/

theorem handled_of_not_fits (hfits : ¬ Fits m) (h : handleMessage x m = .ok (x', out)) :
    x' = x ∧ out = [.sendDistack m] := by
  obtain ⟨id, name, body⟩ := m
  cases body with
  | plain | packet | ipBlock => exact absurd trivial hfits
  | datagram d =>
    simp only [Fits, not_forall] at hfits
    obtain ⟨hicmp, p, hp, hlength⟩ := hfits
    have hthrows : decapsulate d = .error .badLength := by
      unfold decapsulate
      rw [Option.mem_def.mp hp]
      exact if_neg hlength
    simp only [handleMessage, handleDatagram, hicmp, hthrows] at h
    cases h
    exact ⟨rfl, rfl⟩

/-- The counters of an address, as far as all messages that may be handled are concerned. -/
structure Bounded (limit : Rat) (ms : List Message) (x : IDSModule) : Prop where
  dropRatio : x.dropRatio = limit
  ghost : ∀ a : IPAddress, (x.ratioTable a.addr).ghostConn ≤ ghosts a ms
  real : ∀ a : IPAddress, 1 + ms.countP (countedFrom a) ≤ (x.ratioTable a.addr).realConn

theorem countGhost_dropRatio (x : IDSModule) (a : IPAddress) :
    (x.countGhost a).1.dropRatio = x.dropRatio := by
  simp only [IDSModule.countGhost]
  split <;> rfl

theorem countGhost_ratioTable (x : IDSModule) (a b : IPAddress) :
    ((x.countGhost a).1.ratioTable b.addr).ghostConn =
        (x.ratioTable b.addr).ghostConn + (if a = b then 1 else 0) ∧
      ((x.countGhost a).1.ratioTable b.addr).realConn = (x.ratioTable b.addr).realConn := by
  simp only [IDSModule.countGhost]
  by_cases hab : a = b
  · subst hab
    split <;> simp [Ratio.incGhost]
  · have hba : b ≠ a := Ne.symm hab
    split <;> simp [update_ne _ _ hba]

theorem incReal_ratioTable (x : IDSModule) (a b : IPAddress) :
    ((x.incReal a).ratioTable b.addr).ghostConn = (x.ratioTable b.addr).ghostConn ∧
      ((x.incReal a).ratioTable b.addr).realConn =
        (x.ratioTable b.addr).realConn + if a = b then 1 else 0 := by
  by_cases hab : a = b
  · subst hab
    simp [IDSModule.incReal, Ratio.incReal]
  · have hba : b ≠ a := Ne.symm hab
    simp [IDSModule.incReal, update_ne _ _ hba, hab]

theorem Bounded.next (hi : Bounded limit ms x) (hlimit : x'.dropRatio = x.dropRatio)
    (hghost : ∀ a : IPAddress, (x'.ratioTable a.addr).ghostConn ≤
      (x.ratioTable a.addr).ghostConn + if unreachableTo m = some a then 1 else 0)
    (hreal : ∀ a : IPAddress, (x.ratioTable a.addr).realConn +
      (if countedFrom a m = true then 1 else 0) ≤ (x'.ratioTable a.addr).realConn) :
    Bounded limit (m :: ms) x' where
  dropRatio := hlimit.trans hi.dropRatio
  ghost := by
    intro a
    rw [ghosts_cons]
    exact (hghost a).trans (Nat.add_le_add_right (hi.ghost a) _)
  real := by
    intro a
    rw [List.countP_cons, ← Nat.add_assoc]
    exact (Nat.add_le_add_right (hi.real a) _).trans (hreal a)

theorem bounded_step (hi : Bounded limit ms x) (h : handleMessage x m = .ok (x', out)) :
    Bounded limit (m :: ms) x' := by
  by_cases hfits : Fits m
  · cases handled_of_step hfits h with
    | @ghost b hto hfrom =>
      refine hi.next (countGhost_dropRatio x b) (fun a => ?_) fun a => ?_
      · rw [(countGhost_ratioTable x b a).1, hto]
        simp
      · rw [(countGhost_ratioTable x b a).2, countedFrom, hfrom]
        simp
    | @real b hto hfrom =>
      refine hi.next rfl (fun a => ?_) fun a => ?_
      · rw [(incReal_ratioTable x b a).1]
        exact Nat.le_add_right _ _
      · rw [(incReal_ratioTable x b a).2]
        simp [countedFrom, hfrom, hfits]
    | pass hto hfrom =>
      exact hi.next rfl (fun _ => Nat.le_add_right _ _) fun a => by simp [countedFrom, hfrom]
  · obtain ⟨rfl, -⟩ := handled_of_not_fits hfits h
    exact hi.next rfl (fun _ => Nat.le_add_right _ _) fun a => by simp [countedFrom, hfits]

theorem bounded_run {tr : Trace} (h : Run handleMessage (initial limit) tr x) :
    Bounded limit (tr.map (·.event)) x := by
  induction h with
  | start => exact ⟨rfl, fun _ => Nat.le_refl _, fun _ => Nat.le_refl _⟩
  | next _ hstep ih => exact bounded_step ih hstep

/-! ## The share -/

theorem getRatio_lt_half {ratio : Ratio} (h : ratio.ghostConn < ratio.realConn) :
    ratio.getRatio < 1 / 2 := by
  have hlt : (ratio.ghostConn : Rat) < ratio.realConn := Nat.cast_lt.mpr h
  unfold Ratio.getRatio
  rw [Nat.cast_add, div_lt_div_iff₀ (by linarith) (by norm_num)]
  linarith

theorem Bounded.getRatio_lt (hi : Bounded limit ms x) (hpaired : Paired a ms) :
    (x.ratioTable a.addr).getRatio < 1 / 2 := by
  have hghost := hi.ghost a
  have hreal := hi.real a
  have hle := hpaired.ghosts_le
  exact getRatio_lt_half (by omega)

theorem publish_exceeds (h : handleMessage x m = .ok (x', out)) {name : String}
    {values : List String} (hmem : Action.publish name values ∈ out) :
    ∃ a : IPAddress, x.dropRatio < (x'.ratioTable a.addr).getRatio := by
  by_cases hfits : Fits m
  · cases handled_of_step hfits h with
    | @ghost a hto hfrom =>
      refine ⟨a, ?_⟩
      simp only [IDSModule.countGhost] at hmem ⊢
      split_ifs at hmem with hexceeds
      · rw [if_pos hexceeds]
        simpa [Ratio.getRatio] using hexceeds.2
      · simp at hmem
    | real | pass => simp at hmem
  · obtain ⟨-, rfl⟩ := handled_of_not_fits hfits h
    simp at hmem

/-- While each unreachable message to `a` is preceded by a datagram of its own, the share of `a` is
below one half. -/
theorem share_below_half {limit : Rat} {tr : Trace} {x : IDSModule}
    (h : Run handleMessage (initial limit) tr x) :
    (∀ a, Paired a (tr.map (·.event)) → ∀ earlier x', earlier <:+ tr →
      Run handleMessage (initial limit) earlier x' → (x'.ratioTable a.addr).getRatio < 1 / 2) ∧
    ((∀ a, Paired a (tr.map (·.event))) → 1 / 2 ≤ limit →
      ∀ st ∈ tr, ∀ name values, Action.publish name values ∉ st.out) := by
  have hbelow : ∀ a, Paired a (tr.map (·.event)) → ∀ earlier x', earlier <:+ tr →
      Run handleMessage (initial limit) earlier x' →
        (x'.ratioTable a.addr).getRatio < 1 / 2 := by
    rintro a hpaired earlier x' ⟨later, rfl⟩ hrun
    rw [List.map_append] at hpaired
    exact (bounded_run hrun).getRatio_lt hpaired.suffix
  refine ⟨hbelow, fun hpaired hlimit st hst name values hmem => ?_⟩
  obtain ⟨later, earlier, rfl⟩ := List.append_of_mem hst
  obtain ⟨x', hrun, hstep, hrun'⟩ := h.split later
  obtain ⟨a, hexceeds⟩ := publish_exceeds hstep hmem
  have hhalf := hbelow a (hpaired a) _ x' (List.suffix_append later _) hrun'
  rw [(bounded_run hrun).dropRatio] at hexceeds
  linarith

def pingMessage (id byteLength : Nat) : Message :=
  { id := id
    name := "ping"
    body := .datagram
      { version := 4, srcAddress := ⟨5⟩, destAddress := ⟨9⟩, transportProtocol := ipProtIcmp
        byteLength := byteLength, encapsulated := some ⟨.icmp ⟨128⟩, 100⟩ } }

theorem paired_ping (a : IPAddress) : Paired a [unreachableMessage 2, pingMessage 1 120] := by
  have hfirst : ∀ i m, [unreachableMessage 2, pingMessage 1 120][i]? = some m →
      unreachableTo m = some a → i = 0 ∧ a = ⟨5⟩ := by
    intro i m hm hto
    match i with
    | 0 =>
      cases hm
      exact ⟨rfl, (Option.some.inj hto).symm⟩
    | 1 =>
      cases hm
      cases hto
    | i + 2 => cases hm
  refine ⟨fun _ => 1, fun i m hm hto => ?_, fun i j m m' hm hto hm' hto' _ => ?_⟩
  · obtain ⟨rfl, rfl⟩ := hfirst i m hm hto
    exact ⟨by decide, pingMessage 1 120, rfl, by decide⟩
  · rw [(hfirst i m hm hto).1, (hfirst j m' hm' hto').1]

theorem share_below_half_ping :
    ((replayState handleMessage (initial (1 / 2))
      [pingMessage 1 120, unreachableMessage 2]).ratioTable 5).getRatio < 1 / 2 := by
  have hrun : Run handleMessage (initial (1 / 2))
      (replayTrace handleMessage (initial (1 / 2)) [pingMessage 1 120, unreachableMessage 2])
      (replayState handleMessage (initial (1 / 2)) [pingMessage 1 120, unreachableMessage 2]) :=
    run_of_replays (by decide +kernel)
  exact (share_below_half hrun).1 ⟨5⟩ (paired_ping ⟨5⟩) _ _ List.suffix_rfl hrun

theorem share_half_after_fragment :
    otherFrom (pingMessage 1 60) = some ⟨5⟩ ∧ unreachableTo (unreachableMessage 2) = some ⟨5⟩ ∧
      ((replayState handleMessage (initial (1 / 2))
        [pingMessage 1 60, unreachableMessage 2]).ratioTable 5).getRatio = 1 / 2 := by
  decide +kernel

end WormsAttack.Ids
