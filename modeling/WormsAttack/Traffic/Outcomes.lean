/-
  Which servers can be chosen.

  Whatever the random numbers are, the answer of a call is one of a set that the registered
  servers and networks determine, and each member of the set is the answer for some random
  numbers.  The sets are relations without random numbers and without loops.
-/
import WormsAttack.Foundation.Run
import WormsAttack.Traffic.Handlers

namespace WormsAttack.Traffic

open Foundation Inet List ConnectionManager

/-! ## What does not change -/

def ServerConnection.bare (c : ServerConnection) : ServerConnection := { c with probability := 0 }

def ForeignNetwork.bare (net : ForeignNetwork) : ForeignNetwork := { net with probability := 0 }

def ConnectionManager.bare (m : ConnectionManager) : ConnectionManager :=
  { m with
    servers := fun profileId => (m.servers profileId).map (List.map ServerConnection.bare)
    subCM := m.subCM.map ForeignNetwork.bare
    serverProbabilityIsDirty := false
    networkProbabilityIsDirty := false }

def System.bare (s : System) : System := { s with managers := fun p => (s.managers p).bare }

theorem bare_manager {s s' : System} (h : s'.bare = s.bare) (p : Nat) :
    (s'.managers p).bare = (s.managers p).bare :=
  congrFun (congrArg System.managers h) p

theorem bare_store {s : System} {p : Nat} {m : ConnectionManager}
    (h : m.bare = (s.managers p).bare) : (s.store p m).bare = s.bare := by
  unfold System.bare System.store
  congr 1
  funext q
  dsimp only
  by_cases hq : q = p
  · subst hq
    rw [Function.update_self]
    exact h
  · rw [Function.update_of_ne hq]

namespace ConnectionManager

def refreshed (m : ConnectionManager) : ConnectionManager :=
  if m.serverProbabilityIsDirty then
    { m with
      serverProbabilityIsDirty := false
      servers := fun profileId => (m.servers profileId).map updateServers }
  else m

theorem bare_updateServers (servers : List ServerConnection) :
    (updateServers servers).map ServerConnection.bare = servers.map ServerConnection.bare := by
  unfold updateServers
  rw [map_map]
  exact map_congr_left fun c _ => rfl

theorem bare_refreshed (m : ConnectionManager) : m.refreshed.bare = m.bare := by
  unfold refreshed
  split
  · unfold bare
    simp only [mk.injEq, and_true, true_and]
    funext profileId
    rw [Option.map_map]
    exact Option.map_congr fun servers _ => bare_updateServers servers
  · rfl

/-! ## Servers of a manager -/

def Answers (m : ConnectionManager) : Prop := (m.isTopCM && !m.isFlatNet) = false

/-- A server for the profile is registered, with this address and port, by the module `i`. -/
def Offers (m : ConnectionManager) (profileId : Int) (t : TargetInfo) (i : Int) : Prop :=
  ∃ servers, m.servers profileId = some servers ∧ ∃ c ∈ servers, c.target = t ∧ c.id = i

inductive MayAnswer (m : ConnectionManager) (profileId moduleId : Int) : TargetInfo → Bool → Prop
  | found {t : TargetInfo} {i : Int} :
      m.Offers profileId t i → (i = moduleId → moduleId = -1) →
      MayAnswer m profileId moduleId t true
  | unknown : m.servers profileId = none → MayAnswer m profileId moduleId .unspecified false
  | own {t : TargetInfo} : m.Offers profileId t moduleId → moduleId ≠ -1 →
      MayAnswer m profileId moduleId .unspecified false

section Congruence

variable {m m' : ConnectionManager} {profileId moduleId : Int} {t : TargetInfo} {found : Bool}

theorem offers_bare {i : Int} : m.bare.Offers profileId t i ↔ m.Offers profileId t i := by
  unfold Offers bare
  simp only [Option.map_eq_some_iff]
  constructor
  · rintro ⟨_, ⟨servers, hservers, rfl⟩, c, hc, htarget, hid⟩
    obtain ⟨c', hc', rfl⟩ := mem_map.mp hc
    exact ⟨servers, hservers, c', hc', htarget, hid⟩
  · rintro ⟨servers, hservers, c, hc, htarget, hid⟩
    exact ⟨_, ⟨servers, hservers, rfl⟩, c.bare, mem_map_of_mem hc, htarget, hid⟩

theorem servers_bare : m.bare.servers profileId = none ↔ m.servers profileId = none :=
  Option.map_eq_none_iff

theorem offers_congr (h : m'.bare = m.bare) {i : Int} :
    m'.Offers profileId t i ↔ m.Offers profileId t i := by
  rw [← offers_bare, h, offers_bare]

theorem servers_congr (h : m'.bare = m.bare) :
    m'.servers profileId = none ↔ m.servers profileId = none := by
  rw [← servers_bare, h, servers_bare]

theorem answers_congr (h : m'.bare = m.bare) : m'.Answers ↔ m.Answers := by
  change m'.bare.Answers ↔ m.bare.Answers
  rw [h]

theorem MayAnswer.congr (h : m'.bare = m.bare) (hmay : m'.MayAnswer profileId moduleId t found) :
    m.MayAnswer profileId moduleId t found := by
  cases hmay with
  | found hoffers hother => exact .found ((offers_congr h).mp hoffers) hother
  | unknown hnone => exact .unknown ((servers_congr h).mp hnone)
  | own hoffers hne => exact .own ((offers_congr h).mp hoffers) hne

end Congruence

/-! ## The loop of `haveProfile` -/

section Pick

variable {servers : List ServerConnection} {moduleId : Int} {draws : Nat → Nat} {rounds : Nat}
  {c : ServerConnection}

theorem pickServer_some (h : pickServer servers moduleId draws rounds = .ok (some c)) :
    c ∈ servers ∧ (c.id = moduleId → moduleId = -1) := by
  induction rounds with
  | zero => cases h
  | succ rounds ih =>
    rw [pickServer] at h
    split at h
    · cases h
    rename_i c' hget
    split_ifs at h with hother
    · exact ih h
    · cases h
      exact ⟨mem_of_getElem? hget, fun hid => not_not.mp fun hne => hother ⟨hid, hne⟩⟩

theorem pickServer_none (h : pickServer servers moduleId draws (rounds + 1) = .ok none) :
    ∃ c ∈ servers, c.id = moduleId ∧ moduleId ≠ -1 := by
  rw [pickServer] at h
  split at h
  · cases h
  rename_i c hget
  split_ifs at h with hown
  · exact ⟨c, mem_of_getElem? hget, hown⟩
  · cases h

theorem pickServer_total (h : servers ≠ []) (moduleId : Int) (draws : Nat → Nat) (rounds : Nat) :
    ∃ c, pickServer servers moduleId draws rounds = .ok c := by
  induction rounds with
  | zero => exact ⟨none, rfl⟩
  | succ rounds ih =>
    have hlt : draws rounds % servers.length < servers.length :=
      Nat.mod_lt _ (length_pos_iff.mpr h)
    rw [pickServer, getElem?_eq_getElem hlt]
    dsimp only
    split
    · exact ih
    · exact ⟨_, rfl⟩

theorem exists_draw {α : Type} {l : List α} {a : α} (h : a ∈ l) :
    ∃ k, l[k % l.length]? = some a := by
  obtain ⟨k, hk, rfl⟩ := getElem_of_mem h
  exact ⟨k, by rw [Nat.mod_eq_of_lt hk, getElem?_eq_getElem hk]⟩

theorem exists_pickServer (hc : c ∈ servers) (hother : c.id = moduleId → moduleId = -1)
    (rounds : Nat) : ∃ draws, pickServer servers moduleId draws (rounds + 1) = .ok (some c) := by
  obtain ⟨k, hk⟩ := exists_draw hc
  refine ⟨fun _ => k, ?_⟩
  rw [pickServer, hk]
  exact if_neg fun h => h.2 (hother h.1)

theorem exists_pickServer_none (hc : c ∈ servers) (hown : c.id = moduleId ∧ moduleId ≠ -1)
    (rounds : Nat) : ∃ draws, pickServer servers moduleId draws rounds = .ok none := by
  obtain ⟨k, hk⟩ := exists_draw hc
  refine ⟨fun _ => k, ?_⟩
  induction rounds with
  | zero => rfl
  | succ rounds ih =>
    rw [pickServer, hk]
    exact (if_pos hown).trans ih

end Pick

/-! ## `haveProfile` -/

section HaveProfile

variable {m m' : ConnectionManager} {ti t : TargetInfo} {profileId moduleId : Int}
  {draws : Nat → Nat} {found : Bool}

def answer (m : ConnectionManager) : Option ServerConnection → ConnectionManager × TargetInfo × Bool
  | none => (m, .unspecified, false)
  | some c => (m, c.target, true)

theorem haveProfile_eq (h : m.Answers) :
    m.haveProfile ti profileId moduleId draws =
      match m.refreshed.servers profileId with
      | none => .ok (m.refreshed.answer none)
      | some servers =>
          pickServer servers moduleId draws 100 >>= fun picked =>
            .ok (m.refreshed.answer picked) := by
  have hrefresh : m.refreshServers = .ok m.refreshed := by
    unfold refreshServers refreshed updateServerProbabilities
    rw [h]
    split <;> rfl
  unfold haveProfile
  rw [h, hrefresh]
  change (match m.refreshed.servers profileId with | none => _ | some servers => _) = _
  cases m.refreshed.servers profileId with
  | none => rfl
  | some servers =>
    refine congrArg (pickServer servers moduleId draws 100 >>= ·) (funext fun picked => ?_)
    cases picked <;> rfl

theorem haveProfile_ok (h : m.haveProfile ti profileId moduleId draws = .ok (m', t, found)) :
    m.Answers ∧ m'.bare = m.bare ∧ m.MayAnswer profileId moduleId t found := by
  have hanswers : m.Answers := by
    unfold haveProfile at h
    unfold Answers
    cases hasked : m.isTopCM && !m.isFlatNet with
    | false => rfl
    | true =>
      rw [hasked] at h
      cases h
  rw [haveProfile_eq hanswers] at h
  -- the answer is one of the manager with the new probabilities
  have hmay : m' = m.refreshed ∧ m.refreshed.MayAnswer profileId moduleId t found := by
    split at h
    · rename_i hnone
      cases h
      exact ⟨rfl, .unknown hnone⟩
    · rename_i servers hservers
      obtain ⟨picked, hpick, h⟩ := bind_eq_ok.mp h
      cases picked with
      | none =>
        cases h
        obtain ⟨c, hc, hid, hne⟩ := pickServer_none hpick
        exact ⟨rfl, .own ⟨servers, hservers, c, hc, rfl, hid⟩ hne⟩
      | some c =>
        cases h
        obtain ⟨hc, hother⟩ := pickServer_some hpick
        exact ⟨rfl, .found ⟨servers, hservers, c, hc, rfl, rfl⟩ hother⟩
  obtain ⟨rfl, hmay⟩ := hmay
  exact ⟨hanswers, bare_refreshed m, hmay.congr (bare_refreshed m)⟩

theorem exists_haveProfile (h : m.Answers) (hmay : m.MayAnswer profileId moduleId t found) :
    ∃ draws m', ∀ ti, m.haveProfile ti profileId moduleId draws = .ok (m', t, found) := by
  have hmay' := hmay.congr (bare_refreshed m).symm
  cases hmay' with
  | found hoffers hother =>
    obtain ⟨servers, hservers, c, hc, rfl, rfl⟩ := hoffers
    obtain ⟨draws, hpick⟩ := exists_pickServer hc hother 99
    refine ⟨draws, m.refreshed, fun ti => ?_⟩
    rw [haveProfile_eq h, hservers]
    exact bind_eq_ok.mpr ⟨_, hpick, rfl⟩
  | unknown hnone =>
    refine ⟨fun _ => 0, m.refreshed, fun ti => ?_⟩
    rw [haveProfile_eq h, hnone]
    rfl
  | own hoffers hne =>
    obtain ⟨servers, hservers, c, hc, -, hid⟩ := hoffers
    obtain ⟨draws, hpick⟩ := exists_pickServer_none hc ⟨hid, hne⟩ 100
    refine ⟨draws, m.refreshed, fun ti => ?_⟩
    rw [haveProfile_eq h, hservers]
    exact bind_eq_ok.mpr ⟨_, hpick, rfl⟩

def Filled (m : ConnectionManager) : Prop :=
  ∀ profileId servers, m.servers profileId = some servers → servers ≠ []

theorem haveProfile_total (h : m.Answers) (hfilled : m.Filled) (ti : TargetInfo)
    (profileId moduleId : Int) (draws : Nat → Nat) :
    ∃ result, m.haveProfile ti profileId moduleId draws = .ok result := by
  rw [haveProfile_eq h]
  split
  · exact ⟨_, rfl⟩
  rename_i servers hservers
  have hne : servers ≠ [] := by
    unfold refreshed at hservers
    split at hservers
    · obtain ⟨servers', hservers', rfl⟩ := Option.map_eq_some_iff.mp hservers
      rw [updateServers, Ne, map_eq_nil_iff]
      exact hfilled profileId servers' hservers'
    · exact hfilled profileId servers hservers
  obtain ⟨picked, hpick⟩ := pickServer_total hne moduleId draws 100
  exact ⟨_, bind_eq_ok.mpr ⟨picked, hpick, rfl⟩⟩

theorem filled_bare : m.bare.Filled ↔ m.Filled := by
  unfold Filled bare
  simp only [Option.map_eq_some_iff, forall_exists_index, and_imp, forall_apply_eq_imp_iff₂,
    ne_eq, map_eq_nil_iff]

theorem filled_congr (h : m'.bare = m.bare) : m'.Filled ↔ m.Filled := by
  rw [← filled_bare, h, filled_bare]

theorem haveProfile_unknown (h : m.Answers) (hnone : m.servers profileId = none) (ti : TargetInfo)
    (moduleId : Int) (draws : Nat → Nat) :
    m.haveProfile ti profileId moduleId draws = .ok (m.refreshed, .unspecified, false) := by
  rw [haveProfile_eq h, (servers_congr (bare_refreshed m)).mpr hnone]
  rfl

theorem refreshNetworks_ok (h : m.isTopCM = true) :
    ∃ m', m.refreshNetworks = .ok m' ∧ m'.bare = m.bare := by
  unfold refreshNetworks updateNetworkProbabilities
  rw [h]
  split
  · refine ⟨_, rfl, ?_⟩
    unfold bare
    simp only [mk.injEq, and_true, true_and, map_map]
    exact ⟨map_congr_left fun net _ => rfl, h.symm⟩
  · exact ⟨m, rfl, rfl⟩

end HaveProfile

end ConnectionManager

/-! ## Servers of other networks -/

namespace System

def Sub (s : System) (top q : Nat) (i : Int) : Prop :=
  ∃ net ∈ (s.managers top).subCM, net.manager = q ∧ net.id = i

inductive MayForeign (s : System) (top : Nat) (profileId moduleId : Int) : TargetInfo → Bool → Prop
  | found {q : Nat} {i j : Int} {t : TargetInfo} :
      s.Sub top q i → i ≠ moduleId → (s.managers q).Answers →
      (s.managers q).Offers profileId t j → MayForeign s top profileId moduleId t false
  | own {q : Nat} : s.Sub top q moduleId →
      MayForeign s top profileId moduleId .unspecified true
  | unknown {q : Nat} {i : Int} :
      s.Sub top q i → i ≠ moduleId → (s.managers q).Answers →
      (s.managers q).servers profileId = none →
      MayForeign s top profileId moduleId .unspecified true

section Foreign

variable {s s' : System} {p q top : Nat} {ti t : TargetInfo} {profileId moduleId i : Int}
  {draws : Nat → ForeignDraw} {rounds left runs : Nat} {goOn found : Bool}

theorem sub_bare : s.bare.Sub top q i ↔ s.Sub top q i := by
  constructor
  · rintro ⟨net, hnet, hq, hi⟩
    obtain ⟨net', hnet', rfl⟩ := mem_map.mp hnet
    exact ⟨net', hnet', hq, hi⟩
  · rintro ⟨net, hnet, hq, hi⟩
    exact ⟨net.bare, mem_map_of_mem hnet, hq, hi⟩

theorem sub_congr (h : s'.bare = s.bare) : s'.Sub top q i ↔ s.Sub top q i := by
  rw [← sub_bare, h, sub_bare]

theorem MayForeign.congr (h : s'.bare = s.bare)
    (hmay : s'.MayForeign top profileId moduleId t goOn) :
    s.MayForeign top profileId moduleId t goOn := by
  cases hmay with
  | @found q i j t hsub hne hanswers hoffers =>
    have hq := bare_manager h q
    exact .found ((sub_congr h).mp hsub) hne ((answers_congr hq).mp hanswers)
      ((offers_congr hq).mp hoffers)
  | own hsub => exact .own ((sub_congr h).mp hsub)
  | @unknown q i hsub hne hanswers hnone =>
    have hq := bare_manager h q
    exact .unknown ((sub_congr h).mp hsub) hne ((answers_congr hq).mp hanswers)
      ((servers_congr hq).mp hnone)

theorem haveProfile_ok {draws : Nat → Nat}
    (h : s.haveProfile p ti profileId moduleId draws = .ok (s', t, found)) :
    (s.managers p).Answers ∧ s'.bare = s.bare ∧
      (s.managers p).MayAnswer profileId moduleId t found := by
  obtain ⟨⟨m, t', found'⟩, hm, h⟩ := bind_eq_ok.mp h
  cases h
  obtain ⟨hanswers, hbare, hmay⟩ := haveProfile_ok hm
  exact ⟨hanswers, bare_store hbare, hmay⟩

theorem exists_haveProfile (h : (s.managers p).Answers)
    (hmay : (s.managers p).MayAnswer profileId moduleId t found) :
    ∃ draws s', ∀ ti, s.haveProfile p ti profileId moduleId draws = .ok (s', t, found) := by
  obtain ⟨draws, m, hm⟩ := ConnectionManager.exists_haveProfile h hmay
  exact ⟨draws, s.store p m, fun ti => bind_eq_ok.mpr ⟨_, hm ti, rfl⟩⟩

theorem searchForeign_ok :
    ∀ {rounds : Nat} {s s' : System} {ti : TargetInfo},
      searchForeign top profileId moduleId draws rounds s ti = .ok (s', t, goOn, left) →
      s'.bare = s.bare ∧ left ≤ rounds ∧
        (goOn = false → s.MayForeign top profileId moduleId t false) ∧
        (goOn = true → left = 0 ∧
          (rounds ≠ 0 → s.MayForeign top profileId moduleId .unspecified true)) := by
  intro rounds
  induction rounds with
  | zero =>
    intro s s' ti h
    cases h
    exact ⟨rfl, Nat.le_refl 0, Bool.noConfusion, fun _ => ⟨rfl, fun hne => absurd rfl hne⟩⟩
  | succ rounds ih =>
    intro s s' ti h
    rw [searchForeign] at h
    dsimp only at h
    split at h
    · cases h
    rename_i net hget
    have hnet := mem_of_getElem? hget
    split_ifs at h with hid
    · obtain ⟨hbare, hleft, hfound, hnone⟩ := ih h
      refine ⟨hbare, Nat.le_succ_of_le hleft, hfound, fun hgo => ⟨(hnone hgo).1, fun _ => ?_⟩⟩
      exact .own ⟨net, hnet, rfl, hid⟩
    · obtain ⟨⟨s₁, t₁, found⟩, hhave, h⟩ := bind_eq_ok.mp h
      obtain ⟨hanswers, hbare₁, hmay⟩ := haveProfile_ok hhave
      split_ifs at h with hfound
      · subst hfound
        cases h
        cases hmay with
        | found hoffers =>
          exact ⟨hbare₁, Nat.le_succ _,
            fun _ => .found ⟨net, hnet, rfl, rfl⟩ hid hanswers hoffers, Bool.noConfusion⟩
      · rw [Bool.not_eq_true] at hfound
        subst hfound
        obtain ⟨hbare, hleft, hfound, hnone⟩ := ih h
        refine ⟨hbare.trans hbare₁, Nat.le_succ_of_le hleft,
          fun hgo => (hfound hgo).congr hbare₁, fun hgo => ⟨(hnone hgo).1, fun _ => ?_⟩⟩
        cases hmay with
        | unknown hnothing => exact .unknown ⟨net, hnet, rfl, rfl⟩ hid hanswers hnothing
        | own _ hne => exact absurd rfl hne

theorem getForeignServer_ok
    (h : s.getForeignServer top ti profileId moduleId draws = .ok (s', t, runs)) :
    (s.managers top).isTopCM = true ∧ s'.bare = s.bare ∧ runs ≤ 100 ∧
      ∃ goOn, s.MayForeign top profileId moduleId t goOn := by
  obtain ⟨htop, h⟩ := unless_eq_ok.mp h
  simp only [Bool.not_eq_true', Bool.not_eq_false] at htop
  obtain ⟨m, hm, hbare⟩ := refreshNetworks_ok htop
  obtain ⟨m', hm', h⟩ := bind_eq_ok.mp h
  cases hm'.symm.trans hm
  obtain ⟨⟨s₁, t₁, goOn, left⟩, hsearch, h⟩ := bind_eq_ok.mp h
  cases h
  have hstore : (s.store top m).bare = s.bare := bare_store hbare
  obtain ⟨hbare₁, hleft, hfound, hnone⟩ := searchForeign_ok hsearch
  refine ⟨htop, hbare₁.trans hstore, Nat.sub_le _ _, goOn, ?_⟩
  cases goOn with
  | false =>
    rw [if_neg fun h => Bool.false_ne_true h.2]
    exact (hfound rfl).congr hstore
  | true =>
    obtain ⟨rfl, hmay⟩ := hnone rfl
    exact (hmay (by decide)).congr hstore

def Drawn (s : System) (top k q : Nat) (i : Int) : Prop :=
  ∃ net, (s.managers top).subCM[k % (s.managers top).subCM.length]? = some net ∧
    net.manager = q ∧ net.id = i

theorem exists_drawn (h : s.Sub top q i) : ∃ k, s.Drawn top k q i := by
  obtain ⟨net, hnet, hq, hi⟩ := h
  obtain ⟨k, hk⟩ := exists_draw hnet
  exact ⟨k, net, hk, hq, hi⟩

variable {k : Nat}

theorem drawn_bare : s.bare.Drawn top k q i ↔ s.Drawn top k q i := by
  unfold Drawn bare ConnectionManager.bare
  simp only [length_map, getElem?_map, Option.map_eq_some_iff]
  constructor
  · rintro ⟨_, ⟨net, hget, rfl⟩, hq, hi⟩
    exact ⟨net, hget, hq, hi⟩
  · rintro ⟨net, hget, hq, hi⟩
    exact ⟨net.bare, ⟨net, hget, rfl⟩, hq, hi⟩

theorem drawn_congr (h : s'.bare = s.bare) : s'.Drawn top k q i ↔ s.Drawn top k q i := by
  rw [← drawn_bare, h, drawn_bare]

theorem searchForeign_round (h : s.Drawn top (draws rounds).network q i) (ti : TargetInfo) :
    searchForeign top profileId moduleId draws (rounds + 1) s ti =
      if i = moduleId then searchForeign top profileId moduleId draws rounds s ti
      else
        s.haveProfile q ti profileId (-1) (draws rounds).server >>= fun (s, ti, found) =>
          if found then .ok (s, ti, false, rounds)
          else searchForeign top profileId moduleId draws rounds s ti := by
  obtain ⟨net, hget, rfl, rfl⟩ := h
  rw [searchForeign]
  rw [hget]

theorem searchForeign_own (h : s.Drawn top k q moduleId) (server : Nat → Nat) (ti : TargetInfo) :
    ∀ rounds, searchForeign top profileId moduleId (fun _ => ⟨k, server⟩) rounds s ti =
      .ok (s, ti, true, 0)
  | 0 => rfl
  | rounds + 1 => by
    rw [searchForeign_round h, if_pos rfl]
    exact searchForeign_own h server ti rounds

theorem searchForeign_unknown (server : Nat → Nat) (hne : i ≠ moduleId) :
    ∀ (rounds : Nat) {s : System} (ti : TargetInfo), s.Drawn top k q i →
      (s.managers q).Answers → (s.managers q).servers profileId = none →
      ∃ s' t, searchForeign top profileId moduleId (fun _ => ⟨k, server⟩) rounds s ti =
        .ok (s', t, true, 0) := by
  intro rounds
  induction rounds with
  | zero => exact fun ti _ _ _ => ⟨_, ti, rfl⟩
  | succ rounds ih =>
    intro s ti hdrawn hanswers hnone
    have hhave : s.haveProfile q ti profileId (-1) server =
        .ok (s.store q (s.managers q).refreshed, .unspecified, false) :=
      bind_eq_ok.mpr ⟨_, haveProfile_unknown hanswers hnone ti _ server, rfl⟩
    have hbare : (s.store q (s.managers q).refreshed).bare = s.bare :=
      bare_store (bare_refreshed _)
    have hq := bare_manager hbare q
    obtain ⟨s', t, hrest⟩ := ih .unspecified ((drawn_congr hbare).mpr hdrawn)
      ((answers_congr hq).mpr hanswers)
      ((servers_congr hq).mpr hnone)
    refine ⟨s', t, ?_⟩
    rw [searchForeign_round hdrawn, if_neg hne]
    exact bind_eq_ok.mpr ⟨_, hhave, hrest⟩

/-- Completeness: everything that may be answered is answered for some draws. -/
theorem exists_getForeignServer (htop : (s.managers top).isTopCM = true)
    (hmay : s.MayForeign top profileId moduleId t goOn) (ti : TargetInfo) :
    ∃ draws s' runs, s.getForeignServer top ti profileId moduleId draws = .ok (s', t, runs) := by
  obtain ⟨m, hm, hbare⟩ := refreshNetworks_ok htop
  have hstore : (s.store top m).bare = s.bare := bare_store hbare
  -- what is left is the loop, on the system with the new probabilities
  have hloop : ∀ {draws : Nat → ForeignDraw} {s' : System} {t' : TargetInfo} {goOn' : Bool}
      {left : Nat},
      searchForeign top profileId moduleId draws 100 (s.store top m) ti =
        .ok (s', t', goOn', left) →
      (if 100 - left = 100 ∧ goOn' = true then .unspecified else t') = t →
      ∃ draws s' runs, s.getForeignServer top ti profileId moduleId draws = .ok (s', t, runs) := by
    intro draws s' t' goOn' left hsearch ht
    refine ⟨draws, s', 100 - left, ?_⟩
    subst ht
    unfold getForeignServer
    rw [htop]
    exact bind_eq_ok.mpr ⟨m, hm, bind_eq_ok.mpr ⟨_, hsearch, rfl⟩⟩
  cases hmay.congr hstore.symm with
  | found hsub hne hanswers hoffers =>
    obtain ⟨k, hdrawn⟩ := exists_drawn hsub
    obtain ⟨server, s', hhave⟩ := exists_haveProfile hanswers (.found hoffers fun _ => rfl)
    have hsearch : searchForeign top profileId moduleId (fun _ => ⟨k, server⟩) 100
        (s.store top m) ti = .ok (s', t, false, 99) := by
      rw [searchForeign_round hdrawn, if_neg hne]
      exact bind_eq_ok.mpr ⟨_, hhave ti, rfl⟩
    exact hloop hsearch (if_neg fun h => Bool.false_ne_true h.2)
  | own hsub =>
    obtain ⟨k, hdrawn⟩ := exists_drawn hsub
    exact hloop (searchForeign_own hdrawn (fun _ => 0) ti 100) (if_pos ⟨rfl, rfl⟩)
  | unknown hsub hne hanswers hnone =>
    obtain ⟨k, hdrawn⟩ := exists_drawn hsub
    obtain ⟨s', t', hsearch⟩ := searchForeign_unknown (fun _ => 0) hne 100 ti hdrawn hanswers hnone
    exact hloop hsearch (if_pos ⟨rfl, rfl⟩)

end Foreign

/-! ## The second part of `getServer` -/

inductive MayServe (s : System) (p : Nat) (profileId moduleId : Int) : Bool → TargetInfo → Prop
  | flat {top : Nat} {t : TargetInfo} {found : Bool} :
      (s.managers p).topCM = some top → (s.managers top).isFlatNet = true →
      (s.managers p).Answers → (s.managers p).MayAnswer profileId (s.managers p).id t found →
      MayServe s p profileId moduleId true t
  | foreign {top : Nat} {t : TargetInfo} {goOn : Bool} :
      (s.managers p).topCM = some top → (s.managers top).isFlatNet = false →
      (s.managers top).isTopCM = true →
      s.MayForeign top profileId (s.managers p).id t goOn → MayServe s p profileId moduleId true t
  | own {isForeign : Bool} {t : TargetInfo} :
      (isForeign = true → (s.managers p).topCM = none) → (s.managers p).Answers →
      (s.managers p).MayAnswer profileId moduleId t true →
      MayServe s p profileId moduleId isForeign t
  | nowhere {top : Nat} {t : TargetInfo} :
      (s.managers p).topCM = some top → (s.managers top).isFlatNet = true →
      (s.managers p).Answers → (s.managers p).MayAnswer profileId moduleId t false →
      MayServe s p profileId moduleId false t
  | away {top : Nat} {t t' : TargetInfo} {goOn : Bool} :
      (s.managers p).topCM = some top → (s.managers top).isFlatNet = false →
      (s.managers top).isTopCM = true → (s.managers p).Answers →
      (s.managers p).MayAnswer profileId moduleId t' false →
      s.MayForeign top profileId (s.managers p).id t goOn → MayServe s p profileId moduleId false t

section Serve

variable {s s' : System} {p q top : Nat} {ti t : TargetInfo} {profileId moduleId : Int}
  {isForeign : Bool} {own : Nat → Nat} {foreign : Nat → ForeignDraw} (h : s'.bare = s.bare)

include h

theorem topCM_congr : (s'.managers p).topCM = (s.managers p).topCM := by
  have hsame := congrArg topCM (bare_manager h p)
  exact hsame

theorem id_congr : (s'.managers p).id = (s.managers p).id := by
  have hsame := congrArg ConnectionManager.id (bare_manager h p)
  exact hsame

theorem isFlatNet_congr : (s'.managers p).isFlatNet = (s.managers p).isFlatNet := by
  have hsame := congrArg isFlatNet (bare_manager h p)
  exact hsame

theorem isTopCM_congr : (s'.managers p).isTopCM = (s.managers p).isTopCM := by
  have hsame := congrArg isTopCM (bare_manager h p)
  exact hsame

theorem MayServe.congr (hmay : s'.MayServe p profileId moduleId isForeign t) :
    s.MayServe p profileId moduleId isForeign t := by
  have hp := bare_manager h p
  cases hmay with
  | flat htop hflat hanswers hmay =>
    rw [topCM_congr h] at htop
    rw [isFlatNet_congr h] at hflat
    rw [id_congr h] at hmay
    exact .flat htop hflat ((answers_congr hp).mp hanswers) (hmay.congr hp)
  | foreign htop hflat htop' hmay =>
    rw [topCM_congr h] at htop
    rw [isFlatNet_congr h] at hflat
    rw [isTopCM_congr h] at htop'
    rw [id_congr h] at hmay
    exact .foreign htop hflat htop' (hmay.congr h)
  | own hforeign hanswers hmay =>
    rw [topCM_congr h] at hforeign
    exact .own hforeign ((answers_congr hp).mp hanswers) (hmay.congr hp)
  | nowhere htop hflat hanswers hmay =>
    rw [topCM_congr h] at htop
    rw [isFlatNet_congr h] at hflat
    exact .nowhere htop hflat ((answers_congr hp).mp hanswers) (hmay.congr hp)
  | away htop hflat htop' hanswers hmay hforeign =>
    rw [topCM_congr h] at htop
    rw [isFlatNet_congr h] at hflat
    rw [isTopCM_congr h] at htop'
    rw [id_congr h] at hforeign
    exact .away htop hflat htop' ((answers_congr hp).mp hanswers)
      (hmay.congr hp) (hforeign.congr h)

omit h

theorem requestForeign_ok (htop : (s.managers p).topCM = some top)
    (h : s.requestForeign p top ti profileId own foreign = .ok (s', t)) :
    s'.bare = s.bare ∧ s.MayServe p profileId moduleId true t := by
  unfold requestForeign at h
  split_ifs at h with hflat
  · obtain ⟨⟨s₁, t₁, found⟩, hhave, h⟩ := bind_eq_ok.mp h
    cases h
    obtain ⟨hanswers, hbare, hmay⟩ := haveProfile_ok hhave
    exact ⟨hbare, .flat htop hflat hanswers hmay⟩
  · obtain ⟨⟨s₁, t₁, runs⟩, hforeign, h⟩ := bind_eq_ok.mp h
    cases h
    obtain ⟨htop', hbare, -, goOn, hmay⟩ := getForeignServer_ok hforeign
    exact ⟨hbare, .foreign htop (Bool.not_eq_true _ ▸ hflat) htop' hmay⟩

theorem requestLocal_ok (hforeign : isForeign = true → (s.managers p).topCM = none)
    (h : s.requestLocal p ti profileId moduleId own foreign = .ok (s', t)) :
    s'.bare = s.bare ∧ s.MayServe p profileId moduleId isForeign t := by
  obtain ⟨⟨s₁, t₁, found⟩, hhave, h⟩ := bind_eq_ok.mp h
  obtain ⟨hanswers, hbare₁, hmay⟩ := haveProfile_ok hhave
  dsimp only at h
  rw [topCM_congr hbare₁] at h
  split_ifs at h with hfound
  · subst hfound
    cases h
    exact ⟨hbare₁, .own hforeign hanswers hmay⟩
  · rw [Bool.not_eq_true] at hfound
    subst hfound
    cases htop : (s.managers p).topCM with
    | none =>
      rw [htop] at h
      cases h
    | some top =>
      rw [htop] at h
      dsimp only at h
      rw [isFlatNet_congr hbare₁, id_congr hbare₁] at h
      have hlocal : isForeign = false := by
        rw [← Bool.not_eq_true]
        intro hyes
        rw [hforeign hyes] at htop
        cases htop
      subst hlocal
      split_ifs at h with hflat
      · cases h
        exact ⟨hbare₁, .nowhere htop hflat hanswers hmay⟩
      · obtain ⟨⟨s₂, t₂, runs⟩, hget, h⟩ := bind_eq_ok.mp h
        cases h
        obtain ⟨htop', hbare₂, -, goOn, hmay'⟩ := getForeignServer_ok hget
        rw [isTopCM_congr hbare₁] at htop'
        exact ⟨hbare₂.trans hbare₁,
          .away htop (Bool.not_eq_true _ ▸ hflat) htop' hanswers hmay (hmay'.congr hbare₁)⟩

theorem requestServer_foreign (htop : (s.managers p).topCM = some top) :
    s.requestServer p ti profileId moduleId true own foreign =
      s.requestForeign p top ti profileId own foreign := by
  unfold requestServer
  rw [htop]

theorem requestServer_local (hforeign : isForeign = true → (s.managers p).topCM = none) :
    s.requestServer p ti profileId moduleId isForeign own foreign =
      s.requestLocal p ti profileId moduleId own foreign := by
  unfold requestServer
  cases isForeign with
  | false => rfl
  | true => rw [hforeign rfl]

theorem requestServer_ok
    (h : s.requestServer p ti profileId moduleId isForeign own foreign = .ok (s', t)) :
    s'.bare = s.bare ∧ s.MayServe p profileId moduleId isForeign t := by
  by_cases hforeign : isForeign = true → (s.managers p).topCM = none
  · rw [requestServer_local hforeign] at h
    exact requestLocal_ok hforeign h
  · rw [Classical.not_imp] at hforeign
    obtain ⟨rfl, hsome⟩ := hforeign
    obtain ⟨top, htop⟩ := Option.ne_none_iff_exists'.mp hsome
    rw [requestServer_foreign htop] at h
    exact requestForeign_ok htop h

theorem exists_requestServer (h : s.MayServe p profileId moduleId isForeign t) (ti : TargetInfo) :
    ∃ own foreign s',
      s.requestServer p ti profileId moduleId isForeign own foreign = .ok (s', t) := by
  cases h with
  | flat htop hflat hanswers hmay =>
    obtain ⟨own, s', hhave⟩ := exists_haveProfile hanswers hmay
    refine ⟨own, fun _ => ⟨0, own⟩, s', ?_⟩
    rw [requestServer_foreign htop, requestForeign, if_pos hflat]
    exact bind_eq_ok.mpr ⟨_, hhave ti, rfl⟩
  | foreign htop hflat htop' hmay =>
    obtain ⟨foreign, s', runs, hget⟩ := exists_getForeignServer htop' hmay ti
    refine ⟨fun _ => 0, foreign, s', ?_⟩
    rw [requestServer_foreign htop, requestForeign, if_neg (Bool.not_eq_true _ ▸ hflat)]
    exact bind_eq_ok.mpr ⟨_, hget, rfl⟩
  | own hforeign hanswers hmay =>
    obtain ⟨own, s', hhave⟩ := exists_haveProfile hanswers hmay
    refine ⟨own, fun _ => ⟨0, own⟩, s', ?_⟩
    rw [requestServer_local hforeign]
    exact bind_eq_ok.mpr ⟨_, hhave ti, rfl⟩
  | nowhere htop hflat hanswers hmay =>
    obtain ⟨own, s', hhave⟩ := exists_haveProfile hanswers hmay
    have hbare := (haveProfile_ok (hhave ti)).2.1
    refine ⟨own, fun _ => ⟨0, own⟩, s', ?_⟩
    refine bind_eq_ok.mpr ⟨_, hhave ti, ?_⟩
    dsimp only
    rw [topCM_congr hbare, htop, if_neg Bool.false_ne_true]
    dsimp only
    rw [isFlatNet_congr hbare, if_pos hflat]
  | away htop hflat htop' hanswers hmay hforeign =>
    obtain ⟨own, s₁, hhave⟩ := exists_haveProfile hanswers hmay
    have hbare := (haveProfile_ok (hhave ti)).2.1
    rw [← isTopCM_congr hbare] at htop'
    obtain ⟨foreign, s', runs, hget⟩ :=
      exists_getForeignServer htop' (hforeign.congr hbare.symm) _
    refine ⟨own, foreign, s', ?_⟩
    refine bind_eq_ok.mpr ⟨_, hhave ti, ?_⟩
    dsimp only
    rw [topCM_congr hbare, htop, if_neg Bool.false_ne_true]
    dsimp only
    rw [isFlatNet_congr hbare, if_neg (Bool.not_eq_true _ ▸ hflat), id_congr hbare]
    exact bind_eq_ok.mpr ⟨_, hget, rfl⟩

end Serve

end System

end WormsAttack.Traffic
