/-
  The servers that are returned.

  A client can be a server as well, and `getServer` is given the id of its user to leave its
  servers out.  Only a local search does so.
-/
import WormsAttack.Traffic.Redraw

namespace WormsAttack.Traffic

open Foundation Inet ConnectionManager

/-! ## Registration -/

structure Registered (s : System) : Prop where
  filled : ∀ p, (s.managers p).Filled
  sub : ∀ top q i, s.Sub top q i → (s.managers q).isTopCM = false ∧ (s.managers q).topCM ≠ none

section Registration

variable {s s' : System} {p q top : Nat}

theorem managers_store_self (s : System) (p : Nat) (m : ConnectionManager) :
    (s.store p m).managers p = m := by
  exact Function.update_self p m s.managers

theorem managers_store_ne (s : System) {p q : Nat} (h : q ≠ p) (m : ConnectionManager) :
    (s.store p m).managers q = s.managers q := by
  exact Function.update_of_ne h m s.managers

theorem Registered.of_bare (h : Registered s) (hbare : s'.bare = s.bare) : Registered s' := by
  refine ⟨fun p => ?_, fun top q i hsub => ?_⟩
  · exact (filled_congr (bare_manager hbare p)).mpr (h.filled p)
  · rw [System.isTopCM_congr hbare, System.topCM_congr hbare]
    exact h.sub top q i ((System.sub_congr hbare).mp hsub)

theorem registered_start (tpm : TrafficProfileManager) (ids : Nat → Int) :
    Registered (System.start tpm ids) := by
  refine ⟨fun p profileId servers h => ?_, fun top q i h => ?_⟩
  · cases h
  · obtain ⟨net, hnet, -⟩ := h
    cases hnet

variable {m : ConnectionManager}

theorem filled_registerServer (h : m.Filled) (address : IPAddress) (port profileId moduleId : Int) :
    (m.registerServer address port profileId moduleId).Filled := by
  intro profileId' servers hservers
  unfold registerServer at hservers
  dsimp only at hservers
  by_cases hid : profileId' = profileId
  · subst hid
    rw [Function.update_self] at hservers
    cases hservers
    exact List.append_ne_nil_of_right_ne_nil _ (List.cons_ne_nil _ _)
  · rw [Function.update_of_ne hid] at hservers
    exact h profileId' servers hservers

theorem Registered.store (h : Registered s) (hfilled : m.Filled)
    (hkeep : (s.managers p).topCM ≠ none →
      m.isTopCM = (s.managers p).isTopCM ∧ m.topCM = (s.managers p).topCM)
    (hnets : ∀ net ∈ m.subCM, net ∈ (s.managers p).subCM ∨
      ((s.store p m).managers net.manager).isTopCM = false ∧
        ((s.store p m).managers net.manager).topCM ≠ none) : Registered (s.store p m) := by
  -- a network that was there before has registered, and is as it was
  have hold : ∀ top q i, s.Sub top q i →
      ((s.store p m).managers q).isTopCM = false ∧ ((s.store p m).managers q).topCM ≠ none := by
    intro top q i hsub
    have hregistered := h.sub top q i hsub
    by_cases hq : q = p
    · subst hq
      obtain ⟨htop, htopCM⟩ := hkeep hregistered.2
      rw [managers_store_self, htop, htopCM]
      exact hregistered
    · rw [managers_store_ne s hq]
      exact hregistered
  refine ⟨fun q => ?_, fun top q i hsub => ?_⟩
  · by_cases hq : q = p
    · subst hq
      rw [managers_store_self]
      exact hfilled
    · rw [managers_store_ne s hq]
      exact h.filled q
  · obtain ⟨net, hnet, rfl, rfl⟩ := hsub
    by_cases htop : top = p
    · subst htop
      rw [managers_store_self] at hnet
      rcases hnets net hnet with hnet | hnew
      · exact hold top _ _ ⟨net, hnet, rfl, rfl⟩
      · exact hnew
    · rw [managers_store_ne s htop] at hnet
      exact hold top _ _ ⟨net, hnet, rfl, rfl⟩

theorem addSubCM_topCM (m : ConnectionManager) (net : ForeignNetwork) :
    (m.addSubCM net).isTopCM = m.isTopCM ∧ (m.addSubCM net).topCM = m.topCM ∧
      (m.addSubCM net).servers = m.servers ∧ (m.addSubCM net).id = m.id := by
  unfold addSubCM
  split
  · exact ⟨rfl, rfl, rfl, rfl⟩
  · exact ⟨rfl, rfl, rfl, rfl⟩

theorem mem_addSubCM {net net' : ForeignNetwork}
    (h : net' ∈ (m.addSubCM net).subCM) : net' ∈ m.subCM ∨ net' = net := by
  unfold addSubCM at h
  split at h
  · exact .inl h
  · rcases List.mem_append.mp h with h | h
    · exact .inl h
    · exact .inr (List.mem_singleton.mp h)

theorem registered_registerConnectionManager (h : Registered s) (p : Nat) (mod : Option Nat) :
    Registered (s.registerConnectionManager p mod) := by
  unfold System.registerConnectionManager
  dsimp only
  split_ifs with hnew
  · exact h
  rw [Bool.or_eq_true, not_or, Bool.not_eq_true, Option.not_isSome_iff_eq_none] at hnew
  obtain ⟨hnotTop, hnone⟩ := hnew
  have hvacuous : ∀ {m : ConnectionManager}, (s.managers p).topCM ≠ none →
      m.isTopCM = (s.managers p).isTopCM ∧ m.topCM = (s.managers p).topCM :=
    fun hsome => absurd hnone hsome
  split
  · exact h.store (h.filled p) hvacuous fun net hnet => .inl hnet
  rename_i top htop
  have hne : top ≠ p := by
    obtain ⟨-, hne⟩ := Option.filter_eq_some_iff.mp htop
    exact of_decide_eq_true hne
  have hfirst : Registered (s.store p { s.managers p with topCM := some top }) :=
    h.store (h.filled p) hvacuous fun net hnet => .inl hnet
  obtain ⟨hkeepTop, hkeep, hservers, -⟩ := addSubCM_topCM
    ((s.store p { s.managers p with topCM := some top }).managers top)
    (.new p (s.managers p).id 1)
  refine hfirst.store ?_ (fun _ => ⟨hkeepTop, hkeep⟩) fun net hnet => ?_
  · unfold ConnectionManager.Filled
    rw [hservers]
    exact hfirst.filled top
  · rcases mem_addSubCM hnet with hnet | rfl
    · exact .inl hnet
    refine .inr ?_
    change (((System.store _ top _).managers p).isTopCM = false ∧
      ((System.store _ top _).managers p).topCM ≠ none)
    rw [managers_store_ne _ hne.symm, managers_store_self]
    exact ⟨hnotTop, Option.some_ne_none top⟩

theorem registered_step (h : Registered s) {e : Event} {out : Option Answer}
    (hstep : step s e = .ok (s', out)) : Registered s' := by
  cases e with
  | registerConnectionManager p mod =>
    cases hstep
    exact registered_registerConnectionManager h p mod
  | registerServer p address port profileId moduleId =>
    cases hstep
    exact h.store (filled_registerServer (h.filled p) address port profileId moduleId)
      (fun _ => ⟨rfl, rfl⟩) fun net hnet => .inl hnet
  | getServer p ti tp except moduleId draws =>
    obtain ⟨⟨s₁, a⟩, hget, hstep⟩ := bind_eq_ok.mp hstep
    cases hstep
    obtain ⟨-, -, -, hbare, -⟩ := getServer_ok hget
    exact h.of_bare hbare

theorem registered_run {tpm : TrafficProfileManager} {ids : Nat → Int}
    {tr : List (Step System Event (Option Answer))} (h : Run step (System.start tpm ids) tr s) :
    Registered s :=
  h.invariant (I := fun _ s => Registered s) (registered_start tpm ids)
    fun _ _ _ _ _ hregistered hstep => registered_step hregistered hstep

end Registration

/-! ## Foreign servers -/

section Foreign

variable {s : System} {top : Nat}

theorem subCM_congr {s s' : System} (h : s'.bare = s.bare) :
    (s'.managers top).subCM ≠ [] ↔ (s.managers top).subCM ≠ [] := by
  have hsame : (s'.managers top).subCM.map ForeignNetwork.bare =
      (s.managers top).subCM.map ForeignNetwork.bare :=
    congrArg subCM (bare_manager h top)
  rw [Ne, ← List.map_eq_nil_iff (f := ForeignNetwork.bare), hsame, List.map_eq_nil_iff]

theorem searchForeign_total {profileId moduleId : Int} (draws : Nat → ForeignDraw) :
    ∀ (rounds : Nat) {s : System} (ti : TargetInfo), (s.managers top).subCM ≠ [] →
      (∀ q i, s.Sub top q i → (s.managers q).Answers ∧ (s.managers q).Filled) →
      ∃ result, System.searchForeign top profileId moduleId draws rounds s ti = .ok result := by
  intro rounds
  induction rounds with
  | zero => exact fun ti _ _ => ⟨_, rfl⟩
  | succ rounds ih =>
    intro s ti hne hready
    have hlt : (draws rounds).network % (s.managers top).subCM.length <
        (s.managers top).subCM.length := Nat.mod_lt _ (List.length_pos_iff.mpr hne)
    have hget := List.getElem?_eq_getElem hlt
    obtain ⟨q, i, hdrawn⟩ : ∃ q i, s.Drawn top (draws rounds).network q i :=
      ⟨_, _, _, hget, rfl, rfl⟩
    have hsub : s.Sub top q i := by
      obtain ⟨net, hnet, hq, hi⟩ := hdrawn
      exact ⟨net, List.mem_of_getElem? hnet, hq, hi⟩
    obtain ⟨hanswers, hfilled⟩ := hready q i hsub
    rw [System.searchForeign_round hdrawn]
    split
    · exact ih ti hne hready
    obtain ⟨⟨m, t, found⟩, hm⟩ := haveProfile_total hanswers hfilled ti
      profileId (-1) (draws rounds).server
    have hhave : s.haveProfile q ti profileId (-1) (draws rounds).server =
        .ok (s.store q m, t, found) := bind_eq_ok.mpr ⟨_, hm, rfl⟩
    have hbare := (System.haveProfile_ok hhave).2.1
    rw [hhave]
    cases found with
    | true => exact ⟨_, rfl⟩
    | false =>
      refine ih t ?_ fun q' i' hsub' => ?_
      · exact (subCM_congr hbare).mpr hne
      · have hq := bare_manager hbare q'
        rw [answers_congr hq, filled_congr hq]
        exact hready q' i' ((System.sub_congr hbare).mp hsub')

/-- A top manager answers after at most 100 rounds, with a server that is registered for the
profile at another manager, or with none. -/
theorem foreign_server_found {tpm : TrafficProfileManager} {ids : Nat → Int}
    {tr : List (Step System Event (Option Answer))} (hrun : Run step (System.start tpm ids) tr s)
    (htop : (s.managers top).isTopCM = true) (hsub : (s.managers top).subCM ≠ [])
    (ti : TargetInfo) (profileId moduleId : Int) (draws : Nat → ForeignDraw) :
    ∃ s' t runs, s.getForeignServer top ti profileId moduleId draws = .ok (s', t, runs) ∧
      runs ≤ 100 ∧
      ((∃ q i j, s.Sub top q i ∧ i ≠ moduleId ∧ (s.managers q).Offers profileId t j) ∨
        t = .unspecified) := by
  have hregistered := registered_run hrun
  obtain ⟨m, hm, hbare⟩ := refreshNetworks_ok htop
  have hstore : (s.store top m).bare = s.bare := bare_store hbare
  have hready : ∀ q i, (s.store top m).Sub top q i →
      ((s.store top m).managers q).Answers ∧ ((s.store top m).managers q).Filled := by
    intro q i hq
    have hlocal := (hregistered.sub top q i ((System.sub_congr hstore).mp hq)).1
    refine ⟨?_, ((hregistered.of_bare hstore).filled q)⟩
    unfold ConnectionManager.Answers
    rw [System.isTopCM_congr hstore, hlocal]
    rfl
  obtain ⟨⟨s', t, goOn, left⟩, hsearch⟩ :=
    searchForeign_total draws 100 ti ((subCM_congr hstore).mpr hsub) hready
  have hget : ∃ t runs, s.getForeignServer top ti profileId moduleId draws = .ok (s', t, runs) := by
    unfold System.getForeignServer
    rw [htop]
    exact ⟨_, _, bind_eq_ok.mpr ⟨m, hm, bind_eq_ok.mpr ⟨_, hsearch, rfl⟩⟩⟩
  obtain ⟨t, runs, hget⟩ := hget
  obtain ⟨-, -, hruns, goOn, hmay⟩ := System.getForeignServer_ok hget
  refine ⟨s', t, runs, hget, hruns, ?_⟩
  cases hmay with
  | found hq hne _ hoffers => exact .inl ⟨_, _, _, hq, hne, hoffers⟩
  | own | unknown => exact .inr rfl

end Foreign

def oneNetwork : List Event :=
  [.registerConnectionManager 0 none, .registerConnectionManager 1 (some 0),
    .registerServer 1 ⟨0x0a000001⟩ 80 3 40]

theorem foreign_server_found_web :
    ∃ s' t runs,
      (replayState step (System.start webAndPingManager Int.ofNat) oneNetwork).getForeignServer 0
        { address := ⟨5⟩, port := 9 } 3 2 (fun _ => ⟨0, fun _ => 0⟩) = .ok (s', t, runs) ∧
      runs ≤ 100 := by
  have hrun : replays step (System.start webAndPingManager Int.ofNat) oneNetwork = true := rfl
  have htop : ((replayState step (System.start webAndPingManager Int.ofNat) oneNetwork).managers
      0).isTopCM = true := rfl
  obtain ⟨s', t, runs, hget, hruns, -⟩ := foreign_server_found (run_of_replays hrun) htop
    (List.cons_ne_nil _ _) { address := ⟨5⟩, port := 9 } 3 2 (fun _ => ⟨0, fun _ => 0⟩)
  exact ⟨s', t, runs, hget, hruns⟩

/-! ## Own servers -/

namespace System

variable {s s' : System} {p : Nat} {ti t : TargetInfo} {profileId moduleId : Int} {isForeign : Bool}

def ServerOf (s : System) (i : Int) (t : TargetInfo) : Prop :=
  ∃ q profileId, (s.managers q).Offers profileId t i

def Elsewhere (s : System) (p : Nat) (profileId : Int) (t : TargetInfo) : Prop :=
  ∃ top q i j, (s.managers p).topCM = some top ∧ (s.managers top).isFlatNet = false ∧
    (s.managers top).isTopCM = true ∧ s.Sub top q i ∧ i ≠ (s.managers p).id ∧
    (s.managers q).Answers ∧ (s.managers q).Offers profileId t j

/-- The servers that a search comes across and does not leave out.  Only a local search leaves
out those of the asking module. -/
inductive InReach (s : System) (p : Nat) (profileId moduleId : Int) : Bool → TargetInfo → Prop
  | flat {top : Nat} {t : TargetInfo} {i : Int} :
      (s.managers p).topCM = some top → (s.managers top).isFlatNet = true →
      (s.managers p).Answers → (s.managers p).Offers profileId t i →
      (i = (s.managers p).id → (s.managers p).id = -1) → InReach s p profileId moduleId true t
  | foreign {t : TargetInfo} :
      s.Elsewhere p profileId t → InReach s p profileId moduleId true t
  | own {isForeign : Bool} {t : TargetInfo} {i : Int} :
      (isForeign = true → (s.managers p).topCM = none) → (s.managers p).Answers →
      (s.managers p).Offers profileId t i → (i = moduleId → moduleId = -1) →
      InReach s p profileId moduleId isForeign t
  | away {t : TargetInfo} :
      (s.managers p).Answers →
      ((s.managers p).servers profileId = none ∨
        moduleId ≠ -1 ∧ ∃ t', (s.managers p).Offers profileId t' moduleId) →
      s.Elsewhere p profileId t → InReach s p profileId moduleId false t

theorem mayForeign_iff {top : Nat} (htop : (s.managers p).topCM = some top)
    (hflat : (s.managers top).isFlatNet = false) (htop' : (s.managers top).isTopCM = true)
    (ht : t ≠ .unspecified) :
    (∃ goOn, s.MayForeign top profileId (s.managers p).id t goOn) ↔ s.Elsewhere p profileId t := by
  constructor
  · rintro ⟨goOn, hmay⟩
    cases hmay with
    | found hsub hne hanswers hoffers =>
      exact ⟨top, _, _, _, htop, hflat, htop', hsub, hne, hanswers, hoffers⟩
    | own | unknown => exact absurd rfl ht
  · rintro ⟨top', q, i, j, hsame, -, -, hsub, hne, hanswers, hoffers⟩
    cases htop.symm.trans hsame
    exact ⟨false, .found hsub hne hanswers hoffers⟩

theorem inReach_iff (ht : t ≠ .unspecified) :
    s.InReach p profileId moduleId isForeign t ↔ s.MayServe p profileId moduleId isForeign t := by
  constructor
  · intro h
    cases h with
    | flat htop hflat hanswers hoffers hother =>
      exact .flat htop hflat hanswers (.found hoffers hother)
    | foreign helse =>
      obtain ⟨top, -, -, -, htop, hflat, htop', -⟩ := id helse
      obtain ⟨goOn, hmay⟩ := (mayForeign_iff htop hflat htop' ht).mpr helse
      exact .foreign htop hflat htop' hmay
    | own hforeign hanswers hoffers hother => exact .own hforeign hanswers (.found hoffers hother)
    | away hanswers hnone helse =>
      obtain ⟨top, -, -, -, htop, hflat, htop', -⟩ := id helse
      obtain ⟨goOn, hmay⟩ := (mayForeign_iff htop hflat htop' ht).mpr helse
      rcases hnone with hnone | ⟨hne, t', hoffers⟩
      · exact .away htop hflat htop' hanswers (.unknown hnone) hmay
      · exact .away htop hflat htop' hanswers (.own hoffers hne) hmay
  · intro h
    cases h with
    | flat htop hflat hanswers hmay =>
      cases hmay with
      | found hoffers hother => exact .flat htop hflat hanswers hoffers hother
      | unknown | own => exact absurd rfl ht
    | foreign htop hflat htop' hmay =>
      exact .foreign ((mayForeign_iff htop hflat htop' ht).mp ⟨_, hmay⟩)
    | own hforeign hanswers hmay =>
      cases hmay with
      | found hoffers hother => exact .own hforeign hanswers hoffers hother
    | nowhere htop hflat hanswers hmay =>
      cases hmay with
      | unknown | own => exact absurd rfl ht
    | away htop hflat htop' hanswers hmay hforeign =>
      have helse := (mayForeign_iff htop hflat htop' ht).mp ⟨_, hforeign⟩
      cases hmay with
      | unknown hnone => exact .away hanswers (.inl hnone) helse
      | own hoffers hne => exact .away hanswers (.inr ⟨hne, _, hoffers⟩) helse

end System

/-- Every call, in every system: no server of the asking module is returned, whatever is drawn,
exactly if none has the address and port of a server in reach. -/
theorem never_itself_iff (s : System) (p : Nat) (ti : TargetInfo) (tp : TrafficProfile)
    (except moduleId : Int) :
    (∀ draws s' a, s.getServer p ti tp except moduleId draws = .ok (s', a) →
      a.ti ≠ .unspecified → ¬ s.ServerOf moduleId a.ti) ↔
    ∀ tp' isForeign t, s.tpm.MayDraw tp except tp' isForeign →
      s.InReach p tp'.profileID moduleId isForeign t → t ≠ .unspecified →
      ¬ s.ServerOf moduleId t := by
  constructor
  · intro h tp' isForeign t hdraw hreach ht
    obtain ⟨draws, s', a, hget, rfl, -⟩ :=
      exists_getServer hdraw ((System.inReach_iff ht).mp hreach) ti
    exact h draws s' a hget ht
  · intro h draws s' a hget ht
    obtain ⟨isForeign, hprofile, -, -, hserve⟩ := getServer_ok hget
    exact h a.tp isForeign a.ti (TrafficProfileManager.requestProfile_ok hprofile)
      ((System.inReach_iff ht).mpr hserve) ht

def pingManager : TrafficProfileManager :=
  .ofProfiles
    [{ TrafficProfile.new with
        profileID := 21, label := "Ping".toList, probability := 1, WANprob := 50 }] (by decide)

def pingable : System :=
  (flatSystem pingManager).store 0
    (((flatSystem pingManager).managers 0).registerServer ⟨0x0a000007⟩ 8 21 7)

theorem pings_itself :
    (pingable.getServer 0 .unspecified .new (-1) 7
      { profile := [webDraw], own := fun _ => 0, foreign := fun _ => ⟨0, fun _ => 0⟩ }).map
        (·.2.ti) = .ok { address := ⟨0x0a000007⟩, port := 8 } ∧
    pingable.ServerOf 7 { address := ⟨0x0a000007⟩, port := 8 } :=
  ⟨by decide +kernel, 0, 21, _, rfl, _, List.mem_singleton_self _, rfl, rfl⟩

end WormsAttack.Traffic
