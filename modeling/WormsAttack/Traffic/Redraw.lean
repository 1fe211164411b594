/-
  The profiles that are drawn.

  `getServer` draws a profile once, or, when a profile is excluded and was the last one, until
  another one comes up.
-/
import WormsAttack.Traffic.Outcomes

namespace WormsAttack.Traffic

open Foundation Inet

namespace TrafficProfileManager

def chosen (tpm : TrafficProfileManager) (d : ProfileDraw) : TrafficProfile :=
  tpm.selected d.profileProb.value

def asksForeign (tpm : TrafficProfileManager) (d : ProfileDraw) : Bool :=
  (tpm.chosen d).WANprob.ge (.finite d.foreignServerProb.value)

variable {tpm : TrafficProfileManager} {tp tp' : TrafficProfile} {except : Int}
  {earlier rest draws unused : List ProfileDraw} {last : ProfileDraw} {isForeign : Bool}

theorem getTrafficProfile_eq (d : ProfileDraw) :
    tpm.getTrafficProfile d.profileProb.value d.foreignServerProb.value isForeign =
      (tpm.chosen d, isForeign || tpm.asksForeign d) := by
  change (tpm.chosen d, if tpm.asksForeign d then true else isForeign) = _
  cases tpm.asksForeign d
  · rw [Bool.or_false]
    rfl
  · rw [Bool.or_true]
    rfl

/-- The draws that a call spends: those in `earlier` are thrown away, and `last` is used. -/
inductive Spends (tpm : TrafficProfileManager) (tp : TrafficProfile) (except : Int) :
    List ProfileDraw → ProfileDraw → Prop
  | first {last : ProfileDraw} : except = -1 → Spends tpm tp except [] last
  | redrawn {earlier : List ProfileDraw} {last : ProfileDraw} :
      except ≠ -1 → tp.profileID = except →
      (∀ d ∈ earlier, (tpm.chosen d).profileID = except) → (tpm.chosen last).profileID ≠ except →
      Spends tpm tp except earlier last

def someForeign (tpm : TrafficProfileManager) (earlier : List ProfileDraw) (last : ProfileDraw) :
    Bool :=
  earlier.any tpm.asksForeign || tpm.asksForeign last

/-! ## The loop -/

theorem redraw_done (h : tp.profileID ≠ except) (draws : List ProfileDraw) :
    System.redraw tpm except tp isForeign draws = .ok (tp, isForeign, draws) := by
  cases draws with
  | nil | cons d draws => exact if_neg h

theorem redraw_cons (h : tp.profileID = except) (d : ProfileDraw) (draws : List ProfileDraw) :
    System.redraw tpm except tp isForeign (d :: draws) =
      System.redraw tpm except (tpm.chosen d) (isForeign || tpm.asksForeign d) draws := by
  rw [System.redraw, if_pos h, getTrafficProfile_eq]

theorem redraw_spends (hlast : (tpm.chosen last).profileID ≠ except) :
    ∀ {earlier : List ProfileDraw} {tp : TrafficProfile} {isForeign : Bool}, tp.profileID = except →
      (∀ d ∈ earlier, (tpm.chosen d).profileID = except) →
      System.redraw tpm except tp isForeign (earlier ++ last :: rest) =
        .ok (tpm.chosen last, isForeign || tpm.someForeign earlier last, rest) := by
  intro earlier
  induction earlier with
  | nil =>
    intro tp isForeign htp _
    rw [List.nil_append, redraw_cons htp, redraw_done hlast]
    rfl
  | cons d earlier ih =>
    intro tp isForeign htp hearlier
    obtain ⟨hd, hearlier⟩ := List.forall_mem_cons.mp hearlier
    rw [List.cons_append, redraw_cons htp, ih hd hearlier]
    unfold someForeign
    rw [List.any_cons, Bool.or_assoc, Bool.or_assoc]

theorem redraw_ok :
    ∀ {draws : List ProfileDraw} {tp : TrafficProfile} {isForeign found : Bool},
      tp.profileID = except →
      System.redraw tpm except tp isForeign draws = .ok (tp', found, unused) →
      ∃ earlier last, draws = earlier ++ last :: unused ∧
        (∀ d ∈ earlier, (tpm.chosen d).profileID = except) ∧
        (tpm.chosen last).profileID ≠ except := by
  intro draws
  induction draws with
  | nil =>
    intro tp isForeign found htp h
    rw [System.redraw, if_pos htp] at h
    cases h
  | cons d draws ih =>
    intro tp isForeign found htp h
    rw [redraw_cons htp] at h
    by_cases hd : (tpm.chosen d).profileID = except
    · obtain ⟨earlier, last, rfl, hearlier, hlast⟩ := ih hd h
      exact ⟨d :: earlier, last, rfl, List.forall_mem_cons.mpr ⟨hd, hearlier⟩, hlast⟩
    · rw [redraw_done hd] at h
      cases h
      exact ⟨[], d, rfl, List.forall_mem_nil _, hd⟩

/-! ## The first part of `getServer` -/

theorem requestProfile_spends (h : tpm.Spends tp except earlier last) :
    System.requestProfile tpm tp except (earlier ++ last :: rest) =
      .ok (tpm.chosen last, tpm.someForeign earlier last, rest) := by
  unfold System.requestProfile
  cases h with
  | first hnone =>
    rw [if_pos hnone, List.nil_append]
    dsimp only
    rw [getTrafficProfile_eq]
    rfl
  | redrawn hsome htp hearlier hlast =>
    rw [if_neg hsome, redraw_spends hlast htp hearlier, Bool.false_or]

theorem requestProfile_kept (hsome : except ≠ -1) (htp : tp.profileID ≠ except)
    (draws : List ProfileDraw) :
    System.requestProfile tpm tp except draws = .ok (tp, false, draws) := by
  unfold System.requestProfile
  rw [if_neg hsome, redraw_done htp]

inductive MayDraw (tpm : TrafficProfileManager) (tp : TrafficProfile) (except : Int) :
    TrafficProfile → Bool → Prop
  | spent {earlier : List ProfileDraw} {last : ProfileDraw} : tpm.Spends tp except earlier last →
      MayDraw tpm tp except (tpm.chosen last) (tpm.someForeign earlier last)
  | kept : except ≠ -1 → tp.profileID ≠ except → MayDraw tpm tp except tp false

theorem MayDraw.first (h : tpm.MayDraw tp except tp' isForeign) (hnone : except = -1) :
    ∃ d, tp' = tpm.chosen d ∧ isForeign = tpm.asksForeign d := by
  cases h with
  | kept hsome => exact absurd hnone hsome
  | spent hspends =>
    cases hspends with
    | first => exact ⟨_, rfl, rfl⟩
    | redrawn hsome => exact absurd hnone hsome

theorem requestProfile_ok
    (h : System.requestProfile tpm tp except draws = .ok (tp', isForeign, unused)) :
    tpm.MayDraw tp except tp' isForeign := by
  by_cases hnone : except = -1
  · cases draws with
    | nil =>
      unfold System.requestProfile at h
      rw [if_pos hnone] at h
      cases h
    | cons d draws =>
      have hspends : tpm.Spends tp except [] d := .first hnone
      cases (requestProfile_spends hspends).symm.trans h
      exact .spent hspends
  · by_cases htp : tp.profileID = except
    · have hloop := h
      unfold System.requestProfile at hloop
      rw [if_neg hnone] at hloop
      obtain ⟨earlier, last, rfl, hearlier, hlast⟩ := redraw_ok htp hloop
      have hspends : tpm.Spends tp except earlier last := .redrawn hnone htp hearlier hlast
      cases (requestProfile_spends hspends).symm.trans h
      exact .spent hspends
    · cases (requestProfile_kept hnone htp draws).symm.trans h
      exact .kept hnone htp

theorem exists_requestProfile (h : tpm.MayDraw tp except tp' isForeign) :
    ∃ draws, System.requestProfile tpm tp except draws = .ok (tp', isForeign, []) := by
  cases h with
  | spent hspends => exact ⟨_, requestProfile_spends hspends⟩
  | kept hsome htp => exact ⟨[], requestProfile_kept hsome htp []⟩

end TrafficProfileManager

/-! ## `getServer` -/

section GetServer

variable {s s' : System} {p : Nat} {ti t : TargetInfo} {tp tp' : TrafficProfile}
  {except moduleId : Int} {isForeign : Bool}

theorem getServer_ok {draws : ServerDraws} {a : Answer}
    (h : s.getServer p ti tp except moduleId draws = .ok (s', a)) :
    ∃ isForeign, System.requestProfile s.tpm tp except draws.profile =
        .ok (a.tp, isForeign, a.unused) ∧
      a.foreign = (isForeign && (s.managers p).topCM.isSome) ∧ s'.bare = s.bare ∧
      s.MayServe p a.tp.profileID moduleId isForeign a.ti := by
  obtain ⟨⟨tp', isForeign, unused⟩, hprofile, h⟩ := bind_eq_ok.mp h
  obtain ⟨⟨s₁, t⟩, hserver, h⟩ := bind_eq_ok.mp h
  cases h
  obtain ⟨hbare, hmay⟩ := System.requestServer_ok hserver
  exact ⟨isForeign, hprofile, rfl, hbare, hmay⟩

theorem exists_getServer (hdraw : s.tpm.MayDraw tp except tp' isForeign)
    (hserve : s.MayServe p tp'.profileID moduleId isForeign t) (ti : TargetInfo) :
    ∃ draws s' a, s.getServer p ti tp except moduleId draws = .ok (s', a) ∧
      a.ti = t ∧ a.tp = tp' := by
  obtain ⟨profile, hprofile⟩ := TrafficProfileManager.exists_requestProfile hdraw
  obtain ⟨own, foreign, s', hserver⟩ := System.exists_requestServer hserve ti
  refine ⟨⟨profile, own, foreign⟩, s',
    { ti := t, tp := tp', foreign := isForeign && (s.managers p).topCM.isSome, unused := [] },
    bind_eq_ok.mpr ⟨_, hprofile, ?_⟩, rfl, rfl⟩
  exact bind_eq_ok.mpr ⟨_, hserver, rfl⟩

/-- For every call that draws: the foreign branch is decided by the last draw exactly if a draw
that was thrown away asks for a foreign server only when the last one does, and, without a
manager above, the last one does not ask for one. -/
theorem foreign_branch_iff {draws : ServerDraws} {a : Answer} {earlier : List ProfileDraw}
    {last : ProfileDraw} {rest : List ProfileDraw} (hspends : s.tpm.Spends tp except earlier last)
    (hdraws : draws.profile = earlier ++ last :: rest)
    (h : s.getServer p ti tp except moduleId draws = .ok (s', a)) :
    (a.foreign = true ↔ a.tp.WANprob.ge (.finite last.foreignServerProb.value) = true) ↔
      ((s.managers p).topCM = none → s.tpm.asksForeign last = false) ∧
      ((s.managers p).topCM ≠ none → (∃ d ∈ earlier, s.tpm.asksForeign d = true) →
        s.tpm.asksForeign last = true) := by
  obtain ⟨isForeign, hprofile, hforeign, -, -⟩ := getServer_ok h
  rw [hdraws, TrafficProfileManager.requestProfile_spends hspends] at hprofile
  obtain ⟨htp, rfl, -⟩ : s.tpm.chosen last = a.tp ∧ s.tpm.someForeign earlier last = isForeign ∧
      rest = a.unused := by
    simpa only [Except.ok.injEq, Prod.mk.injEq] using hprofile
  rw [hforeign, ← htp]
  change (_ ↔ s.tpm.asksForeign last = true) ↔ _
  unfold TrafficProfileManager.someForeign
  rw [← List.any_eq_true]
  cases (s.managers p).topCM <;> cases s.tpm.asksForeign last <;>
    cases earlier.any s.tpm.asksForeign <;> simp

end GetServer

/-! ## A decision of a profile that was thrown away -/

def webAndPing : List TrafficProfile :=
  [{ TrafficProfile.new with
      profileID := 3, label := "Web".toList, probability := 1, WANprob := 100 },
    { TrafficProfile.new with profileID := 21, label := "Ping".toList, probability := 1 }]

def webAndPingManager : TrafficProfileManager := .ofProfiles webAndPing (by decide)

def webDraw : ProfileDraw :=
  { foreignServerProb := ⟨1 / 2, by decide +kernel, by decide +kernel⟩
    profileProb := ⟨1 / 4, by decide +kernel, by decide +kernel⟩ }

def pingDraw : ProfileDraw :=
  { foreignServerProb := ⟨1 / 2, by decide +kernel, by decide +kernel⟩
    profileProb := ⟨3 / 4, by decide +kernel, by decide +kernel⟩ }

def flatSystem (tpm : TrafficProfileManager) : System :=
  (System.start tpm fun _ => 1).registerConnectionManager 0 none

def redrawnPing : Except Stop (System × Answer) :=
  (flatSystem webAndPingManager).getServer 0 .unspecified (webAndPingManager.chosen webDraw) 3 7
    { profile := [webDraw, pingDraw], own := fun _ => 0, foreign := fun _ => ⟨0, fun _ => 0⟩ }

theorem foreign_branch_redrawn :
    redrawnPing.map (·.2) =
      .ok { ti := .unspecified, tp := webAndPingManager.chosen pingDraw, foreign := true,
            unused := [] } ∧
    (webAndPingManager.chosen pingDraw).WANprob.ge
      (.finite pingDraw.foreignServerProb.value) = false := by
  decide +kernel

def redrawnWeb : Except Stop (System × Answer) :=
  (flatSystem webAndPingManager).getServer 0 .unspecified (webAndPingManager.chosen pingDraw) 21 7
    { profile := [pingDraw, webDraw], own := fun _ => 0, foreign := fun _ => ⟨0, fun _ => 0⟩ }

theorem foreign_branch_web :
    ∃ s' a, redrawnWeb = .ok (s', a) ∧
      (a.foreign = true ↔ a.tp.WANprob.ge (.finite webDraw.foreignServerProb.value) = true) := by
  have hspends : (flatSystem webAndPingManager).tpm.Spends (webAndPingManager.chosen pingDraw) 21
      [pingDraw] webDraw := by
    refine .redrawn (by decide) (by decide +kernel) (fun d hd => ?_) (by decide +kernel)
    cases List.mem_singleton.mp hd
    decide +kernel
  cases h : redrawnWeb with
  | error f =>
    have hok : (redrawnWeb.map (·.2)).isOk = true := by decide +kernel
    rw [h] at hok
    cases hok
  | ok result =>
    refine ⟨_, _, rfl, (foreign_branch_iff hspends rfl h).mpr ⟨fun hnone => ?_, fun _ _ => ?_⟩⟩
    · exact absurd hnone (by decide)
    · decide +kernel

end WormsAttack.Traffic
