/-
  The loop of `transmissionDone`.

  A user asks its manager for a profile and a server, up to 100 times.

  The profile of the last transmission is read from `currentProfileId`.  No function sets that
  member, so it is -1 in every user there is.
-/
import WormsAttack.Traffic.Redraw

namespace WormsAttack.Traffic

open Foundation Inet

namespace InetUser

variable {u u' : InetUser} {s s' : System} {ti t : TargetInfo} {tp : TrafficProfile}
  {exceptId : Int} {left : Nat} {a : Answer} {done : Transmission}

/-! ## The end of `transmissionDone` -/

def CanStart (u : InetUser) (profileId : Int) (t : TargetInfo) : Prop :=
  ∃ type, getAppType profileId = some type ∧ u.applications type = true ∧
    (type = .icmp ∨ 0 < t.port)

/-- What `transmissionDone` does not change. -/
structure Same (u u' : InetUser) : Prop where
  id : u'.id = u.id
  cm : u'.cm = u.cm
  applications : u'.applications = u.applications
  currentProfileId : u'.currentProfileId = u.currentProfileId

theorem Same.symm (h : u.Same u') : u'.Same u :=
  ⟨h.id.symm, h.cm.symm, h.applications.symm, h.currentProfileId.symm⟩

structure Ends (u : InetUser) (a : Answer) (left : Nat) (u' : InetUser) (done : Transmission) :
    Prop where
  same : u.Same u'
  runs : done.runs = 100 - left
  started : ∀ type tp ti, done.started = some (type, tp, ti) →
    tp = a.tp ∧ ti = a.ti ∧ u.CanStart a.tp.profileID a.ti

theorem ends_start {u₁ : InetUser} {type : AppType}
    (h : u₁.start type (100 - left) = .ok (u', done)) (hsame : u.Same u₁)
    (htp : u₁.curTrafficProfile = a.tp) (hti : u₁.curTargetInfo = a.ti)
    (htype : getAppType a.tp.profileID = some type) (hport : type = .icmp ∨ 0 < a.ti.port) :
    Ends u a left u' done := by
  obtain ⟨hset, h⟩ := guard_eq_ok.mp h
  cases h
  refine ⟨hsame, rfl, fun type' tp ti hstarted => ?_⟩
  cases hstarted
  rw [hsame.applications] at hset
  exact ⟨htp, hti, type, htype, hset, hport⟩

theorem ends_skip {u₁ : InetUser} (hsame : u.Same u₁) :
    Ends u a left u₁ { started := none, runs := 100 - left } :=
  ⟨hsame, rfl, fun _ _ _ hnone => by cases hnone⟩

variable {draws : Nat → ServerDraws} {s₀ : System} {id : Int}

theorem transmissionDone_ok (h : u.transmissionDone s draws = .ok (s', u', done)) :
    ∃ a left, u.attempts draws 99 s u.curTargetInfo u.curTrafficProfile u.currentProfileId =
      .ok (s', a, left) ∧ Ends u a left u' done := by
  obtain ⟨⟨s₁, a, left⟩, hattempts, h⟩ := bind_eq_ok.mp h
  obtain ⟨-, h⟩ := unless_eq_ok.mp h
  split at h
  case h_1 => cases h
  case h_2 htype | h_4 htype =>
    split_ifs at h with hport
    · obtain ⟨⟨u₁, done₁⟩, hstart, h⟩ := bind_eq_ok.mp h
      cases h
      exact ⟨a, left, hattempts, ends_start hstart ⟨rfl, rfl, rfl, rfl⟩ rfl rfl htype (.inr hport)⟩
    · cases h
      exact ⟨a, left, hattempts, ends_skip ⟨rfl, rfl, rfl, rfl⟩⟩
  case h_3 htype =>
    obtain ⟨⟨u₁, done₁⟩, hstart, h⟩ := bind_eq_ok.mp h
    cases h
    exact ⟨a, left, hattempts, ends_start hstart ⟨rfl, rfl, rfl, rfl⟩ rfl rfl htype (.inl rfl)⟩

theorem transmissionDone_same (h : u.transmissionDone s draws = .ok (s', u', done)) :
    u.Same u' := by
  obtain ⟨a, left, -, hends⟩ := transmissionDone_ok h
  exact hends.same

theorem transmissionDone_of_attempts
    (h : u.attempts draws 99 s u.curTargetInfo u.curTrafficProfile u.currentProfileId =
      .ok (s', a, left)) (hserver : a.ti.address.isUnspecified = false)
    (hstart : u.CanStart a.tp.profileID a.ti) :
    ∃ u' type, u.transmissionDone s draws =
      .ok (s', u', { started := some (type, a.tp, a.ti), runs := 100 - left }) := by
  obtain ⟨type, htype, hset, hport⟩ := hstart
  have hfound : ¬ (100 - left = 100 ∧ a.ti.address.isUnspecified = true) := fun hfail =>
    Bool.false_ne_true (hserver.symm.trans hfail.2)
  unfold transmissionDone
  rw [h, ok_bind]
  dsimp only
  rw [if_neg hfound, htype]
  cases type with
  | icmp => exact ⟨_, _, bind_eq_ok.mpr ⟨_, if_pos hset, rfl⟩⟩
  | udp | tcp =>
    have hport : a.ti.port > 0 := by simpa using hport
    dsimp only
    rw [if_pos hport]
    exact ⟨_, _, bind_eq_ok.mpr ⟨_, if_pos hset, rfl⟩⟩

inductive Reached : InetUser → Prop
  | new (id : Int) (cm : Nat) : Reached (.new id cm)
  | setApplication {u : InetUser} (type : AppType) : Reached u → Reached (u.setApplication type)
  | transmissionDone {u u' : InetUser} {s s' : System} {draws : Nat → ServerDraws}
      {done : Transmission} :
      Reached u → u.transmissionDone s draws = .ok (s', u', done) → Reached u'

theorem Reached.currentProfileId_eq (h : u.Reached) : u.currentProfileId = -1 := by
  induction h with
  | new => rfl
  | setApplication _ _ ih => exact ih
  | transmissionDone _ hdone ih => rw [(transmissionDone_same hdone).currentProfileId, ih]

theorem Reached.mayDraw (hu : u.Reached) (s : System) (d : ProfileDraw) :
    s.tpm.MayDraw u.curTrafficProfile u.currentProfileId (s.tpm.chosen d) (s.tpm.asksForeign d) :=
  .spent (.first hu.currentProfileId_eq)

/-! ## The loop -/

/-- The states at the start of a round, with `left` rounds left after it. -/
inductive Inside (u : InetUser) (s₀ : System) :
    (left : Nat) → System → TargetInfo → TrafficProfile → (exceptId : Int) → Prop
  | start : Inside u s₀ 99 s₀ u.curTargetInfo u.curTrafficProfile u.currentProfileId
  | again {left : Nat} {s s' : System} {ti : TargetInfo} {tp : TrafficProfile} {exceptId : Int}
      {draws : ServerDraws} {a : Answer} :
      Inside u s₀ (left + 1) s ti tp exceptId →
      u.attempt s ti tp exceptId (left + 1) draws = .ok (s', a) →
      a.ti.address.isUnspecified = true → Inside u s₀ left s' a.ti a.tp a.tp.profileID

theorem attempts_ok {left' : Nat} :
    ∀ {left : Nat} {s : System} {ti : TargetInfo} {tp : TrafficProfile} {exceptId : Int},
      Inside u s₀ left s ti tp exceptId →
      u.attempts draws left s ti tp exceptId = .ok (s', a, left') →
      (left' ≠ 0 → a.ti.address.isUnspecified = false) ∧
      ∃ s ti tp exceptId, Inside u s₀ left' s ti tp exceptId ∧
        u.attempt s ti tp exceptId left' (draws left') = .ok (s', a) := by
  intro left
  induction left with
  | zero =>
    intro s ti tp exceptId hinside h
    obtain ⟨⟨s₁, a₁⟩, hattempt, h⟩ := bind_eq_ok.mp h
    cases h
    exact ⟨fun hne => absurd rfl hne, s, ti, tp, exceptId, hinside, hattempt⟩
  | succ left ih =>
    intro s ti tp exceptId hinside h
    obtain ⟨⟨s₁, a₁⟩, hattempt, h⟩ := bind_eq_ok.mp h
    dsimp only at h
    split_ifs at h with hunspec
    · exact ih (hinside.again hattempt hunspec) h
    · cases h
      exact ⟨fun _ => Bool.not_eq_true _ ▸ hunspec, s, ti, tp, exceptId, hinside, hattempt⟩

theorem attempt_bare {draws : ServerDraws}
    (h : u.attempt s ti tp exceptId left draws = .ok (s', a)) : s'.bare = s.bare := by
  obtain ⟨-, -, -, hbare, -⟩ := getServer_ok h
  exact hbare

theorem Inside.bare_eq (h : u.Inside s₀ left s ti tp exceptId) : s.bare = s₀.bare := by
  induction h with
  | start => rfl
  | again _ hattempt _ ih => exact (attempt_bare hattempt).trans ih

theorem transmissionDone_bare (h : u.transmissionDone s draws = .ok (s', u', done)) :
    s'.bare = s.bare := by
  obtain ⟨a, left, hattempts, -⟩ := transmissionDone_ok h
  obtain ⟨-, s₁, ti, tp, exceptId, hinside, hattempt⟩ := attempts_ok .start hattempts
  exact (attempt_bare hattempt).trans hinside.bare_eq

theorem attempt_eq (hleft : left ≠ 50) (draws : ServerDraws) :
    u.attempt s ti tp exceptId left draws = s.getServer u.cm ti tp exceptId u.id draws := by
  unfold attempt
  rw [if_neg (by omega)]

/-! ## Profiles that can be used -/

/-- What can be found within the first 49 rounds. -/
inductive MayGet (u : InetUser) (s : System) : Int → TargetInfo → Prop
  | first {d : ProfileDraw} {t : TargetInfo} :
      s.MayServe u.cm (s.tpm.chosen d).profileID u.id (s.tpm.asksForeign d) t →
      MayGet u s (s.tpm.chosen d).profileID t
  | redrawn {id : Int} {d₁ d₂ d : ProfileDraw} {t₁ t : TargetInfo} :
      id ≠ -1 → (s.tpm.chosen d₁).profileID = id →
      s.MayServe u.cm id u.id (s.tpm.asksForeign d₁) t₁ → t₁.address.isUnspecified = true →
      (s.tpm.chosen d₂).profileID = id → s.tpm.asksForeign d₂ = true →
      (s.tpm.chosen d).profileID ≠ id →
      s.MayServe u.cm (s.tpm.chosen d).profileID u.id true t →
      MayGet u s (s.tpm.chosen d).profileID t

def MayUse (u : InetUser) (s : System) (id : Int) : Prop :=
  ∃ t, u.MayGet s id t ∧ t.address.isUnspecified = false ∧ u.CanStart id t

theorem tpm_congr (h : s'.bare = s.bare) : s'.tpm = s.tpm := by
  have hsame := congrArg System.tpm h
  exact hsame

theorem MayGet.congr (h : s'.bare = s.bare) (hu : u.Same u') (hmay : u'.MayGet s' id t) :
    u.MayGet s id t := by
  cases hmay with
  | first hserve =>
    rw [tpm_congr h, hu.cm, hu.id] at *
    exact .first (hserve.congr h)
  | redrawn hne hd₁ hserve₁ hunspec hd₂ hasks hd hserve =>
    rw [tpm_congr h, hu.cm, hu.id] at *
    exact .redrawn hne hd₁ (hserve₁.congr h) hunspec hd₂ hasks hd (hserve.congr h)

/-- The profile was drawn before, and had no server; if one of the own network was asked for, a draw
does so. -/
def Failed (u : InetUser) (s : System) (id : Int) : Prop :=
  ∃ isForeign t, s.MayServe u.cm id u.id isForeign t ∧ t.address.isUnspecified = true ∧
    (isForeign = false → ∃ d, (s.tpm.chosen d).profileID = id ∧ s.tpm.asksForeign d = false)

theorem getServer_cases {draws : ServerDraws} (hbare : s.bare = s₀.bare)
    (hexcept : exceptId = -1 ∨ tp.profileID = exceptId ∧ u.Failed s₀ exceptId)
    (h : s.getServer u.cm ti tp exceptId u.id draws = .ok (s', a)) :
    u.MayGet s₀ a.tp.profileID a.ti ∧
      (a.ti.address.isUnspecified = true → u.Failed s₀ a.tp.profileID) := by
  obtain ⟨isForeign, hprofile, -, -, hserve⟩ := getServer_ok h
  have hdraw := TrafficProfileManager.requestProfile_ok hprofile
  rw [tpm_congr hbare] at hdraw
  replace hserve := hserve.congr hbare
  obtain ⟨ti', tp', foreign, unused⟩ := a
  -- a draw that decides by itself
  have hdirect : ∀ {d}, tp' = s₀.tpm.chosen d → isForeign = s₀.tpm.asksForeign d →
      u.MayGet s₀ tp'.profileID ti' ∧
        (ti'.address.isUnspecified = true → u.Failed s₀ tp'.profileID) := by
    rintro d rfl rfl
    exact ⟨.first hserve, fun hunspec => ⟨_, _, hserve, hunspec, fun hlocal => ⟨d, rfl, hlocal⟩⟩⟩
  cases hdraw with
  | kept hsome htp =>
    rcases hexcept with hnone | ⟨hsame, -⟩
    · exact absurd hnone hsome
    · exact absurd hsame htp
  | @spent earlier last hspends =>
    cases hspends with
    | first => exact hdirect rfl rfl
    | redrawn hsome htp hearlier hlast =>
      cases hany : earlier.any s₀.tpm.asksForeign with
      | false =>
        refine hdirect rfl ?_
        unfold TrafficProfileManager.someForeign
        rw [hany, Bool.false_or]
      | true =>
        have hforeign : s₀.tpm.someForeign earlier last = true := by
          unfold TrafficProfileManager.someForeign
          rw [hany, Bool.true_or]
        rw [hforeign] at hserve
        obtain ⟨d₂, hd₂, hasks⟩ := List.any_eq_true.mp hany
        obtain ⟨-, hfailed⟩ := hexcept.resolve_left hsome
        refine ⟨?_, fun hunspec => ⟨true, ti', hserve, hunspec, Bool.noConfusion⟩⟩
        -- the profile fails in a first round as well, with `d₂` or with a draw of its own
        obtain ⟨isForeign, t₁, hserve₁, hunspec₁, hlocal⟩ := hfailed
        cases isForeign with
        | true =>
          refine .redrawn hsome (hearlier d₂ hd₂) ?_ hunspec₁ (hearlier d₂ hd₂) hasks hlast hserve
          rw [hasks]
          exact hserve₁
        | false =>
          obtain ⟨d₁, hd₁, hasks₁⟩ := hlocal rfl
          refine .redrawn hsome hd₁ ?_ hunspec₁ (hearlier d₂ hd₂) hasks hlast hserve
          rw [hasks₁]
          exact hserve₁

theorem inside_failed (hu : u.Reached) (h : u.Inside s₀ left s ti tp exceptId) (hleft : 50 ≤ left) :
    exceptId = -1 ∨ tp.profileID = exceptId ∧ u.Failed s₀ exceptId := by
  induction h with
  | start => exact .inl hu.currentProfileId_eq
  | again hinside hattempt hunspec ih =>
    rw [attempt_eq (by omega)] at hattempt
    obtain ⟨-, hfailed⟩ := getServer_cases hinside.bare_eq (ih (by omega)) hattempt
    exact .inr ⟨rfl, hfailed hunspec⟩

/-- Soundness: a transmission that is started in one of the first 49 rounds. -/
theorem mayUse_of_done (hu : u.Reached) {type : AppType}
    (h : u.transmissionDone s draws = .ok (s', u', done))
    (hstarted : done.started = some (type, tp, ti)) (hruns : done.runs ≤ 49) :
    u.MayUse s tp.profileID := by
  obtain ⟨a, left, hattempts, hends⟩ := transmissionDone_ok h
  obtain ⟨rfl, rfl, hstart⟩ := hends.started type tp ti hstarted
  have hleft := hends.runs
  obtain ⟨hserver, s₁, ti, tp, exceptId, hinside, hattempt⟩ := attempts_ok .start hattempts
  have hexcept := inside_failed hu hinside (by omega)
  rw [attempt_eq (by omega)] at hattempt
  obtain ⟨hget, -⟩ := getServer_cases hinside.bare_eq hexcept hattempt
  exact ⟨a.ti, hget, hserver (by omega), hstart⟩

theorem attempts_first (draws : Nat → ServerDraws)
    (h : s.getServer u.cm ti tp exceptId u.id (draws 99) = .ok (s', a))
    (hserver : a.ti.address.isUnspecified = false) :
    u.attempts draws 99 s ti tp exceptId = .ok (s', a, 99) := by
  refine bind_eq_ok.mpr ⟨_, (attempt_eq (by decide) _).trans h, ?_⟩
  exact if_neg (ne_true_of_eq_false hserver)

theorem attempts_second (draws : Nat → ServerDraws) {s₁ : System} {a₁ : Answer}
    (h₁ : s.getServer u.cm ti tp exceptId u.id (draws 99) = .ok (s₁, a₁))
    (hunspec : a₁.ti.address.isUnspecified = true)
    (h : s₁.getServer u.cm a₁.ti a₁.tp a₁.tp.profileID u.id (draws 98) = .ok (s', a))
    (hserver : a.ti.address.isUnspecified = false) :
    u.attempts draws 99 s ti tp exceptId = .ok (s', a, 98) := by
  refine bind_eq_ok.mpr ⟨_, (attempt_eq (by decide) _).trans h₁, ?_⟩
  dsimp only
  rw [if_pos hunspec]
  refine bind_eq_ok.mpr ⟨_, (attempt_eq (by decide) _).trans h, ?_⟩
  exact if_neg (ne_true_of_eq_false hserver)

/-- Completeness: what can be used is used for some draws. -/
theorem exists_transmissionDone (hu : u.Reached) (h : u.MayUse s id) :
    ∃ draws s' u' done type tp ti, u.transmissionDone s draws = .ok (s', u', done) ∧
      done.started = some (type, tp, ti) ∧ tp.profileID = id ∧ done.runs ≤ 49 := by
  obtain ⟨t, hget, hserver, hstart⟩ := h
  -- what is left is the loop, which ends in one of the first rounds
  have hloop : ∀ {draws s' a left},
      u.attempts draws 99 s u.curTargetInfo u.curTrafficProfile u.currentProfileId =
        .ok (s', a, left) → 51 ≤ left → a.ti = t → a.tp.profileID = id →
      ∃ draws s' u' done type tp ti, u.transmissionDone s draws = .ok (s', u', done) ∧
        done.started = some (type, tp, ti) ∧ tp.profileID = id ∧ done.runs ≤ 49 := by
    rintro draws s' a left hattempts hleft rfl rfl
    obtain ⟨u', type, hdone⟩ := transmissionDone_of_attempts hattempts hserver hstart
    refine ⟨draws, s', u', _, type, a.tp, a.ti, hdone, rfl, rfl, ?_⟩
    change 100 - left ≤ 49
    omega
  cases hget with
  | @first d _ hserve =>
    obtain ⟨draws, s', a, hserver', rfl, htp⟩ :=
      exists_getServer (hu.mayDraw s d) hserve u.curTargetInfo
    have hattempts := attempts_first (fun _ => draws) hserver' hserver
    exact hloop hattempts (by decide) rfl (congrArg _ htp)
  | @redrawn _ d₁ d₂ d _ _ hne hd₁ hserve₁ hunspec hd₂ hasks hd hserve =>
    subst hd₁
    obtain ⟨draws₁, s₁, a₁, hserver₁, rfl, htp₁⟩ :=
      exists_getServer (hu.mayDraw s d₁) hserve₁ u.curTargetInfo
    have hbare := (getServer_ok hserver₁).choose_spec.2.2.1
    have hspends : s.tpm.Spends a₁.tp a₁.tp.profileID [d₂] d := by
      rw [htp₁]
      exact .redrawn hne rfl (List.forall_mem_singleton.mpr hd₂) hd
    have hforeign : s.tpm.someForeign [d₂] d = true := by
      unfold TrafficProfileManager.someForeign
      rw [List.any_cons, hasks, Bool.true_or, Bool.true_or]
    have hdraw : s₁.tpm.MayDraw a₁.tp a₁.tp.profileID (s.tpm.chosen d) true := by
      rw [tpm_congr hbare, ← hforeign]
      exact .spent hspends
    obtain ⟨draws, s', a, hserver', rfl, htp⟩ :=
      exists_getServer hdraw (hserve.congr hbare.symm) a₁.ti
    let both (left : Nat) : ServerDraws := if left = 99 then draws₁ else draws
    have hattempts := attempts_second both hserver₁ hunspec hserver' hserver
    exact hloop hattempts (by decide) rfl (congrArg _ htp)

theorem MayUse.congr (h : s'.bare = s.bare) (hu : u.Same u') (hmay : u'.MayUse s' id) :
    u.MayUse s id := by
  obtain ⟨t, hget, hserver, type, htype, hset, hport⟩ := hmay
  rw [hu.applications] at hset
  exact ⟨t, hget.congr h hu, hserver, type, htype, hset, hport⟩

/-- Two transmissions in a row are of different profiles, whatever is drawn, if the second one
takes at most 49 rounds.  The configuration is the same for both. -/
def Alternates (u : InetUser) (s : System) : Prop :=
  ∀ draws s₁ u₁ done₁ type₁ tp₁ ti₁ s₁' draws' s₂ u₂ done₂ type₂ tp₂ ti₂,
    u.transmissionDone s draws = .ok (s₁, u₁, done₁) →
    done₁.started = some (type₁, tp₁, ti₁) → s₁'.bare = s₁.bare →
    u₁.transmissionDone s₁' draws' = .ok (s₂, u₂, done₂) →
    done₂.started = some (type₂, tp₂, ti₂) → done₂.runs ≤ 49 → tp₁.profileID ≠ tp₂.profileID

end InetUser

/-- Every user, in every system: profiles alternate exactly if there is none that can be used. -/
theorem profiles_alternate_iff {u : InetUser} (hu : u.Reached) (s : System) :
    u.Alternates s ↔ ∀ id, ¬ u.MayUse s id := by
  constructor
  · intro h id huse
    obtain ⟨draws, s₁, u₁, done₁, type₁, tp₁, ti₁, hdone₁, hstarted₁, hid₁, -⟩ :=
      InetUser.exists_transmissionDone hu huse
    -- what could be used can be used again
    have hsame := InetUser.transmissionDone_same hdone₁
    have hbare := InetUser.transmissionDone_bare hdone₁
    have huse₁ : u₁.MayUse s₁ id := huse.congr hbare.symm hsame.symm
    obtain ⟨draws', s₂, u₂, done₂, type₂, tp₂, ti₂, hdone₂, hstarted₂, hid₂, hruns⟩ :=
      InetUser.exists_transmissionDone (hu.transmissionDone hdone₁) huse₁
    exact h draws s₁ u₁ done₁ type₁ tp₁ ti₁ s₁ draws' s₂ u₂ done₂ type₂ tp₂ ti₂ hdone₁ hstarted₁
      rfl hdone₂ hstarted₂ hruns (hid₁.trans hid₂.symm)
  · intro h draws s₁ u₁ done₁ type₁ tp₁ ti₁ s₁' draws' s₂ u₂ done₂ type₂ tp₂ ti₂ hdone₁ _ hbare'
      hdone₂ hstarted₂ hruns _
    have hsame := InetUser.transmissionDone_same hdone₁
    have hbare := InetUser.transmissionDone_bare hdone₁
    have huse₁ := InetUser.mayUse_of_done (hu.transmissionDone hdone₁) hdone₂ hstarted₂ hruns
    exact h tp₂.profileID (huse₁.congr (hbare'.trans hbare) hsame)

def webAndPingUser : InetUser :=
  ((InetUser.new 7 0).setApplication .tcp).setApplication .icmp

theorem webAndPingUser_reached : webAndPingUser.Reached :=
  ((InetUser.Reached.new 7 0).setApplication .tcp).setApplication .icmp

def webAndPingServers : System :=
  let s := flatSystem webAndPingManager
  s.store 0 (((s.managers 0).registerServer ⟨0x0a000001⟩ 80 3 (-1)).registerServer
    ⟨0x0a000002⟩ 8 21 (-1))

def webRound : ServerDraws :=
  { profile := [webDraw], own := fun _ => 0, foreign := fun _ => ⟨0, fun _ => 0⟩ }

def webTransmission : Transmission :=
  { started := some (.tcp, webAndPingManager.chosen webDraw, ⟨⟨0x0a000001⟩, 80⟩), runs := 1 }

theorem profiles_repeat :
    (webAndPingUser.transmissionDone webAndPingServers (fun _ => webRound) >>= fun first =>
      first.2.1.transmissionDone first.1 (fun _ => webRound) >>= fun second =>
        .ok (first.2.2, second.2.2)) =
    .ok (webTransmission, webTransmission) := by
  decide +kernel

theorem profiles_alternate_web : ¬ webAndPingUser.Alternates webAndPingServers := by
  rw [profiles_alternate_iff webAndPingUser_reached]
  intro h
  have hoffers : (webAndPingServers.managers 0).Offers 3 ⟨⟨0x0a000001⟩, 80⟩ (-1) :=
    ⟨_, rfl, _, List.mem_singleton_self _, rfl, rfl⟩
  have hid : (webAndPingServers.tpm.chosen webDraw).profileID = 3 := by decide +kernel
  have hasks : webAndPingServers.tpm.asksForeign webDraw = true := by decide +kernel
  have hserve : webAndPingServers.MayServe 0 (webAndPingServers.tpm.chosen webDraw).profileID 7
      (webAndPingServers.tpm.asksForeign webDraw) ⟨⟨0x0a000001⟩, 80⟩ := by
    rw [hid, hasks]
    exact .flat rfl rfl rfl (.found hoffers (by decide))
  refine h _ ⟨_, .first hserve, rfl, .tcp, ?_, rfl, .inr (by decide)⟩
  rw [hid]
  rfl

/-! ## An endless draw -/

variable {ports : Nat → Nat}

theorem profileID_close {r : Reader} {t : TrafficProfile} (h : ∀ t ∈ r.profiles, t.profileID ≠ -1) :
    ∀ t' ∈ (r.close ports t).profiles, t'.profileID ≠ -1 := by
  unfold Reader.close
  split
  · exact h
  split
  · exact h
  rename_i hid
  intro t' ht'
  rcases List.mem_append.mp ht' with ht' | ht'
  · exact h t' ht'
  · cases List.mem_singleton.mp ht'
    exact hid

theorem profileID_readLine {buf : List Char} {r r' : Reader}
    (h : ∀ t ∈ r.profiles, t.profileID ≠ -1) (hline : readLine ports r buf = .ok r') :
    ∀ t ∈ r'.profiles, t.profileID ≠ -1 := by
  unfold readLine at hline
  split at hline
  · cases hline
    exact h
  split at hline
  · cases hline
    exact h
  split at hline
  · cases hline
    exact h
  split at hline
  · split at hline
    · cases hline
    split at hline
    · cases hline
    · cases hline
      exact h
  · cases hline
    split
    · exact profileID_close h
    · exact h

theorem profileID_initial {fileName : String} {file : Option (List Char)} {ports : Nat → Nat}
    {tpm : TrafficProfileManager}
    (h : TrafficProfileManager.initial fileName file ports = .ok tpm) :
    ∀ t ∈ tpm.profiles, t.profileID ≠ -1 := by
  unfold TrafficProfileManager.initial at h
  split at h
  · cases h
  obtain ⟨profiles, hread, h⟩ := bind_eq_ok.mp h
  obtain ⟨r, hlines, hread⟩ := bind_eq_ok.mp hread
  cases hread
  have hids : ∀ t ∈ r.profiles, t.profileID ≠ -1 :=
    foldlM_invariant (I := fun r : Reader => ∀ t ∈ r.profiles, t.profileID ≠ -1)
      (fun buf _ r r' hr hr' => profileID_readLine hr hr') (List.forall_mem_nil _) hlines
  split at h
  · cases h
  cases h
  intro t ht
  obtain ⟨t', ht', rfl⟩ := List.mem_map.mp ht
  exact hids t' ht'

theorem chosen_mem (tpm : TrafficProfileManager) (d : ProfileDraw) : tpm.chosen d ∈ tpm.profiles :=
  List.get_mem _ _

/-- The first part of every call of `getServer` in `transmissionDone` has draws with which it
comes to an end. -/
def InetUser.RedrawEnds (u : InetUser) (s : System) : Prop :=
  ∀ left s' ti tp exceptId, u.Inside s left s' ti tp exceptId →
    ∃ draws result,
      System.requestProfile s'.tpm tp (if 100 - left = 50 then -1 else exceptId) draws = .ok result

theorem exists_requestProfile_of_ne {tpm : TrafficProfileManager} {d e : ProfileDraw}
    (hne : (tpm.chosen d).profileID ≠ (tpm.chosen e).profileID) (tp : TrafficProfile)
    (except : Int) : ∃ draws result, System.requestProfile tpm tp except draws = .ok result := by
  have hdraw : ∃ tp' isForeign, tpm.MayDraw tp except tp' isForeign := by
    by_cases hnone : except = -1
    · exact ⟨_, _, .spent (@TrafficProfileManager.Spends.first tpm tp except d hnone)⟩
    by_cases htp : tp.profileID = except
    · by_cases hd : (tpm.chosen d).profileID = except
      · have he : (tpm.chosen e).profileID ≠ except := fun he => hne (hd.trans he.symm)
        exact ⟨_, _, .spent (.redrawn hnone htp (List.forall_mem_nil _) he)⟩
      · exact ⟨_, _, .spent (.redrawn hnone htp (List.forall_mem_nil _) hd)⟩
    · exact ⟨_, _, .kept hnone htp⟩
  obtain ⟨tp', isForeign, hdraw⟩ := hdraw
  obtain ⟨draws, hdraws⟩ := TrafficProfileManager.exists_requestProfile hdraw
  exact ⟨draws, _, hdraws⟩

theorem InetUser.not_redrawEnds {u : InetUser} (hu : u.Reached) {s : System} {d : ProfileDraw}
    {t : TargetInfo} (hid : (s.tpm.chosen d).profileID ≠ -1)
    (hone : ∀ e, (s.tpm.chosen e).profileID = (s.tpm.chosen d).profileID)
    (hserve : s.MayServe u.cm (s.tpm.chosen d).profileID u.id (s.tpm.asksForeign d) t)
    (hunspec : t.address.isUnspecified = true) : ¬ u.RedrawEnds s := by
  intro hends
  obtain ⟨draws, s', a, hget, rfl, htp⟩ :=
    exists_getServer (hu.mayDraw s d) hserve u.curTargetInfo
  have hinside : u.Inside s 98 s' a.ti a.tp a.tp.profileID :=
    .again .start ((attempt_eq (by decide) draws).trans hget) hunspec
  -- the second round excludes the only profile
  obtain ⟨draws', ⟨tp', isForeign, unused⟩, hprofile⟩ := hends _ _ _ _ _ hinside
  rw [tpm_congr hinside.bare_eq, if_neg (by decide)] at hprofile
  cases TrafficProfileManager.requestProfile_ok hprofile with
  | kept _ hkept => exact hkept rfl
  | spent hspends =>
    rw [htp] at hspends
    cases hspends with
    | first hnone => exact hid hnone
    | redrawn _ _ _ hlast => exact hlast (hone _)

theorem InetUser.inside_start {u : InetUser} (hu : u.Reached) {s₀ s : System} {left : Nat}
    {ti : TargetInfo} {tp : TrafficProfile} {exceptId : Int}
    (hserved : ∀ d t, s₀.MayServe u.cm (s₀.tpm.chosen d).profileID u.id (s₀.tpm.asksForeign d) t →
      t.address.isUnspecified = false)
    (h : u.Inside s₀ left s ti tp exceptId) : left = 99 ∧ exceptId = -1 := by
  induction h with
  | start => exact ⟨rfl, hu.currentProfileId_eq⟩
  | again hinside hattempt hunspec ih =>
    obtain ⟨hleft, hnone⟩ := ih
    rw [attempt_eq (by omega)] at hattempt
    obtain ⟨isForeign, hprofile, -, -, hserve⟩ := getServer_ok hattempt
    obtain ⟨d, htp, rfl⟩ := (TrafficProfileManager.requestProfile_ok hprofile).first hnone
    rw [htp, tpm_congr hinside.bare_eq] at hserve
    exact absurd hunspec (ne_true_of_eq_false (hserved d _ (hserve.congr hinside.bare_eq)))

/-- For every file that is accepted, every system and every user: each call can come to an end,
exactly if two profiles can be drawn, or a server is found for the only one in any case. -/
theorem redraw_ends_iff {fileName : String} {file : Option (List Char)} {ports : Nat → Nat}
    {s : System} (h : TrafficProfileManager.initial fileName file ports = .ok s.tpm)
    {u : InetUser} (hu : u.Reached) :
    u.RedrawEnds s ↔
      (∃ d e, (s.tpm.chosen d).profileID ≠ (s.tpm.chosen e).profileID) ∨
      ∀ d t, s.MayServe u.cm (s.tpm.chosen d).profileID u.id (s.tpm.asksForeign d) t →
        t.address.isUnspecified = false := by
  constructor
  · intro hends
    by_cases htwo : ∃ d e, (s.tpm.chosen d).profileID ≠ (s.tpm.chosen e).profileID
    · exact .inl htwo
    refine .inr fun d t hserve => Bool.eq_false_iff.mpr fun hunspec => ?_
    have hid := profileID_initial h _ (chosen_mem s.tpm d)
    have hone : ∀ e, (s.tpm.chosen e).profileID = (s.tpm.chosen d).profileID := fun e =>
      not_not.mp fun hne => htwo ⟨e, d, hne⟩
    exact InetUser.not_redrawEnds hu hid hone hserve hunspec hends
  · intro hcond left s' ti tp exceptId hinside
    rw [InetUser.tpm_congr hinside.bare_eq]
    rcases hcond with ⟨d, e, hne⟩ | hserved
    · exact exists_requestProfile_of_ne hne tp _
    · obtain ⟨rfl, rfl⟩ := InetUser.inside_start hu hserved hinside
      exact ⟨[webDraw], _, TrafficProfileManager.requestProfile_spends (.first rfl)⟩

def webFile : List Char :=
  "<Profile>\n<Id><3>\n<Label><Web>\n<Ratio><1>\n</Profile>\n".toList

def webAndPingFile : List Char :=
  webFile ++ "<Profile>\n<Id><21>\n<Label><Ping>\n<Ratio><1>\n</Profile>\n".toList

def webProfile : TrafficProfile :=
  { TrafficProfile.new with
    profileID := 3, label := "Web".toList, probability := 1, ownPort := 1500 }

def pingProfile : TrafficProfile :=
  { TrafficProfile.new with
    profileID := 21, label := "Ping".toList, probability := 1, ownPort := 1500 }

def webReader : TrafficProfileManager := .ofProfiles [webProfile] (by decide)

def webAndPingReader : TrafficProfileManager := .ofProfiles [webProfile, pingProfile] (by decide)

theorem redraw_endless :
    TrafficProfileManager.initial "profiles" (some webFile) (fun _ => 0) =
      .ok (flatSystem webReader).tpm ∧
    ¬ webAndPingUser.RedrawEnds (flatSystem webReader) := by
  refine ⟨by decide +kernel, ?_⟩
  have hid : ((flatSystem webReader).tpm.chosen webDraw).profileID ≠ -1 := by decide +kernel
  have hasks : (flatSystem webReader).tpm.asksForeign webDraw = false := by decide +kernel
  have hserve : (flatSystem webReader).MayServe 0
      ((flatSystem webReader).tpm.chosen webDraw).profileID 7
      ((flatSystem webReader).tpm.asksForeign webDraw) .unspecified := by
    rw [hasks]
    exact .nowhere rfl rfl rfl (.unknown rfl)
  exact InetUser.not_redrawEnds webAndPingUser_reached hid (fun e => rfl) hserve rfl

theorem redraw_ends_two : webAndPingUser.RedrawEnds (flatSystem webAndPingReader) := by
  have hfile : TrafficProfileManager.initial "profiles" (some webAndPingFile) (fun _ => 0) =
      .ok (flatSystem webAndPingReader).tpm := by decide +kernel
  exact (redraw_ends_iff hfile webAndPingUser_reached).mpr
    (.inl ⟨webDraw, pingDraw, by decide +kernel⟩)

end WormsAttack.Traffic
