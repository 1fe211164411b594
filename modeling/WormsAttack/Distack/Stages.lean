/-
  Which channels are loaded.

  `loadStage` does not undo what it has done when one of several channels fails.  The stage
  after 65535 is stage 0, so one stage that cannot be loaded is needed somewhere.
-/
import Mathlib.Data.List.Count
import WormsAttack.Distack.Loading

namespace WormsAttack.Distack

open Foundation List ModuleManager

section

variable (create : Create) (c : Configuration)

/-! ## Stages that are loaded together or not at all -/

/-- The stage has channels, and each of them can be loaded at any time. -/
def Loads (stage : UInt16) : Prop :=
  c.getChannels stage ≠ [] ∧
    ∀ name ∈ c.getChannels stage, ∀ manager, (loadChannel create c name stage manager).1 = true

/-- No channel of the stage can be loaded at any time. -/
def Fails (stage : UInt16) : Prop :=
  ∀ name ∈ c.getChannels stage, ∀ manager, (loadChannel create c name stage manager).1 = false

/-- No stage has both a channel that can be loaded and one that cannot. -/
def Uniform : Prop :=
  ∀ stage, Loads create c stage ∨ Fails create c stage

variable {create c} {stage : UInt16}

theorem not_fails_of_loads (h : Loads create c stage) : ¬ Fails create c stage := by
  intro hfails
  obtain ⟨name, hname⟩ := exists_mem_of_ne_nil _ h.1
  have htrue := h.2 name hname initial.channelManager
  rw [hfails name hname] at htrue
  exact Bool.false_ne_true htrue

theorem outcomes_of_forall {answer : Bool} (names : List String)
    (h : ∀ name ∈ names, ∀ manager, (loadChannel create c name stage manager).1 = answer) :
    ∀ manager : ChannelManager, outcomes create c stage names manager.messaging.idCounter =
      replicate names.length answer := by
  induction names with
  | nil =>
    intro manager
    rfl
  | cons name rest ih =>
    intro manager
    obtain ⟨hret, hid, _⟩ := loadChannel_spec create c name stage manager
    have hrest := ih (fun other hother => h other (mem_cons_of_mem name hother))
      (loadChannel create c name stage manager).2
    rw [hid] at hrest
    rw [outcomes, ← hret, h name mem_cons_self, hrest]
    rfl

theorem loadStage_of_loads (h : Loads create c stage) (manager : ChannelManager) :
    (loadStage create c stage manager).1 = true ∧
      (loadStage create c stage manager).2.loaded =
        manager.loaded ++ c.window stage.toNat stage.toNat := by
  obtain ⟨hret, hloaded⟩ := loadStage_spec create c stage manager
  rw [outcomes_of_forall _ h.2] at hret hloaded
  constructor
  · rw [hret]
    simp [h.1]
  · rw [hloaded, ← Configuration.map_getChannels]
    congr 1
    -- every channel stands beside `true`
    have hall : ∀ e ∈ (c.getChannels stage).zip
        (replicate (c.getChannels stage).length true), e.2 = true := by
      intro e he
      exact eq_of_mem_replicate (of_mem_zip he).2
    have hfst : ((c.getChannels stage).zip
        (replicate (c.getChannels stage).length true)).map Prod.fst =
          c.getChannels stage :=
      map_fst_zip (by simp)
    rw [filter_eq_self.mpr hall]
    conv_rhs => rw [← hfst, map_map]
    rfl

theorem loadStage_of_fails (h : Fails create c stage) (manager : ChannelManager) :
    (loadStage create c stage manager).1 = false ∧
      (loadStage create c stage manager).2.loaded = manager.loaded := by
  constructor
  · rw [(loadStage_spec create c stage manager).1, outcomes_of_forall _ h]
    cases c.getChannels stage <;> simp
  · rw [loadStage_loaded_eq_iff, outcomes_of_forall _ h]
    intro b hb
    exact eq_of_mem_replicate hb

/-! ## What an alert does -/

variable (create c)

inductive Handled (m m' : ModuleManager) : Prop
  | ignored (hcurrent : m'.currentStageLevel = m.currentStageLevel)
      (hloaded : m'.loaded = m.loaded)
  | raised
      (hcurrent : m'.currentStageLevel =
        if (loadStage create c (m.currentStageLevel + 1) m.channelManager).1 then
          m.currentStageLevel + 1
        else m.currentStageLevel)
      (hloaded : m'.loaded =
        (loadStage create c (m.currentStageLevel + 1) m.channelManager).2.loaded)
  | lowered (stage : UInt16) (hlow : m.lowestStageLevel < stage)
      (hhigh : stage ≤ m.currentStageLevel) (hcurrent : m'.currentStageLevel = stage - 1)
      (hloaded : m'.loaded = m.loaded.filter fun e => decide (e.2 < (stage.toNat : Int)))
  | cleared (hcurrent : m'.currentStageLevel = m.lowestStageLevel)
      (hloaded : m'.loaded =
        m.loaded.filter fun e => decide (e.2 < ((m.lowestStageLevel + 1).toNat : Int)))

theorem receiveMessage_handled (alert : MessageAlert) (m : ModuleManager) :
    (m.receiveMessage create c alert).lowestStageLevel = m.lowestStageLevel ∧
      Handled create c m (m.receiveMessage create c alert) := by
  unfold receiveMessage
  split
  · exact ⟨rfl, .ignored rfl rfl⟩
  split
  · exact ⟨rfl, .ignored rfl rfl⟩
  split
  · exact ⟨rfl, .ignored rfl rfl⟩
  next hlow =>
  split
  · exact ⟨rfl, .ignored rfl rfl⟩
  next hhigh =>
  unfold updateStage
  cases alert.type with
  | raiseLevel =>
    dsimp only
    split
    · exact ⟨rfl, .raised rfl rfl⟩
    · exact ⟨rfl, .ignored rfl rfl⟩
  | lowerLevel =>
    dsimp only
    split
    · next hbase =>
      refine ⟨rfl, .cleared hbase ?_⟩
      rw [← hbase]
      exact deleteChannels_loaded _ _
    · next hbase =>
      refine ⟨rfl, .lowered alert.alertModuleStage ?_ (UInt16.not_lt.mp hhigh) rfl
        (deleteChannels_loaded _ _)⟩
      exact UInt16.lt_of_le_of_ne (UInt16.not_lt.mp hlow) (Ne.symm hbase)

/-! ## The window of stages -/

/-- The channels of the stages between the two levels are loaded, and the stages below
could not be. -/
structure Window (m : ModuleManager) : Prop where
  inOrder : m.lowestStageLevel ≤ m.currentStageLevel
  base : m.lowestStageLevel.toNat < maxNumStages
  loaded : m.loaded.Perm (c.window m.lowestStageLevel.toNat m.currentStageLevel.toNat)
  loads : ∀ stage, m.lowestStageLevel ≤ stage → stage ≤ m.currentStageLevel →
    Loads create c stage
  below : ∀ stage < m.lowestStageLevel, Fails create c stage

/-- No stage could be loaded; the channels that are loaded are loaded as stage 0. -/
structure Together (m : ModuleManager) : Prop where
  lowest : m.lowestStageLevel = 0
  current : m.currentStageLevel = 0
  names : (m.loaded.map Prod.fst).Sublist c.channels
  stages : ∀ e ∈ m.loaded, e.2 = 0
  fails : ∀ stage : UInt16, stage.toNat < maxNumStages → Fails create c stage

variable {create c} {m m' : ModuleManager}

namespace Window

variable (h : Window create c m)

include h

theorem same (hlowest : m'.lowestStageLevel = m.lowestStageLevel)
    (hcurrent : m'.currentStageLevel = m.currentStageLevel) (hloaded : m'.loaded = m.loaded) :
    Window create c m' := by
  refine ⟨?_, hlowest ▸ h.base, ?_, ?_, hlowest ▸ h.below⟩
  · rw [hlowest, hcurrent]
    exact h.inOrder
  · rw [hlowest, hcurrent, hloaded]
    exact h.loaded
  · rw [hlowest, hcurrent]
    exact h.loads

/-- A stage that can be loaded and comes after the current one has a larger number. -/
theorem toNat_succ (hgap : ∃ stage, Fails create c stage)
    (hnext : Loads create c (m.currentStageLevel + 1)) :
    (m.currentStageLevel + 1).toNat = m.currentStageLevel.toNat + 1 := by
  have hlt := m.currentStageLevel.toNat_lt
  by_cases hwrap : m.currentStageLevel.toNat + 1 < 2 ^ 16
  · exact Nat.mod_eq_of_lt hwrap
  exfalso
  have htop : m.currentStageLevel = 65535 := UInt16.toNat_inj.mp (by
    show m.currentStageLevel.toNat = 65535
    omega)
  rw [htop] at hnext
  -- the next stage is 0: loaded already, or known not to load
  by_cases hzero : m.lowestStageLevel = 0
  · obtain ⟨stage, hfails⟩ := hgap
    refine not_fails_of_loads (h.loads stage ?_ ?_) hfails
    · rw [hzero]
      exact UInt16.zero_le
    · rw [htop, UInt16.le_iff_toNat_le]
      exact Nat.le_of_lt_succ stage.toNat_lt
  · refine not_fails_of_loads hnext (h.below _ ?_)
    exact UInt16.lt_of_le_of_ne UInt16.zero_le (Ne.symm hzero)

theorem raised (huniform : Uniform create c)
    (hgap : ∃ stage, Fails create c stage) (hlowest : m'.lowestStageLevel = m.lowestStageLevel)
    (hcurrent : m'.currentStageLevel =
      if (loadStage create c (m.currentStageLevel + 1) m.channelManager).1 then
        m.currentStageLevel + 1 else m.currentStageLevel) (hloaded : m'.loaded =
      (loadStage create c (m.currentStageLevel + 1) m.channelManager).2.loaded) :
    Window create c m' := by
  have hin := UInt16.le_iff_toNat_le.mp h.inOrder
  rcases huniform (m.currentStageLevel + 1) with hnext | hnext
  · obtain ⟨hret, hmore⟩ := loadStage_of_loads hnext m.channelManager
    have hsucc := h.toNat_succ hgap hnext
    rw [hret, if_pos rfl] at hcurrent
    rw [hmore, hsucc] at hloaded
    refine ⟨?_, hlowest ▸ h.base, ?_, ?_, hlowest ▸ h.below⟩
    · rw [hlowest, hcurrent, UInt16.le_iff_toNat_le]
      omega
    · rw [hlowest, hcurrent, hloaded, hsucc]
      exact (h.loaded.append_right _).trans (Configuration.window_succ (by omega))
    · rw [hlowest, hcurrent]
      intro stage hlow hhigh
      by_cases hlast : stage = m.currentStageLevel + 1
      · rw [hlast]
        exact hnext
      · refine h.loads stage hlow ?_
        rw [UInt16.le_iff_toNat_le] at hhigh ⊢
        have hne : stage.toNat ≠ (m.currentStageLevel + 1).toNat :=
          fun heq => hlast (UInt16.toNat_inj.mp heq)
        omega
  · obtain ⟨hret, hsame⟩ := loadStage_of_fails hnext m.channelManager
    rw [hret, if_neg Bool.false_ne_true] at hcurrent
    rw [hsame] at hloaded
    exact h.same hlowest hcurrent hloaded

theorem lowered (hlowest : m'.lowestStageLevel = m.lowestStageLevel)
    {stage : Nat} (hlow : m.lowestStageLevel.toNat < stage)
    (hhigh : stage ≤ m.currentStageLevel.toNat + 1)
    (hcurrent : m'.currentStageLevel.toNat = stage - 1)
    (hloaded : m'.loaded = m.loaded.filter fun e => decide (e.2 < (stage : Int))) :
    Window create c m' := by
  refine ⟨?_, hlowest ▸ h.base, ?_, ?_, hlowest ▸ h.below⟩
  · rw [hlowest, UInt16.le_iff_toNat_le]
    omega
  · have hpred : ((m'.currentStageLevel.toNat : Nat) : Int) = (stage : Int) - 1 := by omega
    have hbound : (stage : Int) ≤ (m.currentStageLevel.toNat : Int) + 1 := by omega
    have hleft := Configuration.filter_window (c := c) m.lowestStageLevel.toNat hbound
    rw [hlowest, hloaded, hpred, ← hleft]
    exact h.loaded.filter _
  · rw [hlowest]
    intro other hother hle
    refine h.loads other hother ?_
    rw [UInt16.le_iff_toNat_le] at hle ⊢
    omega

theorem next (huniform : Uniform create c)
    (hgap : ∃ stage, Fails create c stage) (hlowest : m'.lowestStageLevel = m.lowestStageLevel)
    (hhandled : Handled create c m m') : Window create c m' := by
  have hin := UInt16.le_iff_toNat_le.mp h.inOrder
  cases hhandled with
  | ignored hcurrent hloaded => exact h.same hlowest hcurrent hloaded
  | raised hcurrent hloaded => exact h.raised huniform hgap hlowest hcurrent hloaded
  | lowered stage hlow hhigh hcurrent hloaded =>
    have hlow' := UInt16.lt_iff_toNat_lt.mp hlow
    have hhigh' := UInt16.le_iff_toNat_le.mp hhigh
    refine h.lowered hlowest hlow' (Nat.le_succ_of_le hhigh') ?_ hloaded
    rw [hcurrent, UInt16.toNat_sub_of_le _ _ (UInt16.le_iff_toNat_le.mpr (by
      show 1 ≤ stage.toNat
      omega))]
    rfl
  | cleared hcurrent hloaded =>
    have hsucc : (m.lowestStageLevel + 1).toNat = m.lowestStageLevel.toNat + 1 := by
      have hbase := h.base
      exact Nat.mod_eq_of_lt (by
        show m.lowestStageLevel.toNat + 1 < 2 ^ 16
        unfold maxNumStages at hbase
        omega)
    rw [hsucc] at hloaded
    refine h.lowered hlowest (Nat.lt_succ_self _) (Nat.succ_le_succ hin) ?_ hloaded
    rw [hcurrent]
    rfl

end Window

namespace Together

theorem same (h : Together create c m) (hlowest : m'.lowestStageLevel = m.lowestStageLevel)
    (hcurrent : m'.currentStageLevel = m.currentStageLevel) (hloaded : m'.loaded = m.loaded) :
    Together create c m' :=
  ⟨hlowest.trans h.lowest, hcurrent.trans h.current, hloaded ▸ h.names, hloaded ▸ h.stages, h.fails⟩

theorem next (h : Together create c m) (hlowest : m'.lowestStageLevel = m.lowestStageLevel)
    (hhandled : Handled create c m m') : Together create c m' := by
  cases hhandled with
  | ignored hcurrent hloaded => exact h.same hlowest hcurrent hloaded
  | raised hcurrent hloaded =>
    have hnext : Fails create c (m.currentStageLevel + 1) := by
      rw [h.current]
      exact h.fails _ (by decide)
    obtain ⟨hret, hsame⟩ := loadStage_of_fails hnext m.channelManager
    rw [hret, if_neg Bool.false_ne_true] at hcurrent
    rw [hsame] at hloaded
    exact h.same hlowest hcurrent hloaded
  | lowered stage hlow hhigh hcurrent hloaded =>
    rw [h.current] at hhigh
    rw [h.lowest] at hlow
    exact absurd hhigh (UInt16.not_le.mpr hlow)
  | cleared hcurrent hloaded =>
    refine ⟨hlowest.trans h.lowest, hcurrent.trans h.lowest, ?_, ?_, h.fails⟩
    · rw [hloaded]
      exact (filter_sublist.map Prod.fst).trans h.names
    · rw [hloaded]
      intro e he
      exact h.stages e (mem_of_mem_filter he)

end Together

/-! ## Starting up -/

theorem startupLoop_cases (huniform : Uniform create c) :
    ∀ (rounds : Nat) (stage : UInt16) (m : ModuleManager), stage.toNat + rounds = maxNumStages →
      m.loaded = [] → (∀ below < stage, Fails create c below) →
        ((startupLoop create c rounds stage m).1 = true ∧
            Window create c (startupLoop create c rounds stage m).2) ∨
          ((startupLoop create c rounds stage m).1 = false ∧
            (startupLoop create c rounds stage m).2.loaded = [] ∧
            (startupLoop create c rounds stage m).2.lowestStageLevel = m.lowestStageLevel ∧
            (startupLoop create c rounds stage m).2.currentStageLevel = m.currentStageLevel ∧
            ∀ stage : UInt16, stage.toNat < maxNumStages → Fails create c stage) := by
  intro rounds
  induction rounds with
  | zero =>
    intro stage m hrounds hempty hbelow
    refine .inr ⟨rfl, hempty, rfl, rfl, fun other hother => hbelow other ?_⟩
    rw [UInt16.lt_iff_toNat_lt]
    omega
  | succ rounds ih =>
    intro stage m hrounds hempty hbelow
    have hlt : stage.toNat < maxNumStages := by omega
    rcases huniform stage with hloads | hfails
    · obtain ⟨hret, hmore⟩ := loadStage_of_loads hloads m.channelManager
      left
      simp only [startupLoop, hret, if_true, true_and]
      refine ⟨UInt16.le_refl stage, hlt, ?_, ?_, hbelow⟩
      · have hnone : m.channelManager.loaded = [] := hempty
        rw [hnone, nil_append] at hmore
        exact List.Perm.of_eq hmore
      · intro other hlow hhigh
        rw [UInt16.le_antisymm hhigh hlow]
        exact hloads
    · obtain ⟨hret, hsame⟩ := loadStage_of_fails hfails m.channelManager
      have hsucc : (stage + 1).toNat = stage.toNat + 1 := by
        exact Nat.mod_eq_of_lt (by
          show stage.toNat + 1 < 2 ^ 16
          unfold maxNumStages at hlt
          omega)
      simp only [startupLoop, hret, Bool.false_eq_true, if_false]
      refine ih (stage + 1) _ (by omega) (hsame.trans hempty) fun below hless => ?_
      by_cases heq : below = stage
      · rw [heq]
        exact hfails
      · refine hbelow below (UInt16.lt_of_le_of_ne ?_ heq)
        rw [UInt16.lt_iff_toNat_lt] at hless
        rw [UInt16.le_iff_toNat_le]
        omega

theorem loadAllChannels_loaded (create : Create) (c : Configuration) (manager : ChannelManager)
    (hempty : manager.loaded = []) :
    ((loadAllChannels create c manager).2.loaded.map Prod.fst).Sublist c.channels ∧
      ∀ e ∈ (loadAllChannels create c manager).2.loaded, e.2 = 0 := by
  rw [loadAllChannels, (loadChannels_spec create c 0 c.channels manager).2, hempty, nil_append]
  constructor
  · rw [map_map]
    refine (filter_sublist.map _).trans ?_
    have hnames : (c.channels.zip
        (outcomes create c 0 c.channels manager.messaging.idCounter)).map Prod.fst = c.channels :=
      map_fst_zip (Nat.le_of_eq (length_outcomes 0 _ _).symm)
    conv_rhs => rw [← hnames]
    exact List.Sublist.refl _
  · intro e he
    obtain ⟨entry, _, rfl⟩ := mem_map.mp he
    rfl

theorem started_cases (huniform : Uniform create c) :
    Window create c (ModuleManager.started create c) ∨
      Together create c (ModuleManager.started create c) := by
  unfold ModuleManager.started ModuleManager.startup
  rcases startupLoop_cases huniform maxNumStages 0 initial rfl rfl
    (fun below hlt => absurd hlt UInt16.not_lt_zero) with
    ⟨hret, hwindow⟩ | ⟨hret, hempty, hlowest, hcurrent, hfails⟩
  · left
    simpa only [hret, if_true] using hwindow
  · right
    obtain ⟨hnames, hstages⟩ := loadAllChannels_loaded create c _ hempty
    simp only [hret, Bool.false_eq_true, if_false]
    split
    · exact ⟨rfl, rfl, hnames, hstages, hfails⟩
    · exact ⟨hlowest, hcurrent, hnames, hstages, hfails⟩

theorem run_cases (huniform : Uniform create c) (hgap : ∃ stage, Fails create c stage)
    {tr : List (Step ModuleManager MessageAlert Unit)}
    (hrun : Run (ModuleManager.handleAlert create c) (ModuleManager.started create c) tr m) :
    Window create c m ∨ Together create c m := by
  refine Run.invariant (I := fun _ m => Window create c m ∨ Together create c m)
    (started_cases huniform) ?_ hrun
  rintro _ m m' alert _ hinv hstep
  cases hstep
  obtain ⟨hlowest, hhandled⟩ := receiveMessage_handled create c alert m
  exact hinv.imp (fun h => h.next huniform hgap hlowest hhandled) fun h => h.next hlowest hhandled

variable {e : String × Int}

theorem Window.count_le (h : Window create c m) (name : String) :
    (m.loaded.map Prod.fst).count name ≤ c.channels.count name := by
  rw [(h.loaded.map Prod.fst).count_eq]
  exact (Configuration.names_window_sublist _ _).count_le name

theorem uniform_of_forall
    (hload : ∀ stage, ∀ name ∈ c.getChannels stage, ∀ manager,
      (loadChannel create c name stage manager).1 = true) : Uniform create c := by
  intro stage
  by_cases hnone : c.getChannels stage = []
  · right
    intro name hname
    rw [hnone] at hname
    cases hname
  · exact .inl ⟨hnone, hload stage⟩

theorem fails_above (hstages : ∀ name ∈ c.channels, 0 ≤ c.stage name ∧ c.stage name ≤ 99) :
    Fails create c 100 := by
  intro name hname
  obtain ⟨hmem, hstage⟩ := Configuration.mem_getChannels.mp hname
  have hle := (hstages name hmem).2
  rw [hstage] at hle
  exact absurd hle (by decide)

/-! ## Results -/

/-- The loaded channels are those of the stages from the lowest to the current one, each once and
with its own stage. -/
theorem stage_window (create : Create) (c : Configuration) (hchannel : c.channels ≠ [])
    (hstages : ∀ name ∈ c.channels, 0 ≤ c.stage name ∧ c.stage name ≤ 99)
    (hload : ∀ stage, ∀ name ∈ c.getChannels stage, ∀ manager,
      (loadChannel create c name stage manager).1 = true)
    {tr : List (Step ModuleManager MessageAlert Unit)} {m : ModuleManager}
    (hrun : Run (ModuleManager.handleAlert create c) (ModuleManager.started create c) tr m) :
    m.lowestStageLevel ≤ m.currentStageLevel ∧
      m.loaded.Perm (c.window m.lowestStageLevel.toNat m.currentStageLevel.toNat) := by
  rcases run_cases (uniform_of_forall hload) ⟨100, fails_above hstages⟩ hrun with
    hwindow | htogether
  · exact ⟨hwindow.inOrder, hwindow.loaded⟩
  -- the stage of any channel would have been loaded at the start
  exfalso
  obtain ⟨name, hname⟩ := exists_mem_of_ne_nil _ hchannel
  obtain ⟨hlow, hhigh⟩ := hstages name hname
  have hnat : (UInt16.ofNat (c.stage name).toNat).toNat = (c.stage name).toNat :=
    UInt16.toNat_ofNat_of_lt' (by show (c.stage name).toNat < 2 ^ 16; omega)
  have hmem : name ∈ c.getChannels (UInt16.ofNat (c.stage name).toNat) := by
    rw [Configuration.mem_getChannels, hnat]
    exact ⟨hname, (Int.toNat_of_nonneg hlow).symm⟩
  refine not_fails_of_loads ⟨ne_nil_of_mem hmem, hload _⟩ (htogether.fails _ ?_)
  rw [hnat, maxNumStages]
  omega

def alwaysGood : Create := fun _ _ => some { messenger := none, configured := true }

def counters (channels : List String) (stage : String → Int) : Configuration where
  channels := channels
  stage := stage
  channelItems := fun name => if name = "broken" then ["missing"] else ["counter"]
  modules := ["counter"]
  moduleConfiguration := fun name => { name := name, library := "", stage := 0, parameters := [] }

def twoStages : Configuration :=
  counters ["base", "detail"] fun name => if name = "base" then 2 else 3

theorem twoStages_loads : ∀ stage, ∀ name ∈ twoStages.getChannels stage, ∀ manager,
    (loadChannel alwaysGood twoStages name stage manager).1 = true := by
  intro stage name hname manager
  have hmem : name = "base" ∨ name = "detail" := by
    simpa [twoStages, counters] using (Configuration.mem_getChannels.mp hname).1
  rcases hmem with rfl | rfl <;> rfl

theorem twoStages_stages :
    ∀ name ∈ twoStages.channels, 0 ≤ twoStages.stage name ∧ twoStages.stage name ≤ 99 := by
  decide +kernel

def raisedTwoStages : ModuleManager :=
  replayState (ModuleManager.handleAlert alwaysGood twoStages)
    (ModuleManager.started alwaysGood twoStages) [⟨.raiseLevel, 2⟩]

theorem raisedTwoStages_run :
    Run (handleAlert alwaysGood twoStages)
      (ModuleManager.started alwaysGood twoStages)
      (replayTrace (handleAlert alwaysGood twoStages)
        (ModuleManager.started alwaysGood twoStages) [⟨.raiseLevel, 2⟩]) raisedTwoStages :=
  run_of_replays rfl

theorem stage_window_twoStages :
    raisedTwoStages.lowestStageLevel = 2 ∧ raisedTwoStages.currentStageLevel = 3 ∧
      raisedTwoStages.loaded.Perm [("base", 2), ("detail", 3)] := by
  have hlowest : raisedTwoStages.lowestStageLevel = 2 := by decide +kernel
  have hcurrent : raisedTwoStages.currentStageLevel = 3 := by decide +kernel
  have hperm := (stage_window alwaysGood twoStages (by decide) twoStages_stages twoStages_loads
    raisedTwoStages_run).2
  rw [hlowest, hcurrent] at hperm
  exact ⟨hlowest, hcurrent, hperm⟩

end

end WormsAttack.Distack
