/-
  What loading and unloading do to the list of channels.

  The configured channels between two stages are a `window`.
-/
import Mathlib.Data.List.Perm.Basic
import Mathlib.Data.List.Perm.Lattice
import WormsAttack.Distack.ModuleManager

namespace WormsAttack.Distack

open Foundation List

def ChannelManager.loaded (manager : ChannelManager) : List (String × Int) :=
  manager.channels.map fun channel => (channel.name, (channel.stage.toNat : Int))

def ModuleManager.loaded (m : ModuleManager) : List (String × Int) :=
  m.channelManager.loaded

/-! ## The configured channels -/

namespace Configuration

variable (c : Configuration)

def staged : List (String × Int) :=
  c.channels.map fun name => (name, c.stage name)

def window (low high : Int) : List (String × Int) :=
  c.staged.filter fun e => decide (low ≤ e.2 ∧ e.2 ≤ high)

variable {c}

theorem mem_getChannels {name : String} {stage : UInt16} :
    name ∈ c.getChannels stage ↔ name ∈ c.channels ∧ c.stage name = stage.toNat := by
  simp [getChannels]

theorem map_getChannels (stage : UInt16) :
    (c.getChannels stage).map (fun name => (name, (stage.toNat : Int))) =
      c.window stage.toNat stage.toNat := by
  have hself : ∀ name ∈ c.getChannels stage,
      (name, (stage.toNat : Int)) = (name, c.stage name) := by
    intro name hname
    rw [(mem_getChannels.mp hname).2]
  rw [map_congr_left hself, window, staged, filter_map, getChannels]
  congr 1
  refine filter_congr fun name _ => ?_
  rw [Bool.eq_iff_iff]
  simp only [beq_iff_eq, Function.comp_apply, decide_eq_true_eq]
  omega

theorem filter_window_of_iff {low high low' high' : Int} {p : String × Int → Bool}
    (h : ∀ e, (p e = true ∧ low ≤ e.2 ∧ e.2 ≤ high) ↔ (low' ≤ e.2 ∧ e.2 ≤ high')) :
    (c.window low high).filter p = c.window low' high' := by
  rw [window, window, filter_filter]
  refine filter_congr fun e _ => ?_
  rw [Bool.eq_iff_iff, Bool.and_eq_true, decide_eq_true_eq, decide_eq_true_eq]
  exact h e

theorem window_succ {low high : Int} (h : low ≤ high + 1) :
    (c.window low high ++ c.window (high + 1) (high + 1)).Perm (c.window low (high + 1)) := by
  have hsplit := filter_append_perm (fun e : String × Int => decide (e.2 ≤ high))
    (c.window low (high + 1))
  have hold : (c.window low (high + 1)).filter (fun e => decide (e.2 ≤ high)) =
      c.window low high := by
    refine filter_window_of_iff fun e => ?_
    rw [decide_eq_true_eq]
    omega
  have hnew : (c.window low (high + 1)).filter (fun e => !decide (e.2 ≤ high)) =
      c.window (high + 1) (high + 1) := by
    refine filter_window_of_iff fun e => ?_
    rw [Bool.not_eq_true', decide_eq_false_iff_not]
    omega
  rwa [hold, hnew] at hsplit

theorem filter_window (low : Int) {high stage : Int} (h : stage ≤ high + 1) :
    (c.window low high).filter (fun e => decide (e.2 < stage)) = c.window low (stage - 1) := by
  refine filter_window_of_iff fun e => ?_
  rw [decide_eq_true_eq]
  omega

theorem names_window_sublist (low high : Int) :
    ((c.window low high).map Prod.fst).Sublist c.channels := by
  have h : (c.staged.map Prod.fst) = c.channels := by simp [staged, Function.comp_def]
  rw [← h]
  exact filter_sublist.map Prod.fst

end Configuration

/-! ## Loading -/

section

variable (create : Create) (c : Configuration)

/-- Whether a channel can be loaded when the module counter stands at `id`. -/
def canLoad (name : String) (stage : UInt16) (id : Nat) : Bool :=
  match c.moduleConfigs name with
  | none => false
  | some configs =>
      (ChannelConfiguration.started create ⟨name, stage, configs⟩ id).all Module.good

def idAfter (name : String) (stage : UInt16) (id : Nat) : Nat :=
  match c.moduleConfigs name with
  | none => id
  | some configs => id + (ChannelConfiguration.started create ⟨name, stage, configs⟩ id).length

def outcomes (stage : UInt16) : List String → Nat → List Bool
  | [], _ => []
  | name :: rest, id =>
      canLoad create c name stage id :: outcomes stage rest (idAfter create c name stage id)

theorem enterAll_idCounter (modules : List Module) :
    ∀ messaging : Messaging,
      (messaging.enterAll modules).idCounter = messaging.idCounter + modules.length := by
  induction modules with
  | nil =>
    intro messaging
    rfl
  | cons m modules ih =>
    intro messaging
    have hrest := ih (messaging.enter m.messages)
    simp only [Messaging.enterAll, foldl_cons, length_cons] at hrest ⊢
    rw [hrest]
    simp only [Messaging.enter]
    omega

theorem loadChannel_spec (name : String) (stage : UInt16) (manager : ChannelManager) :
    (loadChannel create c name stage manager).1 =
        canLoad create c name stage manager.messaging.idCounter ∧
      (loadChannel create c name stage manager).2.messaging.idCounter =
        idAfter create c name stage manager.messaging.idCounter ∧
      (loadChannel create c name stage manager).2.loaded =
        manager.loaded ++
          if canLoad create c name stage manager.messaging.idCounter then
            [(name, (stage.toNat : Int))]
          else [] := by
  cases hconfigs : c.moduleConfigs name with
  | none => simp [loadChannel, canLoad, idAfter, hconfigs]
  | some configs =>
    simp only [loadChannel, canLoad, idAfter, hconfigs]
    refine ⟨ChannelManager.newChannel_isSome create _ _, ?_, ?_⟩
    · rw [ChannelManager.newChannel_messaging]
      exact enterAll_idCounter _ _
    · rw [ChannelManager.loaded, ChannelManager.newChannel_channels, map_append, apply_ite (map _)]
      rfl

theorem loadChannels_spec (stage : UInt16) (names : List String) :
    ∀ manager : ChannelManager,
      (loadChannels create c stage names manager).1 =
          (outcomes create c stage names manager.messaging.idCounter).all id ∧
        (loadChannels create c stage names manager).2.loaded =
          manager.loaded ++
            ((names.zip (outcomes create c stage names manager.messaging.idCounter)).filter
              Prod.snd).map fun e => (e.1, (stage.toNat : Int)) := by
  induction names with
  | nil =>
    simp [loadChannels, outcomes]
  | cons name rest ih =>
    intro manager
    obtain ⟨hret, hid, hloaded⟩ := loadChannel_spec create c name stage manager
    obtain ⟨hrets, hloadeds⟩ := ih (loadChannel create c name stage manager).2
    rw [hid] at hrets hloadeds
    simp only [loadChannels, outcomes, all_cons, id_eq, zip_cons_cons]
    refine ⟨by rw [hret, hrets], ?_⟩
    rw [hloadeds, hloaded, append_assoc]
    cases canLoad create c name stage manager.messaging.idCounter <;> simp

theorem loadStage_spec (stage : UInt16) (manager : ChannelManager) :
    (loadStage create c stage manager).1 =
        (!(c.getChannels stage).isEmpty &&
          (outcomes create c stage (c.getChannels stage) manager.messaging.idCounter).all id) ∧
      (loadStage create c stage manager).2.loaded =
        manager.loaded ++
          (((c.getChannels stage).zip
            (outcomes create c stage (c.getChannels stage) manager.messaging.idCounter)).filter
              Prod.snd).map fun e => (e.1, (stage.toNat : Int)) := by
  obtain ⟨hret, hloaded⟩ := loadChannels_spec create c stage
    (c.getChannels stage) manager
  exact ⟨congrArg (!(c.getChannels stage).isEmpty && ·) hret, hloaded⟩

variable {create c}

theorem length_outcomes (stage : UInt16) (names : List String) :
    ∀ id, (outcomes create c stage names id).length = names.length := by
  induction names with
  | nil =>
    intro id
    rfl
  | cons name rest ih =>
    intro id
    simp only [outcomes, length_cons, ih]

theorem loadStage_loaded_eq_iff (stage : UInt16) (manager : ChannelManager) :
    (loadStage create c stage manager).2.loaded = manager.loaded ↔
      ∀ b ∈ outcomes create c stage (c.getChannels stage) manager.messaging.idCounter,
        b = false := by
  rw [(loadStage_spec create c stage manager).2, append_right_eq_self, map_eq_nil_iff,
    filter_eq_nil_iff]
  have hsnd : ((c.getChannels stage).zip
      (outcomes create c stage (c.getChannels stage) manager.messaging.idCounter)).map Prod.snd =
        outcomes create c stage (c.getChannels stage) manager.messaging.idCounter :=
    map_snd_zip (Nat.le_of_eq (length_outcomes stage _ _))
  constructor
  · intro h b hb
    rw [← hsnd] at hb
    obtain ⟨e, he, rfl⟩ := mem_map.mp hb
    exact Bool.eq_false_iff.mpr (h e he)
  · intro h e he
    rw [h e.2 (hsnd ▸ mem_map_of_mem he)]
    exact Bool.false_ne_true

end

theorem deleteChannels_loaded (stage : UInt16) (manager : ChannelManager) :
    (manager.deleteChannels stage).loaded =
      manager.loaded.filter fun e => decide (e.2 < (stage.toNat : Int)) := by
  simp only [ChannelManager.loaded, ChannelManager.deleteChannels, restartWhere_eq, filter_map]
  congr 1
  refine filter_congr fun channel _ => ?_
  rw [Bool.eq_iff_iff]
  simp only [Bool.not_eq_true', decide_eq_false_iff_not, Function.comp_apply, decide_eq_true_eq,
    UInt16.le_iff_toNat_le]
  omega

end WormsAttack.Distack
