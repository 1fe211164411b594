/-
  What a channel that cannot be started leaves behind.

  `Channel::startup` lets every module register for its messages and looks only then whether the
  module is good.
-/
import WormsAttack.Distack.Channels

namespace WormsAttack.Distack

section

variable (create : Create)

/-- The module registers for no message type that there is. -/
def Module.Silent (m : Module) : Prop :=
  ∀ type ∈ m.messages, type.isValid = false

instance decidableSilent (m : Module) : Decidable m.Silent :=
  inferInstanceAs (Decidable (∀ type ∈ m.messages, type.isValid = false))

theorem le_id_of_mem_started (stage : UInt16) (configs : List ModuleConfiguration) :
    ∀ (id : Nat), ∀ m ∈ started create stage id configs, id ≤ m.id := by
  induction configs with
  | nil =>
    intro id m hm
    cases hm
  | cons config rest ih =>
    intro id m hm
    rcases List.mem_cons.mp hm with rfl | hm
    · exact Nat.le_refl _
    · split at hm
      · exact Nat.le_of_succ_le (ih (id + 1) m hm)
      · cases hm

theorem mem_enterAll_started (stage : UInt16) (configs : List ModuleConfiguration)
    (node : MessagingNode) (type : MessageType) :
    ∀ messaging : Messaging,
      node ∈ (messaging.enterAll (started create stage messaging.idCounter configs)).table type ↔
        node ∈ messaging.table type ∨
          (type.isValid = true ∧ ∃ m ∈ started create stage messaging.idCounter configs,
            type ∈ m.messages ∧ node = .internal m.id) := by
  induction configs with
  | nil =>
    simp [started, Messaging.enterAll]
  | cons config rest ih =>
    intro messaging
    have hfirst : ∀ types, node ∈ (messaging.enter types).table type ↔
        node ∈ messaging.table type ∨
          (type.isValid = true ∧ type ∈ types ∧ node = .internal messaging.idCounter) :=
      fun types => MessagingTable.mem_register
    -- the loop goes on from the table that the first module leaves, or stops at it
    cases hgood : (Module.new create messaging.idCounter { config with stage := stage }).good with
    | false =>
      simp only [started, hgood, Bool.false_eq_true, if_false, Messaging.enterAll,
        List.foldl_cons, List.foldl_nil, hfirst, List.mem_singleton, exists_eq_left]
      rfl
    | true =>
      have hrest := ih (messaging.enter (Module.new create messaging.idCounter
        { config with stage := stage }).messages)
      simp only [started, hgood, if_true, List.mem_cons, exists_eq_or_imp]
      refine hrest.trans ?_
      rw [hfirst, or_assoc, ← and_or_left]
      rfl

theorem enterAll_of_silent (modules : List Module) :
    ∀ messaging : Messaging, (∀ m ∈ modules, m.Silent) →
      (messaging.enterAll modules).table = messaging.table := by
  induction modules with
  | nil =>
    intro messaging _
    rfl
  | cons m modules ih =>
    intro messaging hsilent
    have hrest := ih (messaging.enter m.messages)
      fun other hother => hsilent other (List.mem_cons_of_mem m hother)
    exact hrest.trans (MessagingTable.register_of_invalid (hsilent m List.mem_cons_self))

theorem mem_of_not_silent (conf : ChannelConfiguration) (manager : ChannelManager) {m : Module}
    (hm : m ∈ conf.started create manager.messaging.idCounter) {type : MessageType}
    (htype : type ∈ m.messages) (hvalid : type.isValid = true) :
    .internal m.id ∈ (manager.newChannel create conf).2.messaging.table type ∧
      .internal m.id ∉ manager.messaging.table type := by
  constructor
  · rw [ChannelManager.newChannel_messaging]
    exact (mem_enterAll_started create conf.stage conf.moduleConfigs _ type
      manager.messaging).mpr (.inr ⟨hvalid, m, hm, htype, rfl⟩)
  · intro hmem
    have hlt := manager.messaging.created type m.id hmem
    have hle := le_id_of_mem_started create conf.stage conf.moduleConfigs _ m hm
    omega

/-- When `newChannel` returns the null pointer, the subscriptions are those from before,
and no destroyed module is among them, exactly if every module that it created is
silent. -/
theorem subscriptions_restored_iff (conf : ChannelConfiguration) (manager : ChannelManager)
    (_hnull : (manager.newChannel create conf).1 = none) :
    ((manager.newChannel create conf).2.messaging.table = manager.messaging.table ↔
        ∀ m ∈ conf.started create manager.messaging.idCounter, m.Silent) ∧
      ((∀ m ∈ conf.started create manager.messaging.idCounter, ∀ type,
          .internal m.id ∉ (manager.newChannel create conf).2.messaging.table type) ↔
        ∀ m ∈ conf.started create manager.messaging.idCounter, m.Silent) := by
  have hsame : (∀ m ∈ conf.started create manager.messaging.idCounter, m.Silent) →
      (manager.newChannel create conf).2.messaging.table = manager.messaging.table := by
    intro hsilent
    rw [ChannelManager.newChannel_messaging]
    exact enterAll_of_silent _ _ hsilent
  refine ⟨⟨?_, hsame⟩, ⟨?_, ?_⟩⟩
  · intro heq m hm type htype
    by_contra hvalid
    obtain ⟨hin, hout⟩ := mem_of_not_silent create conf manager hm htype (by simpa using hvalid)
    rw [heq] at hin
    exact hout hin
  · intro hnone m hm type htype
    by_contra hvalid
    exact hnone m hm type
      (mem_of_not_silent create conf manager hm htype (by simpa using hvalid)).1
  · intro hsilent m hm type hmem
    rw [hsame hsilent] at hmem
    have hlt := manager.messaging.created type m.id hmem
    have hle := le_id_of_mem_started create conf.stage conf.moduleConfigs _ m hm
    omega

end

/-! ## A module that is not configured -/

/-- The parameters that `ModuleAnalyzerAggregateWatch::configure` asks for. -/
def watchParameters : List String :=
  ["AlphaAvg", "AlphaDev", "AlphaLearn", "AlphaRed", "Beta", "ExceedThreshold",
    "FrameSizeBorders", "TimerModule", "LearningIntervals"]

def watching (types : List MessageType) : Create := fun _ config =>
  some
    { messenger := some types
      configured := watchParameters.all fun name => config.parameters.any (·.1 == name) }

def unconfigured : ChannelConfiguration where
  name := "watch"
  stage := 0
  moduleConfigs := [{ name := "AggregateWatch", library := "", stage := 0, parameters := [] }]

/-- The watch registers for two types of messages, and is still in the table for both
after its channel has been deleted. -/
theorem failed_channel_stays_subscribed :
    (ChannelManager.newChannel (watching [.timer, .aggregateLastSuspicious]) unconfigured
        ⟨[], Messaging.initial⟩).1 = none ∧
      (ChannelManager.newChannel (watching [.timer, .aggregateLastSuspicious]) unconfigured
        ⟨[], Messaging.initial⟩).2.messaging.table .timer = [.internal 0] ∧
      (ChannelManager.newChannel (watching [.timer, .aggregateLastSuspicious]) unconfigured
        ⟨[], Messaging.initial⟩).2.messaging.table .aggregateLastSuspicious = [.internal 0] ∧
      Messaging.initial.table .timer = [] ∧
      Messaging.initial.table .aggregateLastSuspicious = [] := by
  decide

theorem subscriptions_restored_iff_unconfigured :
    (ChannelManager.newChannel (watching []) unconfigured ⟨[], Messaging.initial⟩).1 = none ∧
      (ChannelManager.newChannel (watching []) unconfigured
        ⟨[], Messaging.initial⟩).2.messaging.table = Messaging.initial.table :=
  ⟨by decide, (subscriptions_restored_iff (watching []) unconfigured ⟨[], Messaging.initial⟩
    (by decide)).1.mpr (by decide)⟩

end WormsAttack.Distack
