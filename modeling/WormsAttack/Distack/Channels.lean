/-
  Channels, their modules and the messaging table.

  Source: distack-1.2.3-dev/src/base/message/MessagingSystem.cpp (`subscribe`,
  `unsubscribeAll`), base/module/Module.cpp, Channel.cpp and ChannelManager.cpp.

  `create` stands for all libraries: it is their entry function together with what the object it
  returns does when it is configured and when it registers for messages.  It may depend on the
  number of the module and the configuration, in which the channel has filled in its stage.

  NAMES.  The object of a module is named by the number that `Module::ID_COUNTER` gave it.
-/
import Mathlib.Logic.Function.Basic
import WormsAttack.Foundation.EraseLoop

namespace WormsAttack.Distack

open Foundation Function

/-! ## The messaging table -/

inductive MessageType
  | invalidFirst
  | alert
  | addressDistribution
  | aggregateWatchValues
  | timer
  | aggregateLastSuspicious
  | aggregateIntervalValues
  | anomalyType
  | invalidLast
  deriving DecidableEq

def MessageType.isValid : MessageType → Bool
  | .invalidFirst | .invalidLast => false
  | _ => true

/-- A `MessagingNode*`: the module manager, or the object behind a module. -/
inductive MessagingNode
  | moduleManager
  | internal (id : Nat)
  deriving DecidableEq

/-- `m_messagingTable`; a type without an entry has no nodes. -/
abbrev MessagingTable := MessageType → List MessagingNode

namespace MessagingTable

def subscribe (table : MessagingTable) (node : MessagingNode) (type : MessageType) :
    MessagingTable :=
  if type.isValid then
    if node ∈ table type then table
    else Function.update table type (table type ++ [node])
  else table

def unsubscribeAll (table : MessagingTable) (node : MessagingNode) : MessagingTable :=
  fun type => (table type).erase node

def unsubscribe (table : MessagingTable) (node : MessagingNode) (type : MessageType) :
    MessagingTable :=
  Function.update table type ((table type).erase node)

def register (table : MessagingTable) (node : MessagingNode) (types : List MessageType) :
    MessagingTable :=
  types.foldl (fun table type => table.subscribe node type) table

variable {table : MessagingTable} {node other : MessagingNode} {type type' : MessageType}

theorem subscribe_of_invalid (h : type.isValid = false) : table.subscribe node type = table := by
  simp [subscribe, h]

theorem mem_subscribe :
    other ∈ table.subscribe node type type' ↔
      other ∈ table type' ∨ (type.isValid = true ∧ type' = type ∧ other = node) := by
  unfold subscribe
  by_cases hvalid : type.isValid = true
  · by_cases hmem : node ∈ table type
    · rw [if_pos hvalid, if_pos hmem]
      constructor
      · exact Or.inl
      · rintro (h | ⟨_, rfl, rfl⟩)
        · exact h
        · exact hmem
    · rw [if_pos hvalid, if_neg hmem]
      by_cases hat : type' = type
      · subst hat
        simp [hvalid]
      · simp [hat]
  · simp [hvalid]

theorem nodup_subscribe (h : (table type').Nodup) :
    (table.subscribe node type type').Nodup := by
  unfold subscribe
  split_ifs with hvalid hmem
  · exact h
  · by_cases hat : type' = type
    · subst hat
      rw [update_self]
      exact List.nodup_append'.mpr
        ⟨h, List.nodup_singleton node, fun other hother hnode =>
          hmem (List.mem_singleton.mp hnode ▸ hother)⟩
    · rwa [update_of_ne hat]
  · exact h

theorem mem_of_mem_unsubscribe (h : other ∈ table.unsubscribe node type type') :
    other ∈ table type' := by
  unfold unsubscribe at h
  by_cases hat : type' = type
  · subst hat
    rw [update_self] at h
    exact List.mem_of_mem_erase h
  · rwa [update_of_ne hat] at h

theorem nodup_unsubscribe (h : (table type').Nodup) :
    (table.unsubscribe node type type').Nodup := by
  unfold unsubscribe
  by_cases hat : type' = type
  · subst hat
    rw [update_self]
    exact h.erase node
  · rwa [update_of_ne hat]

theorem not_mem_unsubscribeAll (h : (table type').Nodup) :
    node ∉ table.unsubscribeAll node type' :=
  h.not_mem_erase

theorem mem_register {types : List MessageType} :
    other ∈ table.register node types type' ↔
      other ∈ table type' ∨ (type'.isValid = true ∧ type' ∈ types ∧ other = node) := by
  induction types generalizing table with
  | nil => simp [register]
  | cons type types ih =>
    have hstep : table.register node (type :: types) =
        (table.subscribe node type).register node types := rfl
    rw [hstep, ih, mem_subscribe, List.mem_cons]
    constructor
    · rintro ((h | ⟨hvalid, rfl, rfl⟩) | ⟨hvalid, htypes, rfl⟩)
      · exact .inl h
      · exact .inr ⟨hvalid, .inl rfl, rfl⟩
      · exact .inr ⟨hvalid, .inr htypes, rfl⟩
    · rintro (h | ⟨hvalid, rfl | htypes, rfl⟩)
      · exact .inl (.inl h)
      · exact .inl (.inr ⟨hvalid, rfl, rfl⟩)
      · exact .inr ⟨hvalid, htypes, rfl⟩

theorem register_of_invalid {types : List MessageType}
    (h : ∀ type ∈ types, type.isValid = false) : table.register node types = table := by
  induction types with
  | nil => rfl
  | cons type types ih =>
    have hrest := ih fun other hother => h other (List.mem_cons_of_mem type hother)
    simpa [register, subscribe_of_invalid (h type List.mem_cons_self)] using hrest

end MessagingTable

/-- The messaging table and `Module::ID_COUNTER`.  The table holds no module that has not
been created. -/
structure Messaging where
  table : MessagingTable
  idCounter : Nat
  created : ∀ (type : MessageType) (id : Nat), .internal id ∈ table type → id < idCounter

namespace Messaging

/-- The system of a new module manager, which subscribes itself for the alerts. -/
def initial : Messaging where
  table := MessagingTable.subscribe (fun _ => []) .moduleManager .alert
  idCounter := 0
  created := by
    intro type id hmem
    rcases MessagingTable.mem_subscribe.mp hmem with h | ⟨_, _, h⟩
    · cases h
    · cases h

def enter (messaging : Messaging) (types : List MessageType) : Messaging where
  table := messaging.table.register (.internal messaging.idCounter) types
  idCounter := messaging.idCounter + 1
  created := by
    intro type id hmem
    rcases MessagingTable.mem_register.mp hmem with h | ⟨_, _, h⟩
    · exact Nat.lt_succ_of_lt (messaging.created type id h)
    · rw [MessagingNode.internal.inj h]
      exact Nat.lt_succ_self _

def unsubscribeAll (messaging : Messaging) (node : MessagingNode) : Messaging where
  table := messaging.table.unsubscribeAll node
  idCounter := messaging.idCounter
  created := fun type id hmem => messaging.created type id (List.mem_of_mem_erase hmem)

end Messaging

/-! ## Modules -/

/-- `ModuleConfiguration`, and the stage of the channel that it is created for. -/
structure ModuleConfiguration where
  name : String
  library : String
  stage : UInt16
  parameters : List (String × String)

structure Internal where
  /-- The message types it subscribes to in `registerMessages`, if it is a
  `MessagingNode` at all. -/
  messenger : Option (List MessageType)
  configured : Bool

/-- The entry function of the libraries; `none` is the null pointer. -/
abbrev Create := Nat → ModuleConfiguration → Option Internal

structure Module where
  id : Nat
  name : String
  internal : Option Internal

namespace Module

def new (create : Create) (id : Nat) (config : ModuleConfiguration) : Module :=
  { id := id, name := config.name, internal := create id config }

def good (m : Module) : Bool :=
  match m.internal with
  | none => false
  | some internal => internal.configured

/-- `dynamic_cast<MessagingNode*> (module->getInternal())`. -/
def messenger (m : Module) : Option (List MessageType) :=
  m.internal.bind Internal.messenger

def messages (m : Module) : List MessageType :=
  m.messenger.getD []

end Module

/-! ## Channels -/

structure Channel where
  name : String
  stage : UInt16
  modules : List Module

structure ChannelConfiguration where
  name : String
  stage : UInt16
  moduleConfigs : List ModuleConfiguration

section

variable (create : Create)

namespace Channel

def addModule (channel : Channel) (config : ModuleConfiguration) (id : Nat) : Module × Channel :=
  let added := Module.new create id { config with stage := channel.stage }
  (added, { channel with modules := channel.modules ++ [added] })

def startup : List ModuleConfiguration → Channel → Messaging → Bool × Channel × Messaging
  | [], channel, messaging => (true, channel, messaging)
  | config :: rest, channel, messaging =>
      let (added, channel) := addModule create channel config messaging.idCounter
      -- a module registers for its messages whether or not it is good
      let messaging := messaging.enter added.messages
      if added.good then startup rest channel messaging
      else (false, channel, messaging)

def shutdown (channel : Channel) (messaging : Messaging) : Messaging :=
  channel.modules.foldl
    (fun messaging m =>
      if m.messenger.isSome then messaging.unsubscribeAll (.internal m.id) else messaging)
    messaging

end Channel

/-- `ChannelManager`, with the messaging system that its channels use. -/
structure ChannelManager where
  channels : List Channel
  messaging : Messaging

namespace ChannelManager

def newChannel (conf : ChannelConfiguration) (manager : ChannelManager) :
    Option Channel × ChannelManager :=
  let (ret, channel, messaging) :=
    Channel.startup create conf.moduleConfigs ⟨conf.name, conf.stage, []⟩ manager.messaging
  if ret then
    (some channel, { channels := manager.channels ++ [channel], messaging := messaging })
  else
    -- the destructors of the channel and of its modules leave the messaging system alone
    (none, { manager with messaging := messaging })

def deleteChannels (stage : UInt16) (manager : ChannelManager) : ChannelManager :=
  let (channels, messaging) :=
    restartWhere (fun channel => decide (stage ≤ channel.stage)) Channel.shutdown
      manager.channels manager.messaging
  { channels := channels, messaging := messaging }

end ChannelManager

/-! ## What a start-up creates -/

/-- The modules up to and including the first that is not good. -/
def started (stage : UInt16) : Nat → List ModuleConfiguration → List Module
  | _, [] => []
  | id, config :: rest =>
      let added := Module.new create id { config with stage := stage }
      added :: if added.good then started stage (id + 1) rest else []

def Messaging.enterAll (messaging : Messaging) (modules : List Module) : Messaging :=
  modules.foldl (fun messaging m => messaging.enter m.messages) messaging

theorem Channel.startup_eq (configs : List ModuleConfiguration) :
    ∀ (channel : Channel) (messaging : Messaging),
      Channel.startup create configs channel messaging =
        ((started create channel.stage messaging.idCounter configs).all Module.good, { channel with
            modules := channel.modules ++
              started create channel.stage messaging.idCounter configs },
          messaging.enterAll (started create channel.stage messaging.idCounter configs)) := by
  induction configs with
  | nil =>
    simp [Channel.startup, started, Messaging.enterAll]
  | cons config rest ih =>
    intro channel messaging
    cases hgood : (Module.new create messaging.idCounter
        { config with stage := channel.stage }).good with
    | false => simp [Channel.startup, Channel.addModule, started, hgood, Messaging.enterAll]
    | true =>
      simp [Channel.startup, Channel.addModule, started, hgood, ih, Messaging.enterAll,
        Messaging.enter]

def ChannelConfiguration.started (conf : ChannelConfiguration) (id : Nat) : List Module :=
  Distack.started create conf.stage id conf.moduleConfigs

namespace ChannelManager

theorem newChannel_eq (conf : ChannelConfiguration) (manager : ChannelManager) :
    newChannel create conf manager =
      let modules := conf.started create manager.messaging.idCounter
      let channel : Channel := ⟨conf.name, conf.stage, modules⟩
      let messaging := manager.messaging.enterAll modules
      if modules.all Module.good then (some channel, ⟨manager.channels ++ [channel], messaging⟩)
      else (none, ⟨manager.channels, messaging⟩) := by
  simp only [newChannel, Channel.startup_eq, List.nil_append, ChannelConfiguration.started]
  rfl

variable (conf : ChannelConfiguration) (manager : ChannelManager)

theorem newChannel_isSome :
    (manager.newChannel create conf).1.isSome =
      (conf.started create manager.messaging.idCounter).all Module.good := by
  rw [newChannel_eq]
  cases hgood : (conf.started create manager.messaging.idCounter).all Module.good <;>
    simp only [hgood] <;> rfl

theorem newChannel_messaging :
    (manager.newChannel create conf).2.messaging =
      manager.messaging.enterAll (conf.started create manager.messaging.idCounter) := by
  rw [newChannel_eq]
  cases hgood : (conf.started create manager.messaging.idCounter).all Module.good <;>
    simp only [hgood] <;> rfl

theorem newChannel_channels :
    (manager.newChannel create conf).2.channels =
      manager.channels ++
        if (conf.started create manager.messaging.idCounter).all Module.good then
          [⟨conf.name, conf.stage, conf.started create manager.messaging.idCounter⟩]
        else [] := by
  rw [newChannel_eq]
  cases hgood : (conf.started create manager.messaging.idCounter).all Module.good <;>
    simp only [hgood, if_true, Bool.false_eq_true, if_false, List.append_nil]

end ChannelManager

end

end WormsAttack.Distack
