/-
  The stages of channels.

  Source: distack-1.2.3-dev/src/base/module/ModuleManager.cpp, and `getChannels`,
  `getChannelItems` and `getModuleConfiguration` of base/configuration/Configuration.cpp.

  An alert is handled where it is received (`OMNET_SIMULATION`): `receiveMessage` returns after
  the stages have been updated.

  NUMBERS.  Stage numbers are `unsigned short`s.  The stage attribute of a channel is an `int`
  that is compared with them.
-/
import WormsAttack.Distack.Channels

namespace WormsAttack.Distack

/-! ## The configuration -/

structure Configuration where
  channels : List String
  /-- `Helper::stoi` of a channel's stage attribute. -/
  stage : String → Int
  channelItems : String → List String
  modules : List String
  moduleConfiguration : String → ModuleConfiguration

namespace Configuration

def getChannels (c : Configuration) (stage : UInt16) : List String :=
  c.channels.filter fun name => c.stage name == stage.toNat

/-- `m_modulePool`, as the constructor of `ModuleManager` fills it: a name that comes a
second time is skipped. -/
def modulePool (c : Configuration) : List (String × ModuleConfiguration) :=
  c.modules.foldl
    (fun pool name =>
      if (pool.lookup name).isSome then pool else pool ++ [(name, c.moduleConfiguration name)])
    []

def moduleConfigs (c : Configuration) (name : String) : Option (List ModuleConfiguration) :=
  (c.channelItems name).mapM fun item => c.modulePool.lookup item

end Configuration

/-! ## The manager -/

structure ModuleManager where
  currentStageLevel : UInt16
  lowestStageLevel : UInt16
  stageUpdateInProgress : Bool
  channelManager : ChannelManager

inductive AlertType
  | raiseLevel
  | lowerLevel
  deriving DecidableEq

/-- `MessageAlert`: the type, and the stage of the module that sends it. -/
structure MessageAlert where
  type : AlertType
  alertModuleStage : UInt16

def maxNumStages : Nat := 100

def ModuleManager.initial : ModuleManager where
  currentStageLevel := 0
  lowestStageLevel := 0
  stageUpdateInProgress := false
  channelManager := { channels := [], messaging := Messaging.initial }

section

variable (create : Create) (c : Configuration)

def loadChannel (name : String) (stage : UInt16) (manager : ChannelManager) :
    Bool × ChannelManager :=
  match c.moduleConfigs name with
  | none => (false, manager)
  | some moduleConfigs =>
      let (channel, manager) := manager.newChannel create ⟨name, stage, moduleConfigs⟩
      (channel.isSome, manager)

/-- The loop over channels in `loadStage` and `loadAllChannels`, which tries all of them. -/
def loadChannels (stage : UInt16) : List String → ChannelManager → Bool × ChannelManager
  | [], manager => (true, manager)
  | name :: rest, manager =>
      let (loaded, manager) := loadChannel create c name stage manager
      let (success, manager) := loadChannels stage rest manager
      (loaded && success, manager)

/-- `ModuleManager::loadStage`; `ret` is set in the loop, so a stage without channels is
not loaded. -/
def loadStage (stage : UInt16) (manager : ChannelManager) : Bool × ChannelManager :=
  let channels := c.getChannels stage
  let (loadSuccess, manager) := loadChannels create c stage channels manager
  (!channels.isEmpty && loadSuccess, manager)

def loadAllChannels (manager : ChannelManager) : Bool × ChannelManager :=
  loadChannels create c 0 c.channels manager

namespace ModuleManager

def startupLoop : (rounds : Nat) → UInt16 → ModuleManager → Bool × ModuleManager
  | 0, _, m => (false, m)
  | rounds + 1, stage, m =>
      let (ret, manager) := loadStage create c stage m.channelManager
      let m := { m with channelManager := manager }
      if ret then (true, { m with currentStageLevel := stage, lowestStageLevel := stage })
      else startupLoop rounds (stage + 1) m

def startup (m : ModuleManager) : Bool × ModuleManager :=
  let (ret, m) := startupLoop create c maxNumStages 0 m
  if ret then (true, m)
  else
    let (ret, manager) := loadAllChannels create c m.channelManager
    let m := { m with channelManager := manager }
    if ret then (true, { m with currentStageLevel := 0, lowestStageLevel := 0 })
    else (false, m)

/-- `ModuleManager::updateStageThreadFunc`. -/
def updateStage (alert : MessageAlert) (m : ModuleManager) : ModuleManager :=
  match alert.type with
  | .raiseLevel =>
      if alert.alertModuleStage = m.currentStageLevel then
        let (success, manager) := loadStage create c (m.currentStageLevel + 1) m.channelManager
        { m with
          channelManager := manager
          currentStageLevel :=
            if success then m.currentStageLevel + 1 else m.currentStageLevel
          stageUpdateInProgress := false }
      else { m with stageUpdateInProgress := false }
  | .lowerLevel =>
      if alert.alertModuleStage = m.lowestStageLevel then
        -- the basic stage has seen the end of the attack: only it stays
        { m with
          channelManager := m.channelManager.deleteChannels (alert.alertModuleStage + 1)
          currentStageLevel := alert.alertModuleStage
          stageUpdateInProgress := false }
      else
        { m with
          channelManager := m.channelManager.deleteChannels alert.alertModuleStage
          currentStageLevel := alert.alertModuleStage - 1
          stageUpdateInProgress := false }

/-- `ModuleManager::receiveMessage` for an alert. -/
def receiveMessage (alert : MessageAlert) (m : ModuleManager) : ModuleManager :=
  if m.stageUpdateInProgress then m
  else if m.currentStageLevel < m.lowestStageLevel then m
  else if alert.alertModuleStage < m.lowestStageLevel then m
  else if m.currentStageLevel < alert.alertModuleStage then m
  else updateStage create c alert { m with stageUpdateInProgress := true }

def started : ModuleManager :=
  (initial.startup create c).2

def handleAlert (m : ModuleManager) (alert : MessageAlert) : Except Empty (ModuleManager × Unit) :=
  .ok (m.receiveMessage create c alert, ())

end ModuleManager

end

end WormsAttack.Distack
