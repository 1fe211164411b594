/-
  The ConnectionManager and InetUser modules.

  Sources: ReaSE/src/base/ConnectionManager.cc and ConnectionManager.h, and
  ReaSE/src/applications/generic/InetUser.cc.

  RANDOM NUMBERS.  What is drawn is an input.  Each loop has its own supply, from which a round
  takes the draws at the number of rounds that are left after it.  An index into a vector is a
  draw modulo its size.  Only the loop that draws profiles has no bound, so its supply is a
  list; the call ends with `redrawing` when the list is used up and the loop goes on.

  WHAT IS NOT MODELLED.  The branches for `UNIFORM_PROB` other than 1, the timer that ends the
  simulation, statistics and displays.  The traffic profile manager is there from the start.
-/
import WormsAttack.Inet.IPAddress
import WormsAttack.Traffic.Profiles
import Mathlib.Logic.Function.Basic

namespace WormsAttack.Traffic

open Foundation Inet

/-! ## The connection managers -/

structure TargetInfo where
  address : IPAddress
  port : Int
  deriving DecidableEq

/-- What is left in `ti` when there is no server. -/
def TargetInfo.unspecified : TargetInfo := { address := ⟨0⟩, port := -1 }

structure ServerConnection where
  address : IPAddress
  port : Int
  profileID : Int
  ratio : Int
  id : Int
  probability : Double

def ServerConnection.target (c : ServerConnection) : TargetInfo :=
  { address := c.address, port := c.port }

/-- `manager` is a pointer: the number of the manager. -/
structure ForeignNetwork where
  manager : Nat
  ratio : Int
  id : Int
  probability : Double

def ForeignNetwork.new (manager : Nat) (moduleId ratio : Int) : ForeignNetwork :=
  { manager := manager, ratio := ratio, id := moduleId, probability := .finite ratio }

/-- `id` is `getId()`, and `topCM` a pointer that may be null. -/
structure ConnectionManager where
  id : Int
  servers : Int → Option (List ServerConnection)
  subCM : List ForeignNetwork
  topCM : Option Nat
  serverProbabilityIsDirty : Bool
  networkProbabilityIsDirty : Bool
  isTopCM : Bool
  isFlatNet : Bool

namespace ConnectionManager

def new (id : Int) : ConnectionManager :=
  { id := id
    servers := fun _ => none
    subCM := []
    topCM := none
    serverProbabilityIsDirty := false
    networkProbabilityIsDirty := false
    isTopCM := false
    isFlatNet := true }

/-- `registerServer`.  The probability is not set. -/
def registerServer (m : ConnectionManager) (address : IPAddress) (port profileId moduleId : Int) :
    ConnectionManager :=
  let server :=
    { address := address, port := port, profileID := profileId, ratio := 1, id := moduleId,
      probability := 0 }
  { m with
    isFlatNet := if m.isTopCM then true else m.isFlatNet
    servers :=
      Function.update m.servers profileId (some ((m.servers profileId).getD [] ++ [server]))
    serverProbabilityIsDirty := true }

/-- `addSubCM` with a network. -/
def addSubCM (m : ConnectionManager) (network : ForeignNetwork) : ConnectionManager :=
  if !m.isTopCM then m
  else
    { m with
      isFlatNet := false
      subCM := m.subCM ++ [network]
      networkProbabilityIsDirty := true }

/-- The inner loops of `updateServerProbabilities`. -/
def updateServers (servers : List ServerConnection) : List ServerConnection :=
  let cumRatio := (servers.map fun c => Double.finite c.ratio).foldl (· + ·) 0
  servers.map fun c => { c with probability := .finite c.ratio / cumRatio }

def updateServerProbabilities (m : ConnectionManager) : Except Stop ConnectionManager :=
  if m.isTopCM && !m.isFlatNet then
    .error (.error "invalid state: i'm topCM and have no server list!")
  else
    .ok { m with
      serverProbabilityIsDirty := false
      servers := fun profileId => (m.servers profileId).map updateServers }

def updateNetworkProbabilities (m : ConnectionManager) : Except Stop ConnectionManager :=
  if !m.isTopCM then .error (.error "invalid state: i'm not topCM and have no network list")
  else
    let cumRatio := (m.subCM.map fun net => Double.finite net.ratio).foldl (· + ·) 0
    .ok { m with
      networkProbabilityIsDirty := false
      subCM := m.subCM.map fun net => { net with probability := net.probability / cumRatio } }

def refreshServers (m : ConnectionManager) : Except Stop ConnectionManager :=
  if m.serverProbabilityIsDirty then m.updateServerProbabilities else .ok m

def refreshNetworks (m : ConnectionManager) : Except Stop ConnectionManager :=
  if m.networkProbabilityIsDirty then m.updateNetworkProbabilities else .ok m

/-- The loop of `haveProfile`, with `rounds` rounds to go: the server, if one was found. -/
def pickServer (servers : List ServerConnection) (moduleId : Int) (draws : Nat → Nat) :
    (rounds : Nat) → Except Stop (Option ServerConnection)
  | 0 => .ok none
  | rounds + 1 =>
      match servers[draws rounds % servers.length]? with
      | none => .error .outOfRange
      | some c =>
          if c.id = moduleId ∧ moduleId ≠ -1 then pickServer servers moduleId draws rounds
          else .ok (some c)

/-- `haveProfile`: the manager and `ti` afterwards, and what is returned. -/
def haveProfile (m : ConnectionManager) (ti : TargetInfo) (profileId moduleId : Int)
    (draws : Nat → Nat) : Except Stop (ConnectionManager × TargetInfo × Bool) :=
  if m.isTopCM && !m.isFlatNet then .error (.error "asking TopCM for ServerProfile\n")
  else do
    let m ← m.refreshServers
    match m.servers profileId with
    | none => .ok (m, { ti with address := ⟨0⟩, port := -1 }, false)
    | some servers => do
        match ← pickServer servers moduleId draws 100 with
        | none => .ok (m, { ti with address := ⟨0⟩, port := -1 }, false)
        | some c => .ok (m, { ti with address := c.address, port := c.port }, true)

end ConnectionManager

/-- The traffic profile manager, and the connection managers by number. -/
structure System where
  tpm : TrafficProfileManager
  managers : Nat → ConnectionManager

def System.store (s : System) (p : Nat) (m : ConnectionManager) : System :=
  { s with managers := Function.update s.managers p m }

/-- What is drawn in one round of `getForeignServer`: the network, and the servers tried in
it. -/
structure ForeignDraw where
  network : Nat
  server : Nat → Nat

structure UnitDraw where
  value : Rat
  nonneg : 0 ≤ value
  lt_one : value < 1
  deriving DecidableEq

structure ProfileDraw where
  foreignServerProb : UnitDraw
  profileProb : UnitDraw
  deriving DecidableEq

structure ServerDraws where
  profile : List ProfileDraw
  own : Nat → Nat
  foreign : Nat → ForeignDraw

namespace System

def haveProfile (s : System) (p : Nat) (ti : TargetInfo) (profileId moduleId : Int)
    (draws : Nat → Nat) : Except Stop (System × TargetInfo × Bool) := do
  let (m, ti, found) ← (s.managers p).haveProfile ti profileId moduleId draws
  .ok (s.store p m, ti, found)

/-- The loop of `getForeignServer` at manager `top`: the system, `ti` and `goOn` afterwards, and the
rounds left. -/
def searchForeign (top : Nat) (profileId moduleId : Int) (draws : Nat → ForeignDraw) :
    (rounds : Nat) → System → TargetInfo → Except Stop (System × TargetInfo × Bool × Nat)
  | 0, s, ti => .ok (s, ti, true, 0)
  | rounds + 1, s, ti =>
      let subCM := (s.managers top).subCM
      match subCM[(draws rounds).network % subCM.length]? with
      | none => .error .outOfRange
      | some net =>
          if net.id = moduleId then searchForeign top profileId moduleId draws rounds s ti
          else do
            let (s, ti, found) ← s.haveProfile net.manager ti profileId (-1) (draws rounds).server
            if found then .ok (s, ti, false, rounds)
            else searchForeign top profileId moduleId draws rounds s ti

/-- `getForeignServer` of manager `top`: the system and `ti` afterwards, and `runs`. -/
def getForeignServer (s : System) (top : Nat) (ti : TargetInfo) (profileId moduleId : Int)
    (draws : Nat → ForeignDraw) : Except Stop (System × TargetInfo × Nat) :=
  if !(s.managers top).isTopCM then .error (.error "asking non-TopCM for foreignServer\n")
  else do
    let m ← (s.managers top).refreshNetworks
    let (s, ti, goOn, left) ← searchForeign top profileId moduleId draws 100 (s.store top m) ti
    let runs := 100 - left
    .ok (s, if runs = 100 ∧ goOn then { ti with address := ⟨0⟩, port := -1 } else ti, runs)

/-- The loop of `getServer` that draws profiles: the profile, `isForeign`, and the draws that
are left. -/
def redraw (tpm : TrafficProfileManager) (except : Int) :
    TrafficProfile → Bool → List ProfileDraw →
      Except Stop (TrafficProfile × Bool × List ProfileDraw)
  | tp, isForeign, [] =>
      if tp.profileID = except then .error .redrawing else .ok (tp, isForeign, [])
  | tp, isForeign, d :: draws =>
      if tp.profileID = except then
        let (tp, isForeign) :=
          tpm.getTrafficProfile d.profileProb.value d.foreignServerProb.value isForeign
        redraw tpm except tp isForeign draws
      else .ok (tp, isForeign, d :: draws)

/-- The first part of `getServer`: the traffic profile. -/
def requestProfile (tpm : TrafficProfileManager) (tp : TrafficProfile) (except : Int)
    (draws : List ProfileDraw) : Except Stop (TrafficProfile × Bool × List ProfileDraw) :=
  if except = -1 then
    match draws with
    | [] => .error .redrawing
    | d :: draws =>
        let (tp, isForeign) :=
          tpm.getTrafficProfile d.profileProb.value d.foreignServerProb.value false
        .ok (tp, isForeign, draws)
  else redraw tpm except tp false draws

/-- A server is asked for outside of the own network, whose manager `p` has registered with
`top`. -/
def requestForeign (s : System) (p top : Nat) (ti : TargetInfo) (profileId : Int)
    (own : Nat → Nat) (foreign : Nat → ForeignDraw) : Except Stop (System × TargetInfo) :=
  if (s.managers top).isFlatNet then do
    let (s, ti, _) ← s.haveProfile p ti profileId (s.managers p).id own
    .ok (s, ti)
  else do
    let (s, ti, _) ← s.getForeignServer top ti profileId (s.managers p).id foreign
    .ok (s, ti)

/-- A server is asked for in the own network first. -/
def requestLocal (s : System) (p : Nat) (ti : TargetInfo) (profileId moduleId : Int)
    (own : Nat → Nat) (foreign : Nat → ForeignDraw) : Except Stop (System × TargetInfo) := do
  let (s, ti, found) ← s.haveProfile p ti profileId moduleId own
  if found then .ok (s, ti)
  else
    match (s.managers p).topCM with
    | some top =>
        if (s.managers top).isFlatNet then .ok (s, ti)
        else do
          let (s, ti, _) ← s.getForeignServer top ti profileId (s.managers p).id foreign
          .ok (s, ti)
    | none => .error (.error "couldn't get server - no TopCM available\n")

/-- The second part of `getServer`: the server. -/
def requestServer (s : System) (p : Nat) (ti : TargetInfo) (profileId moduleId : Int)
    (isForeign : Bool) (own : Nat → Nat) (foreign : Nat → ForeignDraw) :
    Except Stop (System × TargetInfo) :=
  match isForeign, (s.managers p).topCM with
  | true, some top => s.requestForeign p top ti profileId own foreign
  | _, _ => s.requestLocal p ti profileId moduleId own foreign

end System

/-- What `getServer` leaves in its arguments, whether the foreign branch was taken, and the draws
that are left. -/
structure Answer where
  ti : TargetInfo
  tp : TrafficProfile
  foreign : Bool
  unused : List ProfileDraw
  deriving DecidableEq

/-- `getServer` of manager `p`, called by the module `moduleId`. -/
def System.getServer (s : System) (p : Nat) (ti : TargetInfo) (tp : TrafficProfile)
    (except moduleId : Int) (draws : ServerDraws) : Except Stop (System × Answer) := do
  let (tp, isForeign, unused) ← requestProfile s.tpm tp except draws.profile
  let (s', ti) ← s.requestServer p ti tp.profileID moduleId isForeign draws.own draws.foreign
  .ok (s',
    { ti := ti, tp := tp, foreign := isForeign && (s.managers p).topCM.isSome, unused := unused })

/-- `registerConnectionManager` of manager `p`; `mod` is the module found further up, if there is
one. -/
def System.registerConnectionManager (s : System) (p : Nat) (mod : Option Nat) : System :=
  let m := s.managers p
  if m.isTopCM || m.topCM.isSome then s
  else
    match mod.filter (· ≠ p) with
    | none => s.store p { m with isTopCM := true, topCM := some p }
    | some top =>
        let s := s.store p { m with topCM := some top }
        s.store top ((s.managers top).addSubCM (.new p m.id 1))

inductive Event
  | registerConnectionManager (p : Nat) (mod : Option Nat)
  | registerServer (p : Nat) (address : IPAddress) (port profileId moduleId : Int)
  | getServer (p : Nat) (ti : TargetInfo) (tp : TrafficProfile) (except moduleId : Int)
      (draws : ServerDraws)

def step (s : System) : Event → Except Stop (System × Option Answer)
  | .registerConnectionManager p mod => .ok (s.registerConnectionManager p mod, none)
  | .registerServer p address port profileId moduleId =>
      .ok (s.store p ((s.managers p).registerServer address port profileId moduleId), none)
  | .getServer p ti tp except moduleId draws => do
      let (s, answer) ← s.getServer p ti tp except moduleId draws
      .ok (s, some answer)

def System.start (tpm : TrafficProfileManager) (ids : Nat → Int) : System :=
  { tpm := tpm, managers := fun p => .new (ids p) }

/-! ## The users -/

inductive AppType
  | tcp
  | udp
  | icmp
  deriving DecidableEq

/-- `GET_APP_TYPE`; `none` is `NOTSET`. -/
def getAppType (profileId : Int) : Option AppType :=
  if profileId < 0 then none
  else if profileId < 11 then some .tcp
  else if profileId < 21 then some .udp
  else if profileId < 31 then some .icmp
  else none

/-- `id` is `getId()`, `cm` the number of the manager, and `applications` says which
applications have been set. -/
structure InetUser where
  id : Int
  cm : Nat
  applications : AppType → Bool
  noICMPProfile : Int
  noUDPProfile : Int
  noTCPProfile : Int
  currentProfileId : Int
  curTrafficProfile : TrafficProfile
  curTargetInfo : TargetInfo

/-- The constructor.  The port of the target is not set. -/
def InetUser.new (id : Int) (cm : Nat) : InetUser :=
  { id := id
    cm := cm
    applications := fun _ => false
    noICMPProfile := 0
    noUDPProfile := 0
    noTCPProfile := 0
    currentProfileId := -1
    curTrafficProfile := .new
    curTargetInfo := { address := ⟨0⟩, port := 0 } }

def InetUser.setApplication (u : InetUser) (type : AppType) : InetUser :=
  { u with applications := Function.update u.applications type true }

/-- One round of the loop of `transmissionDone`. Round 50 forgets the excluded profile. -/
def InetUser.attempt (u : InetUser) (s : System) (ti : TargetInfo) (tp : TrafficProfile)
    (exceptId : Int) (left : Nat) (draws : ServerDraws) : Except Stop (System × Answer) :=
  s.getServer u.cm ti tp (if 100 - left = 50 then -1 else exceptId) u.id draws

/-- The loop of `transmissionDone`: the system and the answer afterwards, and the rounds that were
left. -/
def InetUser.attempts (u : InetUser) (draws : Nat → ServerDraws) :
    (left : Nat) → System → TargetInfo → TrafficProfile → Int →
      Except Stop (System × Answer × Nat)
  | 0, s, ti, tp, exceptId => do
      let (s, answer) ← u.attempt s ti tp exceptId 0 (draws 0)
      .ok (s, answer, 0)
  | left + 1, s, ti, tp, exceptId => do
      let (s, answer) ← u.attempt s ti tp exceptId (left + 1) (draws (left + 1))
      if answer.ti.address.isUnspecified then
        u.attempts draws left s answer.ti answer.tp answer.tp.profileID
      else .ok (s, answer, left + 1)

/-- The call of `transmissionStart`, if there is one, and the rounds it took to find the server. -/
structure Transmission where
  started : Option (AppType × TrafficProfile × TargetInfo)
  runs : Nat
  deriving DecidableEq

/-- `applications[type]->transmissionStart(...)`. -/
def InetUser.start (u : InetUser) (type : AppType) (runs : Nat) :
    Except Stop (InetUser × Transmission) :=
  if u.applications type then
    .ok (u, { started := some (type, u.curTrafficProfile, u.curTargetInfo), runs := runs })
  else .error .nullPointer

def InetUser.transmissionDone (u : InetUser) (s : System) (draws : Nat → ServerDraws) :
    Except Stop (System × InetUser × Transmission) := do
  let (s, answer, left) ←
    u.attempts draws 99 s u.curTargetInfo u.curTrafficProfile u.currentProfileId
  let runs := 100 - left
  let u := { u with curTargetInfo := answer.ti, curTrafficProfile := answer.tp }
  if runs = 100 ∧ answer.ti.address.isUnspecified then
    .error (.error ("No valid server could be requested for randomly selected traffic profiles" ++
      " (tried 100 times)"))
  else
    match getAppType answer.tp.profileID with
    | none => .error (.error "invalid traffic profile configuration!")
    | some .udp => do
        let u := { u with noUDPProfile := u.noUDPProfile + 1 }
        if answer.ti.port > 0 then do
          let (u, started) ← u.start .udp runs
          .ok (s, u, started)
        else .ok (s, u, { started := none, runs := runs })
    | some .icmp => do
        let u := { u with noICMPProfile := u.noICMPProfile + 1 }
        let (u, started) ← u.start .icmp runs
        .ok (s, u, started)
    | some .tcp => do
        let u := { u with noTCPProfile := u.noTCPProfile + 1 }
        if answer.ti.port > 0 then do
          let (u, started) ← u.start .tcp runs
          .ok (s, u, started)
        else .ok (s, u, { started := none, runs := runs })

end WormsAttack.Traffic
