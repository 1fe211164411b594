/-
  The TGMNetworkConfigurator module.

  Source: ReaSE/src/networklayer/autorouting/TGMNetworkConfigurator.cc and
  TGMNetworkConfigurator.h.

  NODES.  A node of a topology is named by the id of its module, so the map `nodeMap` is a list
  in the order of the ids.  `rlTopology[i]` is kept in the entry `asNodeVec[i]`: the source
  pushes to both vectors at once.

  UNSIGNED ARITHMETIC.  Address computations wrap.  The operands of every addition are recorded
  (`additions`).
-/
import Mathlib.Logic.Function.Basic
import WormsAttack.Foundation.Run
import WormsAttack.Inet.RoutingTable

namespace WormsAttack.Configurator

open Foundation Inet Omnet

def netMask : IPAddress := ⟨0xffff0000⟩

structure Network where
  modules : List Module
  ift : Nat → List InterfaceEntry

inductive ASType
  | transit
  | stub
  | unspecified
  deriving DecidableEq

inductive RouterType
  | core
  | gw
  | edge
  | endsys
  deriving DecidableEq

/-- What the configurator writes, with the operands of the additions it has made. -/
structure State where
  address : Nat → Nat → IPAddress
  routerId : Nat → IPAddress
  rt : Nat → RoutingTable
  additions : List (UInt32 × UInt32)

def blank : State :=
  { address := fun _ _ => ⟨0⟩, routerId := fun _ => ⟨0⟩, rt := fun _ => [], additions := [] }

def State.adds (st : State) (a b : UInt32) : State :=
  { st with additions := st.additions ++ [(a, b)] }

/-! ## What is read from the names -/

/-- `fullPath.find(word) != npos`. -/
def contains (word : String) (path : List Char) : Bool := (after? word.toList path).isSome

/-- The digits behind the match, and `atoi`.  A number that is not an `int` is
undefined behaviour. -/
def readId (rest : List Char) : Except Fault Nat :=
  let id := (IPAddress.readNumber 0 rest).1
  if id < 2147483648 then .ok id else .error .undefined

/-- The search for `sas`, `tas` and `Inet`, which both constructors make.  `none`: the
member is not set. -/
def readAS (message : String) (path : List Char) : Except Fault (ASType × Option Nat) :=
  match after? "sas".toList path with
  | some rest => do
      let id ← readId rest
      .ok (.stub, some id)
  | none =>
      match after? "tas".toList path with
      | some rest => do
          let id ← readId rest
          .ok (.transit, some id)
      | none =>
          if contains "Inet" path then .ok (.unspecified, none) else .error (.error message)

def readRouterType (path : List Char) : Except Fault RouterType :=
  if contains "core" path then .ok .core
  else if contains "gw" path then .ok .gw
  else if contains "edge" path then .ok .edge
  else if contains "host" path then .ok .endsys
  else if contains "Server" path then .ok .endsys
  else .error (.error "found module without valid type")

/-! ## nodeInfoRL -/

/-- The members of `nodeInfoRL`; `defaultRouteIE` is a position in the interface table. -/
structure NodeInfoRL where
  moduleId : Nat
  asType : ASType
  asId : Option Nat
  routerType : RouterType
  defaultRouteIE : Option Nat
  addr : IPAddress
  deriving DecidableEq

/-- `module->gate(id)->getNextGate()->getOwnerModule()`. -/
def nextOwner (net : Network) (m : Module) (gate : Int) : Except Fault Module :=
  match m.gates.find? (·.id == gate) with
  | none => .error .noGate
  | some g =>
      match g.owners.head?.bind (net.modules[·]?) with
      | none => .error .nullPointer
      | some owner => .ok owner

/-- The loop of the constructor for a core router: the last address. -/
def lastAddress (address : Nat → Nat → IPAddress) (id : Nat) :
    Nat → List InterfaceEntry → IPAddress → IPAddress
  | _, [], addr => addr
  | k, ie :: rest, addr =>
      lastAddress address id (k + 1) rest (if ie.isLoopback then addr else address id k)

/-- The loop of the constructor for the other nodes, from interface `k` on. -/
def findDefault (net : Network) (address : Nat → Nat → IPAddress) (id : Nat) (m : Module)
    (word : String) : Nat → List InterfaceEntry → IPAddress → Except Fault (Option Nat × IPAddress)
  | _, [], addr => .ok (none, addr)
  | k, ie :: rest, addr =>
      if ie.isLoopback then findDefault net address id m word (k + 1) rest addr
      else do
        let owner ← nextOwner net m ie.nodeOutputGateId
        if contains word owner.fullPath then .ok (some k, address id k)
        else findDefault net address id m word (k + 1) rest (address id k)

def readInterfaces (net : Network) (address : Nat → Nat → IPAddress) (id : Nat) (m : Module) :
    RouterType → Except Fault (Option Nat × IPAddress)
  | .core => .ok (none, lastAddress address id 0 (net.ift id) ⟨0⟩)
  | .gw => findDefault net address id m "core" 0 (net.ift id) ⟨0⟩
  | .edge => findDefault net address id m "gw" 0 (net.ift id) ⟨0⟩
  | .endsys => findDefault net address id m "edge" 0 (net.ift id) ⟨0⟩

def nodeInfoRL (net : Network) (address : Nat → Nat → IPAddress) (id : Nat) :
    Except Fault NodeInfoRL :=
  match net.modules[id]? with
  | none => .error .nullPointer
  | some m => do
      let (asType, asId) ← readAS
        "found module that doesn't belong to Transit AS (tas) or Stub AS (sas)" m.fullPath
      let routerType ← readRouterType m.fullPath
      let (defaultRouteIE, addr) ← readInterfaces net address id m routerType
      .ok { moduleId := id, asType := asType, asId := asId, routerType := routerType
            defaultRouteIE := defaultRouteIE, addr := addr }

theorem nodeInfoRL_eq_ok {net : Network} {address : Nat → Nat → IPAddress} {id : Nat}
    {node : NodeInfoRL} :
    nodeInfoRL net address id = .ok node ↔ ∃ m, net.modules[id]? = some m ∧
      readAS "found module that doesn't belong to Transit AS (tas) or Stub AS (sas)" m.fullPath =
        .ok (node.asType, node.asId) ∧
      readRouterType m.fullPath = .ok node.routerType ∧
      readInterfaces net address id m node.routerType = .ok (node.defaultRouteIE, node.addr) ∧
      node.moduleId = id := by
  constructor
  · intro h
    unfold nodeInfoRL at h
    split at h
    · cases h
    rename_i m hm
    simp only [bind_eq_ok, Prod.exists] at h
    obtain ⟨asType, asId, hread, routerType, htype, ie, addr, hinterfaces, h⟩ := h
    cases h
    exact ⟨m, hm, hread, htype, hinterfaces, rfl⟩
  · rintro ⟨m, hm, hread, htype, hinterfaces, rfl⟩
    simp only [nodeInfoRL, hm, hread, htype, hinterfaces, bind, Except.bind]

/-! ## Topologies -/

/-- The members of `nodeInfoAS`, with the router-level topology of the AS. -/
structure NodeInfoAS where
  id : Option Nat
  asType : ASType
  addr : IPAddress
  rlTopology : Topology
  nodeMap : List NodeInfoRL
  coreNode : List NodeInfoRL
  deriving DecidableEq

def getRouterLevelNodes (name : String) (m : Module) : Bool :=
  (after? (name.toList ++ ['.']) m.fullPath).isSome && m.hasProperty "RL"

def getCoreNodes (m : Module) : Bool := m.hasProperty "CoreRouter"

def routerLevel (net : Network) (m : Module) : Topology :=
  extractFromNetwork net.modules (getRouterLevelNodes m.name)

def extractAS (net : Network) (noAS : Int) : Except Fault (List Nat) :=
  if 0 < noAS then
    let nodes := (extractByProperty net.modules "AS").nodes
    if (nodes.length : Int) ≠ noAS then
      .error (.error ("Error: AS-Topology contains " ++ toString nodes.length ++
        " elements - expected " ++ toString noAS))
    else .ok nodes
  else if noAS = 0 then
    let nodes := (extractByProperty net.modules "Internet").nodes
    if nodes.length ≠ 1 then
      .error (.error ("Error: tried to extract router-level only topology, " ++
        "but found more than 1 Inet module"))
    else .ok nodes
  else .ok []

def extractLoop (net : Network) : List Nat → UInt32 → State →
    Except Fault (State × List NodeInfoAS)
  | [], _, st => .ok (st, [])
  | id :: rest, netIP, st =>
      match net.modules[id]? with
      | none => .error .nullPointer
      | some m => do
          let (asType, asId) ← readAS "found module that doesn't belong to TAS or SAS" m.fullPath
          let (st, ases) ← extractLoop net rest (netIP + 65536) (st.adds netIP 65536)
          .ok (st,
            { id := asId, asType := asType, addr := ⟨netIP⟩
              rlTopology := routerLevel net m
              nodeMap := [], coreNode := [] } :: ases)

/-- `extractTopology`, without `asTopology`. -/
def extractTopology (net : Network) (noAS : Int) : Except Fault (State × List NodeInfoAS) := do
  let nodes ← extractAS net noAS
  extractLoop net nodes 65536 blank

def asTopology (net : Network) : Topology := extractFromNetwork net.modules getCoreNodes

/-! ## Addresses and default routes -/

def State.setAddress (net : Network) (st : State) (id : Nat) (ip : IPAddress) : State :=
  { st with
    address := Function.update st.address id fun k =>
      if (net.ift id)[k]?.any (!·.isLoopback) then ip else st.address id k
    routerId :=
      if (st.routerId id).isUnspecified then Function.update st.routerId id ip else st.routerId }

def State.setTable (st : State) (id : Nat) (t : RoutingTable) : State :=
  { st with rt := Function.update st.rt id t }

structure Assignment where
  st : State
  currentIP : UInt32
  nodeMap : List NodeInfoRL
  coreNode : List NodeInfoRL

def placeNode (st : State) (coreNode : List NodeInfoRL) (node : NodeInfoRL) :
    Except Fault (State × List NodeInfoRL) :=
  if node.routerType = .core then .ok (st, coreNode ++ [node])
  else do
    let t ← (st.rt node.moduleId).addRoute ⟨0⟩ ⟨0⟩ node.defaultRouteIE
    .ok (st.setTable node.moduleId t, coreNode)

def assignNode (net : Network) (x : Assignment) (node : NodeInfoRL) : Except Fault Assignment := do
  let node := { node with addr := ⟨x.currentIP⟩ }
  let (st, coreNode) ←
    placeNode (x.st.setAddress net node.moduleId ⟨x.currentIP⟩) x.coreNode node
  .ok { st := st.adds x.currentIP 1, currentIP := x.currentIP + 1
        nodeMap := x.nodeMap ++ [node], coreNode := coreNode }

def assignAddressAndSetDefaultRoutes (net : Network) (st : State) (as : NodeInfoAS) :
    Except Fault (State × NodeInfoAS) := do
  let x ← as.nodeMap.foldlM (assignNode net)
    { st := st.adds as.addr.addr 1, currentIP := as.addr.addr + 1, nodeMap := [], coreNode := [] }
  .ok (x.st, { as with nodeMap := x.nodeMap, coreNode := x.coreNode })

def configureAS (net : Network) (st : State) (as : NodeInfoAS) :
    Except Fault (State × NodeInfoAS) := do
  if as.rlTopology.nodes.length > (0xffffffff - netMask.addr).toNat then
    .error (.error "to many nodes in current topology")
  else
    let nodeMap ← as.rlTopology.nodes.mapM (nodeInfoRL net st.address)
    assignAddressAndSetDefaultRoutes net st { as with nodeMap := nodeMap }

def configureLoop (net : Network) : State → List NodeInfoAS →
    Except Fault (State × List NodeInfoAS)
  | st, [] => .ok (st, [])
  | st, as :: rest => do
      let (st, as) ← configureAS net st as
      let (st, ases) ← configureLoop net st rest
      .ok (st, as :: ases)

/-! ## Routes inside an AS -/

/-- `asInfo.nodeMap[id]`. -/
def NodeInfoAS.nodeOf (as : NodeInfoAS) (id : Nat) : Except Fault NodeInfoRL :=
  match as.nodeMap.find? (·.moduleId == id) with
  | none => .error .undefined
  | some node => .ok node

/-- The inner loop of `setIntraASRoutes`, for one source. -/
def setIntraRoute (net : Network) (as : NodeInfoAS) (paths : Nat → Option Link)
    (dest : NodeInfoRL) (st : State) (j : Nat) : Except Fault State :=
  if j = dest.moduleId then .ok st
  else do
    let src ← as.nodeOf j
    match paths j with
    | none => .ok st
    | some l =>
        if src.routerType = .endsys then .ok st
        else
          let ie := getInterfaceByNodeOutputGateId (net.ift j) l.gate
          if ie = src.defaultRouteIE then .ok st
          else do
            let t ← (st.rt j).addRoute dest.addr .allOnes ie
            .ok (st.setTable j t)

/-- The outer loop of `setIntraASRoutes`, for one destination. -/
def setIntraRoutesTo (f : PathFinder) (net : Network) (as : NodeInfoAS) (st : State) (i : Nat) :
    Except Fault State := do
  let dest ← as.nodeOf i
  as.rlTopology.nodes.foldlM (setIntraRoute net as (f.firstLink as.rlTopology i) dest) st

def setIntraASRoutes (f : PathFinder) (net : Network) (st : State) (as : NodeInfoAS) :
    Except Fault State :=
  as.rlTopology.nodes.foldlM (setIntraRoutesTo f net as) st

/-! ## Routes between ASes -/

def setInLinks (T : Topology) (nodes : List Nat) (enabled : Bool) : Topology :=
  { T with
    links := T.links.map fun l => if l.dst ∈ nodes then { l with enabled := enabled } else l }

def NodeInfoAS.setCoreLinks (as : NodeInfoAS) (enabled : Bool) : NodeInfoAS :=
  { as with
    rlTopology := setInLinks as.rlTopology (as.coreNode.map NodeInfoRL.moduleId) enabled }

def disableStubLinks (ases : List NodeInfoAS) (dst src : Nat) : Except Fault (List NodeInfoAS) :=
  if ases.any (·.id.isNone) then .error .undefined
  else .ok (ases.map fun as =>
    if as.id = some dst ∨ as.id = some src ∨ as.asType = .transit then as
    else as.setCoreLinks false)

def enableStubLinks (ases : List NodeInfoAS) : List NodeInfoAS :=
  ases.map fun as => if as.asType = .transit then as else as.setCoreLinks true

/-- The `/16` prefix: the address shifted right and left again. -/
def prefixOf (a : IPAddress) : IPAddress := ⟨(a.addr >>> 16) <<< 16⟩

structure InterRoute where
  src : Nat
  dst : Nat
  interface : Nat
  deriving DecidableEq

/-- The variables of `createInterASPaths`, with the paths that `asTopology` holds and the
routes that have been installed. -/
structure Inter where
  st : State
  ases : List NodeInfoAS
  paths : Nat → Option Link
  asIdHistory : Int
  installed : List InterRoute

/-- The paths are computed again, unless the source is of the same AS as the last one. -/
def Inter.refresh (f : PathFinder) (net : Network) (dest : NodeInfoRL) (dst own : Nat) (x : Inter) :
    Except Fault Inter :=
  if x.asIdHistory ≠ own then do
    let ases ← disableStubLinks x.ases dst own
    .ok { x with ases := ases, paths := f.firstLink (asTopology net) dest.moduleId }
  else .ok x

/-- The inner loop of `createInterASPaths`, for one source. -/
def interRoute (f : PathFinder) (net : Network) (dest : NodeInfoRL) (x : Inter) (j : Nat) :
    Except Fault Inter :=
  if j = dest.moduleId then .ok x
  else do
    let src ← nodeInfoRL net x.st.address j
    match dest.asId, src.asId with
    | some dst, some own =>
        if dst = own then .ok x
        else do
          let y ← x.refresh f net dest dst own
          match y.paths j with
          | none => .error .nullPointer
          | some l =>
              let ie := getInterfaceByNodeOutputGateId (net.ift j) l.gate
              let t ← (y.st.rt j).addRoute (prefixOf dest.addr) netMask ie
              .ok { y with
                st := y.st.setTable j t
                ases := if x.asIdHistory ≠ own then enableStubLinks y.ases else y.ases
                asIdHistory := own
                installed := y.installed ++ ie.toList.map (⟨j, dest.moduleId, ·⟩) }
    | _, _ => .error .undefined

/-- The outer loop of `createInterASPaths`, for one destination. -/
def interRoutesTo (f : PathFinder) (net : Network) (x : Inter) (i : Nat) : Except Fault Inter := do
  let dest ← nodeInfoRL net x.st.address i
  (asTopology net).nodes.foldlM (interRoute f net dest) { x with asIdHistory := -1 }

def createInterASPaths (f : PathFinder) (net : Network) (st : State) (ases : List NodeInfoAS) :
    Except Fault Inter :=
  (asTopology net).nodes.foldlM (interRoutesTo f net)
    { st := st, ases := ases, paths := fun _ => none, asIdHistory := 0, installed := [] }

/-! ## The initialization -/

structure Configured where
  st : State
  ases : List NodeInfoAS
  installed : List InterRoute

/-- The initialization in stage 2; in the other stages nothing is done. -/
def initializeNetwork (f : PathFinder) (net : Network) (noAS : Int) : Except Fault Configured := do
  if noAS ≥ 65535 then
    .error (.error "too many AS nodes in AS-level topology, max 2^16 -1")
  else
    let (st, ases) ← extractTopology net noAS
    let (st, ases) ← configureLoop net st ases
    let st ← ases.foldlM (setIntraASRoutes f net) st
    if noAS > 0 then do
      let x ← createInterASPaths f net st ases
      .ok { st := x.st, ases := x.ases, installed := x.installed }
    else .ok { st := st, ases := ases, installed := [] }

/-! ## Small networks -/

def threeASes : Network where
  modules :=
    [ { name := "sas1", enclosing := ["net"], properties := [("AS", "")], gates := [] },
      { name := "core0", enclosing := ["net", "sas1"]
        properties := [("RL", ""), ("CoreRouter", "")], gates := [⟨0, [2]⟩, ⟨1, [0, 5, 6]⟩] },
      { name := "gw0", enclosing := ["net", "sas1"], properties := [("RL", "")]
        gates := [⟨0, [1]⟩, ⟨1, [3]⟩] },
      { name := "edge0", enclosing := ["net", "sas1"], properties := [("RL", "")]
        gates := [⟨0, [2]⟩, ⟨1, [4]⟩] },
      { name := "host0", enclosing := ["net", "sas1"], properties := [("RL", "")]
        gates := [⟨0, [3]⟩] },
      { name := "tas2", enclosing := ["net"], properties := [("AS", "")], gates := [] },
      { name := "core0", enclosing := ["net", "tas2"]
        properties := [("RL", ""), ("CoreRouter", "")]
        gates := [⟨0, [5, 0, 1]⟩, ⟨1, [5, 7, 8]⟩] },
      { name := "sas3", enclosing := ["net"], properties := [("AS", "")], gates := [] },
      { name := "core0", enclosing := ["net", "sas3"]
        properties := [("RL", ""), ("CoreRouter", "")], gates := [⟨0, [7, 5, 6]⟩] } ]
  ift id := { nodeOutputGateId := -1, isLoopback := true } ::
    match id with
    | 4 | 8 => [⟨0, false⟩]
    | _ => [⟨0, false⟩, ⟨1, false⟩]

/-- Transit ASes `tas1` and `tas3` are connected by the stub AS `sas2`, and on a longer way by
the transit ASes `tas4` and `tas5`. -/
def shortcut : Network where
  modules :=
    [ { name := "tas1", enclosing := ["net"], properties := [("AS", "")], gates := [] },
      { name := "core0", enclosing := ["net", "tas1"]
        properties := [("RL", ""), ("CoreRouter", "")]
        gates := [⟨0, [0, 2, 3]⟩, ⟨1, [0, 6, 7]⟩] },
      { name := "sas2", enclosing := ["net"], properties := [("AS", "")], gates := [] },
      { name := "core0", enclosing := ["net", "sas2"]
        properties := [("RL", ""), ("CoreRouter", "")]
        gates := [⟨0, [2, 0, 1]⟩, ⟨1, [2, 4, 5]⟩] },
      { name := "tas3", enclosing := ["net"], properties := [("AS", "")], gates := [] },
      { name := "core0", enclosing := ["net", "tas3"]
        properties := [("RL", ""), ("CoreRouter", "")]
        gates := [⟨0, [4, 2, 3]⟩, ⟨1, [4, 8, 9]⟩] },
      { name := "tas4", enclosing := ["net"], properties := [("AS", "")], gates := [] },
      { name := "core0", enclosing := ["net", "tas4"]
        properties := [("RL", ""), ("CoreRouter", "")]
        gates := [⟨0, [6, 0, 1]⟩, ⟨1, [6, 8, 9]⟩] },
      { name := "tas5", enclosing := ["net"], properties := [("AS", "")], gates := [] },
      { name := "core0", enclosing := ["net", "tas5"]
        properties := [("RL", ""), ("CoreRouter", "")]
        gates := [⟨0, [8, 6, 7]⟩, ⟨1, [8, 4, 5]⟩] } ]
  ift _ := [{ nodeOutputGateId := -1, isLoopback := true }, ⟨0, false⟩, ⟨1, false⟩]

def islands : Network where
  modules :=
    [ { name := "tas1", enclosing := ["net"], properties := [("AS", "")], gates := [] },
      { name := "core0", enclosing := ["net", "tas1"]
        properties := [("RL", ""), ("CoreRouter", "")], gates := [] },
      { name := "tas2", enclosing := ["net"], properties := [("AS", "")], gates := [] },
      { name := "core0", enclosing := ["net", "tas2"]
        properties := [("RL", ""), ("CoreRouter", "")], gates := [] } ]
  ift _ := [{ nodeOutputGateId := -1, isLoopback := true }, ⟨0, false⟩]

end WormsAttack.Configurator
