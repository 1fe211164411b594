/-
  The RateLimiter module.

  Source: ReaSE/src/applications/limiter/RateLimiter.cc and RateLimiter.h.

  WHAT IS SHARED.  The lists of rules and of marks are file-scope variables (`Rules`).

  RANDOM DRAWS.  An arrival carries the values `rand()` returns while it is handled: `draws k`
  is the value of the k-th call.

  VECTOR ACCESSES.  An access beyond the length is undefined behaviour, and the model stops.
-/
import Mathlib.Data.Finset.Basic
import WormsAttack.Foundation.EraseLoop
import WormsAttack.Inet.Packet
import WormsAttack.Omnet.Kernel

namespace WormsAttack.Limiter

open Foundation Inet Omnet

@[ext]
structure Rules where
  /-- `to_block`: the ids of the marked packets. -/
  toBlock : List Nat
  ipBlock : List IPAddress
  ipBlockRate : List Int
  linkBlock : List Bool
  linkBlockRate : List Int
  flowBlock : List UInt32
  flowBlockRate : List Int
  deriving DecidableEq

structure RateLimiter where
  blocked : Nat
  allowed : Nat
  seen : Nat
  unseen : Nat
  blockedIPs : Finset Int32
  deriving DecidableEq

structure State where
  rules : Rules
  limiter : RateLimiter
  deriving DecidableEq

inductive InGate
  | fromIDS
  | ifInPpp (index : Nat)
  | ifInNetwork (index : Nat)

inductive OutGate
  | ifOutNetwork (index : Nat)
  | ifOutPpp (index : Nat)
  deriving DecidableEq

inductive RuleKind
  | link
  | ip
  | flow
  deriving DecidableEq

structure Check where
  kind : RuleKind
  position : Nat
  rate : Int
  probability : Nat
  deriving DecidableEq

/-- `probability <= rate`. -/
def Check.blocks (c : Check) : Bool := (c.probability : Int) ≤ c.rate

inductive Action
  | check (c : Check)
  | send (gate : OutGate)
  | delete
  /-- ask a deleted message for its arrival gate -/
  | touchDeleted
  | writeRow (seen unseen : Nat)
  deriving DecidableEq

/-! ## Hashing -/

def generateKey (source destination : String) (protocol : Int) : String :=
  source ++ destination ++ toString protocol

/-- One round of `DJBHash`.  `str[i]` is a `char`, which is signed. -/
def djbRound (hash : UInt32) (byte : UInt8) : UInt32 :=
  ((hash <<< 5) + hash) + byte.toInt8.toInt32.toUInt32

def djbHash (str : String) : UInt32 :=
  str.toByteArray.data.toList.foldl djbRound 5381 &&& 0x7FFFFFFF

/-! ## Judging a packet -/

/-- The variables of `handleMessage` while a packet is judged, with the comparisons made so far. -/
structure Verdict where
  toSend : Bool
  blocked : Nat
  allowed : Nat
  checks : List Check

def Verdict.start (x : RateLimiter) : Verdict :=
  { toSend := true, blocked := x.blocked, allowed := x.allowed, checks := [] }

def Verdict.add (v : Verdict) (c : Check) : Verdict :=
  if c.blocks then
    { v with toSend := false, blocked := v.blocked + 1, checks := v.checks ++ [c] }
  else { v with allowed := v.allowed + 1, checks := v.checks ++ [c] }

def judge (kind : RuleKind) (rates : List Int) (draws : Nat → Nat) (i : Nat) (v : Verdict) :
    Except Stop Verdict :=
  match rates[i]? with
  | none => .error .outOfRange
  | some rate =>
      .ok (v.add { kind := kind, position := i, rate := rate
                   probability := draws v.checks.length % 100 })

/-- The loops over `ip_block` and `flow_block` from position `i` on. -/
def ruleLoop {α : Type} (kind : RuleKind) (hit : α → Bool) (rates : List Int)
    (draws : Nat → Nat) : Nat → List α → Verdict → Except Stop Verdict
  | _, [], v => .ok v
  | i, rule :: rest, v =>
      if hit rule then do
        let v ← judge kind rates draws i v
        ruleLoop kind hit rates draws (i + 1) rest v
      else ruleLoop kind hit rates draws (i + 1) rest v

/-- The loop over `to_block`, which erases the marks. The rate is the one at the position of the
mark. -/
def linkLoop (rules : Rules) (id : Nat) (draws : Nat → Nat) (v : Verdict) :
    Except Stop (List Nat × Verdict) :=
  eraseWhere (· == id) (judge .link rules.linkBlockRate draws) rules.toBlock v

def RateLimiter.counted (x : RateLimiter) (v : Verdict) : RateLimiter :=
  { x with blocked := v.blocked, allowed := v.allowed }

/-- The packets to one address are counted for the results file. -/
def RateLimiter.noted (x : RateLimiter) (d : IPDatagram) (toSend : Bool) : RateLimiter :=
  if d.destAddress.str = "0.2.0.27" then
    if toSend then { x with seen := x.seen + 1 } else { x with unseen := x.unseen + 1 }
  else x

def report (x : RateLimiter) : RateLimiter × List Action :=
  if x.seen + x.unseen = 10 then
    ({ x with seen := 0, unseen := 0 }, [.writeRow x.seen x.unseen])
  else (x, [])

/-! ## The handlers -/

/-- A block order from the detector. It is asked for its arrival gate after it has been deleted;
the answer is still `fromIDS`. -/
def handleIDS (s : State) (m : Message) : Except Stop (State × List Action) :=
  match m.body with
  | .ipBlock address block =>
      let blockedIPs :=
        if block then insert address s.limiter.blockedIPs
        else s.limiter.blockedIPs.erase address
      .ok ({ s with limiter := { s.limiter with blockedIPs := blockedIPs } },
        [.delete, .touchDeleted])
  | _ => .error .badCast

/-- `handleMessage` for a packet from an interface, which is marked if the link has a rule. -/
def handlePpp (s : State) (index : Nat) (m : Message) : Except Stop (State × List Action) :=
  match s.rules.linkBlock[index]? with
  | none => .error .outOfRange
  | some marked =>
      let toBlock := if marked then s.rules.toBlock ++ [m.id] else s.rules.toBlock
      .ok ({ s with rules := { s.rules with toBlock := toBlock } },
        [.send (.ifOutNetwork index)])

def applyRules (rules : Rules) (d : IPDatagram) (draws : Nat → Nat) (v : Verdict) :
    Except Stop Verdict := do
  let v ← ruleLoop .ip (· == d.destAddress) rules.ipBlockRate draws 0 rules.ipBlock v
  let key := djbHash (generateKey d.srcAddress.str d.destAddress.str d.transportProtocol)
  ruleLoop .flow (· == key) rules.flowBlockRate draws 0 rules.flowBlock v

/-- `handleMessage` for a packet from the network layer. -/
def handleNetwork (s : State) (index : Nat) (m : Message) (draws : Nat → Nat) :
    Except Stop (State × List Action) := do
  let (toBlock, v) ← linkLoop s.rules m.id draws (.start s.limiter)
  let rules := { s.rules with toBlock := toBlock }
  match m.body with
  | .datagram d =>
      if d.srcAddress.addr.toInt32 ∈ s.limiter.blockedIPs then
        .ok (⟨rules, s.limiter.counted v⟩, v.checks.map .check ++ [.delete])
      else do
        let v ← applyRules rules d draws v
        let (x, row) := report ((s.limiter.counted v).noted d v.toSend)
        let disposal : Action := if v.toSend then .send (.ifOutPpp index) else .delete
        .ok (⟨rules, x⟩, v.checks.map .check ++ [disposal] ++ row)
  | _ => .error .badCast

def handleMessage (s : State) (gate : InGate) (m : Message) (draws : Nat → Nat) :
    Except Stop (State × List Action) :=
  match gate with
  | .fromIDS => handleIDS s m
  | .ifInPpp index => handlePpp s index m
  | .ifInNetwork index => handleNetwork s index m draws

/-! ## The operations -/

def resize {α : Type} (n : Nat) (fill : α) (v : List α) : List α :=
  v.take n ++ List.replicate (n - v.length) fill

/-- `initialize` of a limiter with `gates` network gates: the lists are resized, not
cleared. -/
def initializeLimiter (s : State) (gates : Nat) : State :=
  { rules :=
      { s.rules with
        linkBlock := resize gates false s.rules.linkBlock
        linkBlockRate := resize gates 0 s.rules.linkBlockRate }
    limiter := { s.limiter with blocked := 0, allowed := 0, seen := 0, unseen := 0 } }

def addLinkBlock (rules : Rules) (index rate : Int) : Except Stop Rules :=
  if 0 ≤ index ∧ index.toNat < rules.linkBlock.length ∧
      index.toNat < rules.linkBlockRate.length then
    .ok { rules with
      linkBlock := rules.linkBlock.set index.toNat true
      linkBlockRate := rules.linkBlockRate.set index.toNat rate }
  else .error .outOfRange

/-- `addIPBlock`.  All link rules go; an address that is listed keeps its rate. -/
def addIPBlock (rules : Rules) (ip : String) (rate : Int) : Except Stop Rules :=
  match IPAddress.parse ip with
  | none => .error .badAddress
  | some address =>
      let rules := { rules with linkBlock := [], linkBlockRate := [] }
      if address ∈ rules.ipBlock then .ok rules
      else .ok { rules with
        ipBlock := rules.ipBlock ++ [address], ipBlockRate := rules.ipBlockRate ++ [rate] }

/-- `addFlowBlock`.  The loop over `ip_block` erases where `compare` is not zero,
that is, where the address is NOT the destination of the flow. -/
def addFlowBlock (rules : Rules) (source destination : String) (protocol rate : Int) :
    Except Stop Rules := do
  let (ipBlock, ipBlockRate) ←
    eraseWhere (fun address : IPAddress => destination != address.str) (eraseAt Stop.outOfRange)
      rules.ipBlock rules.ipBlockRate
  let rules := { rules with ipBlock := ipBlock, ipBlockRate := ipBlockRate }
  let hashed := djbHash (generateKey source destination protocol)
  if hashed ∈ rules.flowBlock then .ok rules
  else .ok { rules with
    flowBlock := rules.flowBlock ++ [hashed], flowBlockRate := rules.flowBlockRate ++ [rate] }

/-- `finish`: the scalars that are recorded. -/
def finish (x : RateLimiter) : List (String × Nat) :=
  [("Packets blocked", x.blocked), ("Packets allowed", x.allowed)]

/-! ## Steps -/

inductive Event
  | initialization (gates : Nat)
  | addLinkBlock (index rate : Int)
  | addIPBlock (ip : String) (rate : Int)
  | addFlowBlock (source destination : String) (protocol rate : Int)
  /-- a message arrives, and `rand()` returns these values -/
  | arrival (gate : InGate) (m : Message) (draws : Nat → Nat)

def step (s : State) : Event → Except Stop (State × List Action)
  | .initialization gates => .ok (initializeLimiter s gates, [])
  | .addLinkBlock index rate => do
      let rules ← addLinkBlock s.rules index rate
      .ok ({ s with rules := rules }, [])
  | .addIPBlock ip rate => do
      let rules ← addIPBlock s.rules ip rate
      .ok ({ s with rules := rules }, [])
  | .addFlowBlock source destination protocol rate => do
      let rules ← addFlowBlock s.rules source destination protocol rate
      .ok ({ s with rules := rules }, [])
  | .arrival gate m draws => handleMessage s gate m draws

def blank : State :=
  { rules :=
      { toBlock := [], ipBlock := [], ipBlockRate := [], linkBlock := [], linkBlockRate := []
        flowBlock := [], flowBlockRate := [] }
    limiter := { blocked := 0, allowed := 0, seen := 0, unseen := 0, blockedIPs := ∅ } }

def initial (gates : Nat) : State := initializeLimiter blank gates

end WormsAttack.Limiter
