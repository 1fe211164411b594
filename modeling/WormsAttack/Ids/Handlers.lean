/-
  The IDSModule.

  Source: ReaSE/src/applications/ids/IDSModule.cc and IDSModule.h.

  The block that would order the rate limiter to act is disabled in the source
  (`if (false && ...)`), and the threshold variant is commented out; neither is modelled.
  `dropRatio` and the share are exact rationals.
-/
import Mathlib.Logic.Function.Basic
import WormsAttack.Foundation.Run
import WormsAttack.Inet.Packet
import WormsAttack.Omnet.Kernel

namespace WormsAttack.Ids

open Inet Omnet

/-! ## The kernel's `cPacket` -/

/-- `decapsulate` takes the packet out. The kernel throws if that would make the length negative. -/
def decapsulate (d : IPDatagram) : Except Stop (Option Payload × IPDatagram) :=
  match d.encapsulated with
  | none => .ok (none, d)
  | some p =>
      if p.byteLength ≤ d.byteLength then
        .ok (some p, { d with encapsulated := none, byteLength := d.byteLength - p.byteLength })
      else .error .badLength

/-- `encapsulate`; nothing happens for a null pointer. -/
def encapsulate (d : IPDatagram) : Option Payload → IPDatagram
  | none => d
  | some p => { d with encapsulated := some p, byteLength := d.byteLength + p.byteLength }

/-! ## Class Ratio -/

structure Ratio where
  ghostConn : Nat := 0
  realConn : Nat := 1
  blocked : Bool := false

def Ratio.incGhost (ratio : Ratio) : Ratio := { ratio with ghostConn := ratio.ghostConn + 1 }

def Ratio.incReal (ratio : Ratio) : Ratio := { ratio with realConn := ratio.realConn + 1 }

def Ratio.getRatio (ratio : Ratio) : Rat :=
  (ratio.ghostConn : Rat) / ((ratio.ghostConn + ratio.realConn : Nat) : Rat)

/-! ## The module -/

/-- The members of an `IDSModule`. A lookup in the map inserts a fresh `Ratio`, so the map is a
function. -/
structure IDSModule where
  dropRatio : Rat
  ratioTable : UInt32 → Ratio

inductive Action
  | publish (name : String) (values : List String)
  | sendDistack (m : Message)
  deriving DecidableEq

/-- `icmp && icmp->getType() == ICMP_DESTINATION_UNREACHABLE`. -/
def isUnreachable : Option Payload → Bool
  | some ⟨.icmp message, _⟩ => message.type == icmpDestinationUnreachable
  | _ => false

/-- `ratio_table[a].incReal()`. -/
def IDSModule.incReal (x : IDSModule) (a : IPAddress) : IDSModule :=
  { x with ratioTable := Function.update x.ratioTable a.addr (x.ratioTable a.addr).incReal }

/-- Count an unreachable datagram to `a`, and publish `a` if this is the first time its
share exceeds the limit. -/
def IDSModule.countGhost (x : IDSModule) (a : IPAddress) : IDSModule × List Action :=
  let ratio := (x.ratioTable a.addr).incGhost
  if ratio.blocked = false ∧ ratio.getRatio > x.dropRatio then
    ({ x with ratioTable := Function.update x.ratioTable a.addr { ratio with blocked := true } },
      [.publish "intrusion" [a.str]])
  else ({ x with ratioTable := Function.update x.ratioTable a.addr ratio }, [])

/-- The part of `handleMessage` for datagrams. The exception of `decapsulate` is caught, and nothing
is done. -/
def handleDatagram (x : IDSModule) (d : IPDatagram) : IDSModule × IPDatagram × List Action :=
  if d.transportProtocol ≠ ipProtIcmp then (x.incReal d.srcAddress, d, [])
  else
    match decapsulate d with
    | .error _ => (x, d, [])
    | .ok (encap, bare) =>
        let (x, out) :=
          if isUnreachable encap then x.countGhost d.destAddress
          else (x.incReal d.srcAddress, [])
        (x, encapsulate bare encap, out)

/-- `handleMessage`.  A packet that is not a datagram is cast without a check, which
is undefined. -/
def handleMessage (x : IDSModule) (m : Message) : Except Stop (IDSModule × List Action) :=
  match m.body with
  | .datagram d =>
      let (x, d, out) := handleDatagram x d
      .ok (x, out ++ [.sendDistack { m with body := .datagram d }])
  | .packet => .error .badCast
  | _ => .ok (x, [.sendDistack m])

def initial (dropRatio : Rat) : IDSModule :=
  { dropRatio := dropRatio, ratioTable := fun _ => {} }

end WormsAttack.Ids
