/-
  The LinkMonitor channel.

  Source: ReaSE/src/applications/linkmonitor/LinkMonitor.cc and LinkMonitor.h.

  A monitor measures the packets of its link over intervals of ten packets or a tenth of a
  second.

  NUMBERS.  The rates are values of a type with the operations the source uses on them, so that
  nothing depends on how they are rounded, nor on what is in them before the first interval.

  WHAT IS NOT MODELLED.  The output vectors, the display string and what is only shown there
  (volume, bandwidth, averages): the widths of these texts are part of the event.
-/
import Mathlib.Algebra.Group.Int.Defs
import WormsAttack.Foundation.Network

namespace WormsAttack.Monitor

/-- What the source does with rates. -/
structure Doubles (ρ : Type) where
  /-- a number of packets divided by a time -/
  perSec : Nat → Int → ρ
  /-- `rate >= n` -/
  atLeast : ρ → Nat → Bool
  /-- `rate > n` -/
  above : ρ → Nat → Bool

/-- The link of a monitor: its format, its path, and the index of the gate behind it. -/
structure Link where
  format : List Char
  fullPath : String
  gateIndex : Int

structure Rates (ρ : Type) where
  currentPkPerSec : ρ
  benignPkPerSec : ρ
  maliciousPkPerSec : ρ

structure LinkMonitor (ρ : Type) where
  numPackets : Nat
  intvlStartTime : Int
  intvlNumPackets : Nat
  benignNumPackets : Nat
  maliciousNumPackets : Nat
  rates : Rates ρ
  cnt : Int32
  /-- 0 or 1 in the source -/
  value : Bool
  triggered : Bool
  triggeredCount : Nat

/-- A call of `updateDisplay`: the rate, the number of packets, and the widths of the texts that are
not modelled. -/
structure Call (ρ : Type) where
  currentPkPerSec : ρ
  numPackets : Nat
  widths : Char → Nat

inductive Action (ρ : Type)
  | updateDisplay (call : Call ρ)
  | publish (name : String) (values : List String)

def batchSize : Nat := 10

def maxInterval : Int := 10 ^ 11

def threshold : Nat := 100

def intvlTime : Int32 := 100

namespace LinkMonitor

variable {ρ : Type}

/-- The constructor, which leaves the rates as they are in memory. -/
def new (rates : Rates ρ) : LinkMonitor ρ :=
  { numPackets := 0
    intvlStartTime := 0
    intvlNumPackets := 0
    benignNumPackets := 0
    maliciousNumPackets := 0
    rates := rates
    cnt := 0
    value := false
    triggered := false
    triggeredCount := 0 }

variable (d : Doubles ρ) (link : Link)

def beginNewInterval (m : LinkMonitor ρ) (now : Int) : LinkMonitor ρ :=
  let duration := now - m.intvlStartTime
  { m with
    rates :=
      { currentPkPerSec := d.perSec m.intvlNumPackets duration
        benignPkPerSec := d.perSec m.benignNumPackets duration
        maliciousPkPerSec := d.perSec m.maliciousNumPackets duration }
    intvlStartTime := now
    intvlNumPackets := 0
    benignNumPackets := 0
    maliciousNumPackets := 0 }

/-- The item `p`: the check for overload. -/
def checkLoad (m : LinkMonitor ρ) : LinkMonitor ρ × List (Action ρ) :=
  if d.atLeast m.rates.currentPkPerSec 3000 && !m.triggered then
    let m := { m with triggeredCount := m.triggeredCount + 1 }
    if m.triggeredCount = 100 then
      ({ m with triggered := true },
        [.publish "load" [link.fullPath, toString link.gateIndex]])
    else (m, [])
  else (m, [])

def checkThreshold (m : LinkMonitor ρ) : LinkMonitor ρ :=
  if d.above m.rates.currentPkPerSec threshold then
    { m with cnt := m.cnt + 1, value := m.value || m.cnt + 1 = intvlTime }
  else { m with cnt := 0, value := false }

def width (numPackets : Nat) (widths : Char → Nat) (c : Char) : Nat :=
  if c = 'N' then ("N: " ++ toString numPackets).length
  else if c = 'T' then 4
  else if c = 'V' || c = 'p' || c = 'b' || c = 'P' || c = 'B' then widths c
  else 1

/-- What an item of the format does, apart from its text. -/
def item (m : LinkMonitor ρ) (c : Char) : LinkMonitor ρ × List (Action ρ) :=
  if c = 'p' then m.checkLoad d link
  else if c = 'T' then (m.checkThreshold d, [])
  else (m, [])

/-- The loop of `updateDisplay`, with `written` characters in the buffer of 200.  It stops
when there may be no room for the next item. -/
def display (widths : Char → Nat) :
    List Char → Nat → LinkMonitor ρ → LinkMonitor ρ × List (Action ρ)
  | [], _, m => (m, [])
  | c :: format, written, m =>
      if 200 - written > 20 then
        let (m', out) := m.item d link c
        let (m'', rest) := display widths format (written + width m.numPackets widths c) m'
        (m'', out ++ rest)
      else (m, [])

def updateDisplay (m : LinkMonitor ρ) (widths : Char → Nat) : LinkMonitor ρ × List (Action ρ) :=
  let (m', out) := display d link widths link.format 0 m
  (m', .updateDisplay ⟨m.rates.currentPkPerSec, m.numPackets, widths⟩ :: out)

def isMalicious (name : String) : Bool :=
  name = "udp_flood" || name = "SYN-Flood" || name = "ping_flood"

/-- `processMessage` up to the update of the display. -/
def countPacket (m : LinkMonitor ρ) (t : Int) (name : String) : LinkMonitor ρ :=
  let m := { m with numPackets := m.numPackets + 1 }
  let m :=
    if m.intvlNumPackets ≥ batchSize || t - m.intvlStartTime ≥ maxInterval then
      m.beginNewInterval d t
    else m
  if isMalicious name then
    { m with
      intvlNumPackets := m.intvlNumPackets + 1
      maliciousNumPackets := m.maliciousNumPackets + 1 }
  else
    { m with
      intvlNumPackets := m.intvlNumPackets + 1
      benignNumPackets := m.benignNumPackets + 1 }

end LinkMonitor

inductive Event
  | packet (t : Int) (name : String) (widths : Char → Nat)
  | message

inductive Stop

/-- `processMessage` of one monitor, next to the file-scope variable. -/
def handle {ι ρ : Type} (d : Doubles ρ) (link : ι → Link) (a : ι) (triggered : Bool)
    (m : LinkMonitor ρ) : Event → Except Stop (Bool × LinkMonitor ρ × List (Action ρ))
  | .packet t name widths =>
      let (m, out) := (m.countPacket d t name).updateDisplay d (link a) widths
      .ok (triggered, m, out)
  | .message => .ok (triggered, m, [])

end WormsAttack.Monitor
