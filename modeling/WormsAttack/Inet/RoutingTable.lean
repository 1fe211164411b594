/-
  Interface tables and IPv4 routing tables.

  Sources: inet/src/networklayer/ipv4/RoutingTable.cc and
  inet/src/networklayer/common/InterfaceTable.cc.

  An interface is named by its position in the interface table.  The vectors of unicast and of
  multicast routes are the two parts of one list, in the order of installation.
-/
import WormsAttack.Inet.IPAddress
import WormsAttack.Omnet.Topology

namespace WormsAttack.Inet

open Omnet

/-! ## Interfaces -/

structure InterfaceEntry where
  nodeOutputGateId : Int
  isLoopback : Bool := false

/-- `getInterfaceByNodeOutputGateId`; `none` is the null pointer. -/
def getInterfaceByNodeOutputGateId (ift : List InterfaceEntry) (id : Int) : Option Nat :=
  ift.findIdx? (·.nodeOutputGateId == id)

theorem gate_of_getInterface {ift : List InterfaceEntry} {id : Int} {k : Nat}
    (h : getInterfaceByNodeOutputGateId ift id = some k) :
    ∃ ie, ift[k]? = some ie ∧ ie.nodeOutputGateId = id := by
  obtain ⟨hlt, hid, -⟩ := List.findIdx?_eq_some_iff_getElem.mp h
  exact ⟨ift[k], List.getElem?_eq_getElem hlt, beq_iff_eq.mp hid⟩

/-! ## Routes -/

/-- A route: the interface is a position in the interface table. -/
structure IPRoute where
  host : IPAddress
  netmask : IPAddress
  interface : Nat

abbrev RoutingTable : Type := List IPRoute

namespace RoutingTable

def routes (t : RoutingTable) : List IPRoute := t.filter fun e => !e.host.isMulticast

def getDefaultRoute (t : RoutingTable) : Option IPRoute :=
  t.routes.find? (·.netmask.isUnspecified)

/-- `deleteRoute(getDefaultRoute())`. -/
def deleteDefaultRoute (t : RoutingTable) : RoutingTable :=
  t.eraseP fun e => !e.host.isMulticast && e.netmask.isUnspecified

/-- `addRoute`.  The second check takes the bitwise `and` of the host with the truth value
of `netmask.isUnspecified()`. -/
def addRoute (t : RoutingTable) (host netmask : IPAddress) (ie : Option Nat) :
    Except Fault RoutingTable :=
  if host.isUnspecified != netmask.isUnspecified then
    .error (.error "addRoute(): to add a default route, set both host and netmask to zero")
  else if host.addr &&& (if netmask.isUnspecified then 1 else 0) != 0 then
    .error (.error "addRoute(): suspicious route: host has 1-bits outside netmask")
  else
    match ie with
    | none => .error (.error "addRoute(): interface cannot be NULL")
    | some k =>
        let t := if netmask.isUnspecified then t.deleteDefaultRoute else t
        .ok (t ++ [⟨host, netmask, k⟩])

def specificRoute (t : RoutingTable) (dest : IPAddress) : Option IPRoute :=
  t.find? fun e => e.host = dest ∧ e.netmask = .allOnes

def prefixRoute (t : RoutingTable) (host netmask : IPAddress) : Option IPRoute :=
  t.find? fun e => e.host = host ∧ e.netmask = netmask

/-! ## Looking up routes -/

variable {t : RoutingTable} {host : IPAddress} {ie : Option Nat} {netmask : IPAddress}
  {t' : RoutingTable}

theorem specificRoute_eq {dest : IPAddress} {route : Option IPRoute}
    (h : ∀ e, (e ∈ t ∧ e.host = dest ∧ e.netmask = .allOnes) ↔ route = some e) :
    t.specificRoute dest = route := by
  cases hfind : t.specificRoute dest with
  | some e =>
    have he := List.find?_some hfind
    simp only [decide_eq_true_eq] at he
    exact ((h e).mp ⟨List.mem_of_find?_eq_some hfind, he⟩).symm
  | none =>
    cases hroute : route with
    | none => rfl
    | some e =>
      obtain ⟨hmem, hhost⟩ := (h e).mpr hroute
      have hnot := List.find?_eq_none.mp hfind e hmem
      exact absurd (decide_eq_true hhost) hnot

theorem getDefaultRoute_cons {k : Nat} :
    getDefaultRoute (⟨⟨0⟩, ⟨0⟩, k⟩ :: t) = some ⟨⟨0⟩, ⟨0⟩, k⟩ := by
  have hunicast : (!IPAddress.isMulticast ⟨0⟩) = true := by decide
  have hmask : IPAddress.isUnspecified ⟨0⟩ = true := by decide
  unfold getDefaultRoute routes
  rw [List.filter_cons, if_pos hunicast, List.find?_cons, hmask]

/-! ## Adding routes -/

theorem addRoute_eq_ok (hmask : netmask.isUnspecified = false)
    (h : t.addRoute host netmask ie = .ok t') :
    ∃ k, ie = some k ∧ t' = t ++ [⟨host, netmask, k⟩] := by
  simp only [addRoute, hmask, Bool.false_eq_true, if_false] at h
  split at h
  · cases h
  split at h
  · cases h
  cases ie with
  | none => cases h
  | some k =>
    cases h
    exact ⟨k, rfl, rfl⟩

theorem isSome_of_addRoute (h : t.addRoute host netmask ie = .ok t') : ie.isSome = true := by
  cases ie with
  | some k => rfl
  | none =>
    simp only [addRoute] at h
    split_ifs at h

theorem host_of_addRoute (hmask : netmask.isUnspecified = false)
    (h : t.addRoute host netmask ie = .ok t') : host.isUnspecified = false := by
  cases hhost : host.isUnspecified with
  | false => rfl
  | true =>
    simp only [addRoute, hhost, hmask] at h
    cases h

theorem addRoute_default {k : Nat} (ht : t = [] ∨ t = [⟨⟨0⟩, ⟨0⟩, k⟩])
    (h : t.addRoute ⟨0⟩ ⟨0⟩ (some k) = .ok t') : t' = [⟨⟨0⟩, ⟨0⟩, k⟩] := by
  have hzero : (!IPAddress.isMulticast ⟨0⟩ && IPAddress.isUnspecified ⟨0⟩) = true := by decide
  have hdelete : deleteDefaultRoute [⟨⟨0⟩, ⟨0⟩, k⟩] = [] := List.eraseP_cons_of_pos hzero
  rcases ht with rfl | rfl
  · cases h
    rfl
  · cases h
    rw [hdelete]
    rfl

end RoutingTable

end WormsAttack.Inet
