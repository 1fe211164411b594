/-
  To which AS a router-level node is counted.

  A node enters the router-level topology of an AS if the name of the AS followed by a dot
  occurs anywhere in its path; its AS number is read behind the first `sas` of its path, or
  behind the first `tas` if there is no `sas`.
-/
import WormsAttack.Configurator.Handlers

namespace WormsAttack.Configurator

open Foundation Inet Omnet List

/-! ## Containment -/

def Contains (a m : Module) : Prop := a.parts <+: m.enclosing.map String.toList

instance (a m : Module) : Decidable (Contains a m) := inferInstanceAs (Decidable (_ <+: _))

/-- The digit is searched in the list, not among all characters. -/
instance decidableDigit (word name : List Char) :
    Decidable (∃ d ∈ "0123456789".toList, word ++ [d] <:+: name) :=
  List.decidableBEx _ _

def asIdOf (m : Module) : Option Nat :=
  match readAS "found module that doesn't belong to Transit AS (tas) or Stub AS (sas)"
      m.fullPath with
  | .ok (_, id) => id
  | .error _ => none

theorem asId_of_nodeInfoRL {net : Network} {address : Nat → Nat → IPAddress} {id : Nat}
    {node : NodeInfoRL} (h : nodeInfoRL net address id = .ok node) :
    ∃ m, net.modules[id]? = some m ∧ node.asId = asIdOf m := by
  obtain ⟨m, hm, hread, -⟩ := nodeInfoRL_eq_ok.mp h
  exact ⟨m, hm, by rw [asIdOf, hread]⟩

end WormsAttack.Configurator
