/-
  The type `double` without rounding.

  A number is an exact rational.  A division by zero gives an infinity or NaN, and no comparison
  with NaN holds.  There is one zero.
-/
import Mathlib.Algebra.Order.Ring.Rat

namespace WormsAttack.Foundation

inductive Double
  | finite (q : Rat)
  | infinite (negative : Bool)
  | nan
  deriving DecidableEq

namespace Double

instance {n : Nat} : OfNat Double n := ⟨.finite n⟩

def add : Double → Double → Double
  | .finite x, .finite y => .finite (x + y)
  | .finite _, .infinite b => .infinite b
  | .infinite a, .finite _ => .infinite a
  | .infinite a, .infinite b => if a = b then .infinite a else .nan
  | _, _ => .nan

def div : Double → Double → Double
  | .finite x, .finite y =>
      if y ≠ 0 then .finite (x / y) else if x = 0 then .nan else .infinite (x < 0)
  | .finite _, .infinite _ => .finite 0
  | .infinite a, .finite y => .infinite (a != decide (y < 0))
  | _, _ => .nan

def neg : Double → Double
  | .finite q => .finite (-q)
  | .infinite negative => .infinite (!negative)
  | .nan => .nan

instance : Add Double := ⟨add⟩

instance : Div Double := ⟨div⟩

def ge : Double → Double → Bool
  | .finite x, .finite y => y ≤ x
  | .finite _, .infinite b => b
  | .infinite a, .finite _ => !a
  | .infinite a, .infinite b => !a || b
  | _, _ => false

@[simp] theorem finite_add (x y : Rat) : (.finite x + .finite y : Double) = .finite (x + y) := rfl

theorem finite_div {x y : Rat} (h : y ≠ 0) : (.finite x / .finite y : Double) = .finite (x / y) :=
  if_pos h

@[simp] theorem finite_ge (x y : Rat) : (finite x).ge (.finite y) = decide (y ≤ x) := rfl

theorem ofNat_eq (n : Nat) : (OfNat.ofNat n : Double) = .finite n := rfl

theorem foldl_add_finite (ratios : List Rat) :
    ∀ cum : Rat, (ratios.map finite).foldl (· + ·) (.finite cum) = .finite (cum + ratios.sum) := by
  induction ratios with
  | nil => simp
  | cons r ratios ih =>
    intro cum
    rw [List.map_cons, List.foldl_cons, finite_add, ih, List.sum_cons, add_assoc]

end Double

end WormsAttack.Foundation
