/-
  Counting with machine integers.
-/
import Mathlib.Algebra.Group.Int.Defs

namespace WormsAttack.Foundation

theorem toInt_pred {n : Int32} (h : -2147483648 < n.toInt) : (n - 1).toInt = n.toInt - 1 := by
  have hlt := n.toInt_lt
  rw [Int32.toInt_sub]
  refine Int.bmod_eq_of_le ?_ ?_
  · change _ ≤ n.toInt - 1
    omega
  · change n.toInt - 1 < _
    omega

theorem toInt_sub_one {n : Int32} (h : 0 < n.toInt) : (n - 1).toInt = n.toInt - 1 :=
  toInt_pred (by omega)

theorem toInt_add_one {n : Int32} (h : n.toInt < 2147483647) : (n + 1).toInt = n.toInt + 1 := by
  have hle := n.le_toInt
  rw [Int32.toInt_add]
  refine Int.bmod_eq_of_le ?_ ?_
  · change _ ≤ n.toInt + 1
    omega
  · change n.toInt + 1 < _
    omega

theorem toInt_ofNat_le (n : Nat) : (Int32.ofNat n).toInt ≤ n := by
  rw [Int32.toInt_ofNat']
  change Int.bmod _ 4294967296 ≤ _
  rw [Int.bmod_def]
  split <;> omega

theorem toInt_ofNat_eq_iff (n : Nat) : (Int32.ofNat n).toInt = n ↔ n < 2147483648 := by
  rw [Int32.toInt_ofNat']
  change Int.bmod _ 4294967296 = _ ↔ _
  rw [Int.bmod_def]
  split <;> omega

theorem toNat_sub_one {n : UInt64} (h : 0 < n.toNat) : (n - 1).toNat = n.toNat - 1 := by
  have hle : 1 ≤ n := UInt64.le_iff_toNat_le.mpr h
  rw [UInt64.toNat_sub_of_le n 1 hle]
  rfl

theorem toNat_add_one {n : UInt64} (h : n.toNat < 18446744073709551615) :
    (n + 1).toNat = n.toNat + 1 := by
  exact Nat.mod_eq_of_lt (Nat.succ_lt_succ h)

theorem toNat_toUInt64_of_nonneg {n : Int64} (h : 0 ≤ n.toInt) :
    (n.toUInt64.toNat : Int) = n.toInt := by
  have hlt := n.toUInt64.toNat_lt
  have hmod : n.toInt = Int.bmod n.toUInt64.toNat (2 ^ 64) := BitVec.toInt_eq_toNat_bmod _
  rw [Int.bmod_def] at hmod
  split at hmod <;> omega

theorem toNat_toUInt64 (n : Int32) :
    (n.toInt64.toUInt64.toNat : Int) = if 0 ≤ n.toInt then n.toInt else n.toInt + 2 ^ 64 := by
  have hlt := n.toInt64.toUInt64.toNat_lt
  have hsame := n.toInt_toInt64
  have hmod : n.toInt64.toInt = Int.bmod n.toInt64.toUInt64.toNat (2 ^ 64) :=
    BitVec.toInt_eq_toNat_bmod _
  rw [hsame, Int.bmod_def] at hmod
  split at hmod <;> split <;> omega

end WormsAttack.Foundation
