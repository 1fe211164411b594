/-
  Sums of 16-bit words with end-around carry.

  A one's complement sum has two zeros, and only words that are all zero add up to the first of
  them: the sum is the representative of the plain sum modulo 65535 in 1..65535, or zero.
-/
import Mathlib.Algebra.BigOperators.Group.List.Basic
import Mathlib.Algebra.Order.Group.Nat
import Mathlib.Algebra.Ring.Nat

namespace WormsAttack.Foundation.OnesComplement

open List

/-- The carry out of the 16 bits is added at the other end. -/
def add (x y : Nat) : Nat := (x + y) % 65536 + (x + y) / 65536

def sum (words : List Nat) : Nat := words.foldr add 0

def reduce (n : Nat) : Nat := if n = 0 then 0 else (n - 1) % 65535 + 1

theorem add_reduce {x : Nat} (hx : x < 65536) (n : Nat) : add x (reduce n) = reduce (x + n) := by
  unfold add reduce
  split_ifs <;> omega

theorem sum_eq {words : List Nat} (h : ∀ x ∈ words, x < 65536) : sum words = reduce words.sum := by
  induction words with
  | nil => rfl
  | cons x words ih =>
    have ⟨hx, hrest⟩ := forall_mem_cons.mp h
    rw [sum_cons, ← add_reduce hx, ← ih hrest]
    rfl

theorem reduce_le (n : Nat) : reduce n ≤ 65535 := by
  unfold reduce
  split_ifs <;> omega

/-- Two folds are enough for a sum of 32 bits: the first leaves at most one bit above the
sixteen. -/
theorem fold_fold {n r : Nat} (hr : r = n / 65536 + n % 65536) (hn : n ≤ 4294901760) :
    r ≤ 131070 ∧ (r + r / 65536) % 65536 = reduce n := by
  have hle : r ≤ 131070 := by omega
  unfold reduce
  rcases Nat.lt_or_ge r 65536 with hfit | hcarry
  · split_ifs <;> omega
  · split_ifs <;> omega

theorem reduce_complement (n : Nat) : reduce (n + (65535 - reduce n)) = 65535 := by
  unfold reduce
  split_ifs <;> omega

def hostWord (a b : UInt8) : Nat := a.toNat + 256 * b.toNat

def networkWord (a b : UInt8) : Nat := 256 * a.toNat + b.toNat

/-- A last byte without a partner is padded with a zero. -/
def words (word : UInt8 → UInt8 → Nat) : List UInt8 → List Nat
  | a :: b :: rest => word a b :: words word rest
  | [a] => [word a 0]
  | [] => []

variable {word : UInt8 → UInt8 → Nat}

theorem words_append {bytes : List UInt8} (heven : bytes.length % 2 = 0) (rest : List UInt8) :
    words word (bytes ++ rest) = words word bytes ++ words word rest := by
  fun_induction words word bytes with
  | case1 a b bytes ih =>
    refine congrArg (word a b :: ·) (ih ?_)
    rw [length_cons, length_cons] at heven
    omega
  | case2 => cases heven
  | case3 => rfl

theorem forall_words {P : Nat → Prop} (h : ∀ a b, P (word a b))
    (bytes : List UInt8) : ∀ x ∈ words word bytes, P x := by
  fun_induction words word bytes with
  | case1 a b bytes ih => exact forall_mem_cons.mpr ⟨h a b, ih⟩
  | case2 a => exact forall_mem_singleton.mpr (h a 0)
  | case3 => exact forall_mem_nil _

theorem hostWord_lt (a b : UInt8) : hostWord a b < 65536 := by
  have := a.toNat_lt
  have := b.toNat_lt
  unfold hostWord
  omega

theorem networkWord_lt (a b : UInt8) : networkWord a b < 65536 := by
  have := a.toNat_lt
  have := b.toNat_lt
  unfold networkWord
  omega

theorem sum_words_le (bytes : List UInt8) :
    (words hostWord bytes).sum ≤ 65535 * ((bytes.length + 1) / 2) := by
  fun_induction words hostWord bytes with
  | case1 a b bytes ih =>
    have := hostWord_lt a b
    simp only [sum_cons, length_cons]
    omega
  | case2 a =>
    have := hostWord_lt a 0
    simp only [sum_singleton, length_singleton]
    omega
  | case3 => exact Nat.zero_le _

/-- Exchanging the bytes of a word is the multiplication with 256. -/
theorem exists_networkSum (bytes : List UInt8) : ∃ k,
    256 * (words hostWord bytes).sum = (words networkWord bytes).sum + 65535 * k ∧
      ((words hostWord bytes).sum = 0 ↔ (words networkWord bytes).sum = 0) := by
  fun_induction words hostWord bytes with
  | case1 a b bytes ih =>
    obtain ⟨k, hk, hzero⟩ := ih
    refine ⟨b.toNat + k, ?_, ?_⟩ <;>
    · simp only [words, sum_cons, hostWord, networkWord]
      omega
  | case2 a =>
    refine ⟨0, ?_, ?_⟩ <;>
    · simp only [words, sum_singleton, hostWord, networkWord, UInt8.toNat_zero]
      omega
  | case3 => exact ⟨0, rfl, Iff.rfl⟩

theorem sum_networkWord (bytes : List UInt8) :
    sum (words networkWord bytes) =
      sum (words hostWord bytes) % 256 * 256 + sum (words hostWord bytes) / 256 := by
  obtain ⟨k, hk, hzero⟩ := exists_networkSum bytes
  rw [sum_eq (forall_words networkWord_lt bytes), sum_eq (forall_words hostWord_lt bytes)]
  generalize (words hostWord bytes).sum = host at hk hzero ⊢
  generalize (words networkWord bytes).sum = network at hk hzero ⊢
  unfold reduce
  split_ifs <;> omega

end WormsAttack.Foundation.OnesComplement
