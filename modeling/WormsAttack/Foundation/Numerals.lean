/-
  Numbers that are printed and read again.

  An `int` is printed with its sign and its digits, a `double` with a point and the digits of
  its fraction.  `atoi` and `atof` of Scan.lean read the numeral back.
-/
import Mathlib.Tactic.FieldSimp
import Mathlib.Tactic.Ring
import WormsAttack.Foundation.Scan

namespace WormsAttack.Foundation

open List

/-! ## Characters of a numeral -/

def isNumeral (c : Char) : Bool := c.isDigit || c == '-' || c == '.'

theorem isDigit_toDigits {n : Nat} : ∀ c ∈ Nat.toDigits 10 n, c.isDigit = true :=
  fun _ hc => Nat.isDigit_of_mem_toDigits (by decide) (by decide) hc

variable {c : Char}

theorem isNumeral_of_isDigit (h : c.isDigit = true) : isNumeral c = true := by
  rw [isNumeral, h]
  rfl

theorem ne_of_isDigit {d : Char} (hc : c.isDigit = true) (hd : d.isDigit = false) : c ≠ d := by
  rintro rfl
  exact Bool.noConfusion (hc.symm.trans hd)

theorem isSpace_of_isDigit (h : c.isDigit = true) : isSpace c = false := by
  rw [isSpace, decide_eq_false_iff_not]
  intro hmem
  simp only [mem_cons, not_mem_nil, or_false] at hmem
  rcases hmem with rfl | rfl | rfl | rfl | rfl | rfl <;> cases h

theorem readSign_of_isDigit (h : c.isDigit = true) (text : List Char) :
    readSign (c :: text) = (false, c :: text) := by
  unfold readSign
  split
  · rename_i heq
    cases heq
    cases h
  · rename_i heq
    cases heq
    cases h
  · rfl

theorem span_digits {digits : List Char} (rest : List Char)
    (hdigits : ∀ c ∈ digits, c.isDigit = true) (hrest : ∀ c ∈ rest.head?, c.isDigit = false) :
    (digits ++ rest).takeWhile Char.isDigit = digits ∧
      (digits ++ rest).dropWhile Char.isDigit = rest := by
  rw [takeWhile_append_of_pos hdigits, dropWhile_append_of_pos hdigits]
  cases rest with
  | nil => simp
  | cons c rest =>
    have hc : c.isDigit = false := hrest c rfl
    simp [hc]

theorem digitsValue_append (a b : List Char) :
    digitsValue (a ++ b) = 10 ^ b.length * digitsValue a + digitsValue b := by
  induction b using reverseRecOn with
  | nil => simp [digitsValue]
  | append_singleton b c ih =>
    rw [← append_assoc]
    unfold digitsValue at ih ⊢
    rw [foldl_append, ih, foldl_append, length_append]
    simp only [foldl_cons, foldl_nil, length_singleton, pow_succ]
    ring

theorem digitsValue_toDigits (n : Nat) : digitsValue (Nat.toDigits 10 n) = n :=
  Nat.ofDigitChars_ten_toDigits

/-! ## Whole numbers -/

def intNumeral (n : Int) : List Char :=
  if n < 0 then '-' :: Nat.toDigits 10 n.natAbs else Nat.toDigits 10 n.natAbs

theorem exists_digit_toDigits (n : Nat) :
    ∃ c cs, Nat.toDigits 10 n = c :: cs ∧ c.isDigit = true := by
  obtain ⟨c, cs, hcs⟩ := exists_cons_of_ne_nil (Nat.toDigits_ne_nil (n := n) (b := 10))
  exact ⟨c, cs, hcs, isDigit_toDigits c (by rw [hcs]; exact mem_cons_self)⟩

theorem isNumeral_intNumeral (n : Int) : ∀ c ∈ intNumeral n, isNumeral c = true := by
  unfold intNumeral
  intro c hc
  split at hc
  · rcases mem_cons.mp hc with rfl | hc
    · rfl
    · exact isNumeral_of_isDigit (isDigit_toDigits c hc)
  · exact isNumeral_of_isDigit (isDigit_toDigits c hc)

theorem readSign_dropWhile (negative : Bool) (hc : c.isDigit = true) (text : List Char) :
    readSign (((if negative then ['-'] else []) ++ c :: text).dropWhile isSpace) =
      (negative, c :: text) := by
  cases negative with
  | true => rfl
  | false =>
    simp only [Bool.false_eq_true, if_false, nil_append]
    rw [dropWhile_cons_of_neg (by simp [isSpace_of_isDigit hc])]
    exact readSign_of_isDigit hc text

theorem atoi_intNumeral {n : Int} (hlow : -2147483648 ≤ n) (hhigh : n ≤ 2147483647) :
    atoi (intNumeral n) = some n := by
  obtain ⟨c, cs, hcs, hc⟩ := exists_digit_toDigits n.natAbs
  have hnumeral : intNumeral n = (if decide (n < 0) then ['-'] else []) ++ c :: cs := by
    unfold intNumeral
    rw [hcs]
    by_cases hneg : n < 0 <;> simp [hneg]
  have hvalue : digitsValue ((c :: cs).takeWhile Char.isDigit) = n.natAbs := by
    rw [← hcs, ← append_nil (Nat.toDigits 10 _), (span_digits [] isDigit_toDigits (by simp)).1,
      digitsValue_toDigits]
  unfold atoi
  rw [hnumeral, readSign_dropWhile _ hc]
  dsimp only
  rw [hvalue]
  have hsame : (if decide (n < 0) = true then -(n.natAbs : Int) else n.natAbs) = n := by
    by_cases hneg : n < 0
    · rw [if_pos (decide_eq_true hneg)]
      omega
    · rw [if_neg (by simpa using hneg)]
      omega
  rw [hsame, if_pos ⟨hlow, hhigh⟩]

/-! ## Numbers with a fraction -/

structure Decimal where
  negative : Bool
  whole : Nat
  fraction : List (Fin 10)

def fractionValue : List (Fin 10) → Rat
  | [] => 0
  | k :: fraction => ((k : Nat) + fractionValue fraction) / 10

def Decimal.value (d : Decimal) : Rat :=
  if d.negative then -(d.whole + fractionValue d.fraction) else d.whole + fractionValue d.fraction

def fractionDigits (fraction : List (Fin 10)) : List Char :=
  fraction.map fun k => Nat.digitChar k.val

def Decimal.numeral (d : Decimal) : List Char :=
  (if d.negative then ['-'] else []) ++
    (Nat.toDigits 10 d.whole ++ '.' :: fractionDigits d.fraction)

theorem isDigit_fractionDigits (fraction : List (Fin 10)) :
    ∀ c ∈ fractionDigits fraction, c.isDigit = true := by
  intro c hc
  obtain ⟨k, -, rfl⟩ := mem_map.mp hc
  have hall : ∀ k : Fin 10, (Nat.digitChar k.val).isDigit = true := by decide
  exact hall k

theorem isNumeral_numeral (d : Decimal) : ∀ c ∈ d.numeral, isNumeral c = true := by
  intro c hc
  rw [Decimal.numeral, mem_append, mem_append, mem_cons] at hc
  rcases hc with hc | hc | rfl | hc
  · split at hc
    · rw [mem_singleton.mp hc]
      rfl
    · cases hc
  · exact isNumeral_of_isDigit (isDigit_toDigits c hc)
  · rfl
  · exact isNumeral_of_isDigit (isDigit_fractionDigits d.fraction c hc)

theorem digitsValue_fractionDigits (fraction : List (Fin 10)) :
    (digitsValue (fractionDigits fraction) : Rat) =
      fractionValue fraction * 10 ^ fraction.length := by
  induction fraction with
  | nil => simp [digitsValue, fractionDigits, fractionValue]
  | cons k fraction ih =>
    have hk : digitsValue [Nat.digitChar k.val] = k.val := by
      revert k
      decide
    have hcons : fractionDigits (k :: fraction) =
        [Nat.digitChar k.val] ++ fractionDigits fraction := rfl
    have hlength : (fractionDigits fraction).length = fraction.length := length_map _
    rw [hcons, digitsValue_append, hk, hlength, fractionValue, length_cons, Nat.cast_add, ih]
    push_cast
    ring

theorem powerOfTen_neg (n : Nat) : powerOfTen (-(n : Int)) = 1 / 10 ^ n := by
  unfold powerOfTen
  cases n with
  | zero => simp
  | succ n =>
    rw [if_neg (by omega)]
    simp

theorem toLower_of_isDigit (h : c.isDigit = true) : c.toLower = c := by
  simp only [Char.isDigit, Bool.and_eq_true, decide_eq_true_eq] at h
  unfold Char.toLower
  split_ifs with hupper
  · exact absurd (UInt32.le_trans hupper.1 h.2) (by decide)
  · rfl

theorem not_prefix_toLower {d : Char} (hc : c.isDigit = true) (hd : d.isDigit = false)
    (word text : List Char) : ¬ d :: word <+: (c :: text).map Char.toLower := by
  rw [map_cons, toLower_of_isDigit hc, cons_prefix_cons]
  exact fun h => ne_of_isDigit hc hd h.1.symm

theorem readDouble_numeral {cs : List Char} (hdigits : ∀ d ∈ c :: cs, d.isDigit = true)
    (fraction : List (Fin 10)) :
    readDouble (c :: cs ++ '.' :: fractionDigits fraction) =
      .finite (digitsValue (c :: cs) + fractionValue fraction) := by
  have hc := hdigits c mem_cons_self
  have hinf : ¬ "inf".toList <+: (c :: cs ++ '.' :: fractionDigits fraction).map Char.toLower :=
    @not_prefix_toLower c 'i' hc (by decide) ['n', 'f'] _
  have hnan : ¬ "nan".toList <+: (c :: cs ++ '.' :: fractionDigits fraction).map Char.toLower :=
    @not_prefix_toLower c 'n' hc (by decide) ['a', 'n'] _
  obtain ⟨htake, hdrop⟩ := span_digits ('.' :: fractionDigits fraction) hdigits
    (by rintro _ ⟨⟩; rfl)
  obtain ⟨htake', hdrop'⟩ := span_digits [] (isDigit_fractionDigits fraction) (by simp)
  rw [append_nil] at htake' hdrop'
  have hlength : (fractionDigits fraction).length = fraction.length := length_map _
  unfold readDouble
  rw [if_neg hinf, if_neg hnan, htake, hdrop]
  simp only [htake', hdrop']
  rw [if_neg (by simp), readExponent, zero_sub, powerOfTen_neg, hlength,
    digitsValue_append, Nat.cast_add, digitsValue_fractionDigits, hlength]
  congr 1
  push_cast
  field_simp

theorem atof_numeral (d : Decimal) : atof d.numeral = .finite d.value := by
  obtain ⟨c, cs, hcs, hc⟩ := exists_digit_toDigits d.whole
  have hread := readDouble_numeral (by rw [← hcs]; exact isDigit_toDigits) d.fraction
  unfold atof Decimal.numeral Decimal.value
  rw [hcs, cons_append, readSign_dropWhile _ hc, ← cons_append]
  dsimp only
  rw [hread, ← hcs, digitsValue_toDigits]
  split <;> rfl

end WormsAttack.Foundation
