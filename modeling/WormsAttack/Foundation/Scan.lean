/-
  Reading lines and numbers from a text as the C library does.

  `lines` is the loop around `istream::getline` with a buffer of a given size.  `atoi` of a
  number that is not an `int` is undefined behaviour.

  WHAT IS NOT MODELLED.  Hexadecimal numbers, and characters with the value 0.
-/
import WormsAttack.Foundation.Double
import WormsAttack.Foundation.Search

namespace WormsAttack.Foundation

open List

/-! ## Lines -/

/-- The lines that are read after `line`.  A line that does not fit ends the loop; the part
of it that fits is the last line. -/
def linesFrom (size : Nat) : List Char → List Char → List (List Char)
  | line, [] => [line]
  | line, c :: text =>
      if c = '\n' then line :: linesFrom size [] text
      else if line.length + 1 = size then [line]
      else linesFrom size (line ++ [c]) text

/-- `while (in) in.getline(buf, size)`. -/
def lines (size : Nat) (text : List Char) : List (List Char) := linesFrom size [] text

variable {text : List Char} {size : Nat} {c : Char} {rest : List Char}

theorem newline_notMem_linesFrom {line : List Char} (hline : '\n' ∉ line) :
    ∀ l ∈ linesFrom size line text, '\n' ∉ l := by
  fun_induction linesFrom size line text with
  | case1 line | case3 line c text hc hfull => simpa using hline
  | case2 line text ih =>
    intro l hl
    rcases mem_cons.mp hl with rfl | hl
    · exact hline
    · exact ih not_mem_nil l hl
  | case4 line c text hc hfull ih => exact ih (by simp [hline, Ne.symm hc])

theorem modifyHead_nil_append {α : Type} (parts : List (List α)) :
    parts.modifyHead ([] ++ ·) = parts := by
  cases parts <;> rfl

theorem linesFrom_eq_splitOn (line text : List Char)
    (hfit : ∀ l ∈ (text.splitOn '\n').modifyHead (line ++ ·), l.length < size) :
    linesFrom size line text = (text.splitOn '\n').modifyHead (line ++ ·) := by
  fun_induction linesFrom size line text with
  | case1 line => simp
  | case2 line text ih =>
    rw [splitOn_cons_eq_if_modifyHead, if_pos (beq_self_eq_true _)] at hfit ⊢
    rw [modifyHead_nil_append] at ih
    rw [ih fun l hl => hfit l (by simp [hl])]
    simp
  | case3 line c text hc hfull =>
    obtain ⟨first, more, hsplit⟩ := exists_cons_of_ne_nil (splitOn_ne_nil '\n' text)
    rw [splitOn_cons_eq_if_modifyHead, if_neg (by simpa using hc), hsplit] at hfit
    have hlong := hfit (line ++ c :: first) (by simp)
    rw [length_append, length_cons] at hlong
    omega
  | case4 line c text hc hfull ih =>
    obtain ⟨first, more, hsplit⟩ := exists_cons_of_ne_nil (splitOn_ne_nil '\n' text)
    rw [splitOn_cons_eq_if_modifyHead, if_neg (by simpa using hc), hsplit] at hfit ⊢
    rw [hsplit] at ih
    have hsame : ((first :: more).modifyHead (line ++ [c] ++ ·)) =
        ((first :: more).modifyHead (cons c)).modifyHead (line ++ ·) := by
      simp
    rw [hsame] at ih
    exact ih hfit

theorem lines_eq_splitOn (hfit : ∀ l ∈ text.splitOn '\n', l.length < size) :
    lines size text = text.splitOn '\n' := by
  have hsplit := linesFrom_eq_splitOn [] text (by rwa [modifyHead_nil_append])
  rw [modifyHead_nil_append] at hsplit
  exact hsplit

/-! ## Characters -/

/-- Whether `strstr(text, word)` finds the word. -/
def strstr (word : String) (text : List Char) : Bool := (after? word.toList text).isSome

def afterLast (c : Char) : List Char → Option (List Char)
  | [] => none
  | d :: text =>
      match afterLast c text with
      | some rest => some rest
      | none => if d = c then some text else none

theorem afterLast_eq_none : afterLast c text = none ↔ c ∉ text := by
  induction text with
  | nil => simp [afterLast]
  | cons d text ih =>
    rw [afterLast, mem_cons, not_or, ← ih, eq_comm (a := c)]
    cases afterLast c text <;> simp

theorem afterLast_append (h : c ∉ rest) (text : List Char) :
    afterLast c (text ++ c :: rest) = some rest := by
  induction text with
  | nil =>
    rw [nil_append, afterLast, afterLast_eq_none.mpr h]
    exact if_pos rfl
  | cons d text ih => rw [cons_append, afterLast, ih]

theorem afterLast_eq_some (h : afterLast c text = some rest) : c ∉ rest ∧ rest <:+ text := by
  induction text with
  | nil => cases h
  | cons d text ih =>
    rw [afterLast] at h
    split at h
    · rename_i found hfound
      cases h
      obtain ⟨hc, hsuffix⟩ := ih hfound
      exact ⟨hc, hsuffix.trans (suffix_cons d text)⟩
    · rename_i hnone
      obtain ⟨-, h⟩ := Option.ite_none_right_eq_some.mp h
      cases h
      exact ⟨afterLast_eq_none.mp hnone, suffix_cons d _⟩

def beforeLast (c : Char) : List Char → Option (List Char)
  | [] => none
  | d :: text =>
      match beforeLast c text with
      | some rest => some (d :: rest)
      | none => if d = c then some [] else none

theorem beforeLast_eq_none (h : c ∉ text) : beforeLast c text = none := by
  induction text with
  | nil => rfl
  | cons d text ih =>
    obtain ⟨hd, htext⟩ := not_or.mp (mem_cons.not.mp h)
    rw [beforeLast, ih htext]
    exact if_neg (Ne.symm hd)

theorem beforeLast_append (h : c ∉ rest) (text : List Char) :
    beforeLast c (text ++ c :: rest) = some text := by
  induction text with
  | nil =>
    rw [nil_append, beforeLast, beforeLast_eq_none h]
    exact if_pos rfl
  | cons d text ih => rw [cons_append, beforeLast, ih]

theorem beforeLast_eq_some (h : beforeLast c text = some rest) : rest <+: text := by
  induction text generalizing rest with
  | nil => cases h
  | cons d text ih =>
    rw [beforeLast] at h
    split at h
    · rename_i found hfound
      cases h
      exact cons_prefix_cons.mpr ⟨rfl, ih hfound⟩
    · split at h
      · cases h
        exact nil_prefix
      · cases h

/-! ## Numbers -/

def isSpace (c : Char) : Bool := c ∈ [' ', '\t', '\n', '\r', '\x0b', '\x0c']

/-- A sign, if there is one: whether it is a minus, and the rest. -/
def readSign : List Char → Bool × List Char
  | '-' :: text => (true, text)
  | '+' :: text => (false, text)
  | text => (false, text)

def digitsValue (digits : List Char) : Nat :=
  digits.foldl (fun n c => 10 * n + (c.toNat - '0'.toNat)) 0

/-- `atoi`; `none` is undefined behaviour. -/
def atoi (text : List Char) : Option Int :=
  let (negative, text) := readSign (text.dropWhile isSpace)
  let n : Int := digitsValue (text.takeWhile Char.isDigit)
  let n := if negative then -n else n
  if -2147483648 ≤ n ∧ n ≤ 2147483647 then some n else none

/-- The exponent of a number, 0 if there is none. -/
def readExponent : List Char → Int
  | c :: text =>
      if c = 'e' ∨ c = 'E' then
        let (negative, text) := readSign text
        let n : Int := digitsValue (text.takeWhile Char.isDigit)
        if negative then -n else n
      else 0
  | [] => 0

def powerOfTen (e : Int) : Rat :=
  if 0 ≤ e then ((10 ^ e.toNat : Nat) : Rat) else 1 / ((10 ^ (-e).toNat : Nat) : Rat)

/-- A number without a sign, 0 if the text does not start with one. -/
def readDouble (text : List Char) : Double :=
  let lower := text.map Char.toLower
  if "inf".toList <+: lower then .infinite false
  else if "nan".toList <+: lower then .nan
  else
    let whole := text.takeWhile Char.isDigit
    let text := text.dropWhile Char.isDigit
    let (fraction, text) :=
      match text with
      | '.' :: text => (text.takeWhile Char.isDigit, text.dropWhile Char.isDigit)
      | text => ([], text)
    if whole.isEmpty && fraction.isEmpty then 0
    else
      .finite (digitsValue (whole ++ fraction) * powerOfTen (readExponent text - fraction.length))

def atof (text : List Char) : Double :=
  let (negative, text) := readSign (text.dropWhile isSpace)
  if negative then (readDouble text).neg else readDouble text

end WormsAttack.Foundation
