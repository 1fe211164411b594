/-
  IPv4 addresses and their text form.

  Source: inet/src/networklayer/contract/IPAddress.h and IPAddress.cc.

  The zero address is printed as `<unspec>` and read back from that word.
-/
import Mathlib.Algebra.Group.Nat.Defs
import Mathlib.Data.List.TakeWhile
import WormsAttack.Foundation.Numerals

namespace WormsAttack.Inet

open Foundation List

structure IPAddress where
  addr : UInt32
  deriving DecidableEq, Repr, Inhabited

namespace IPAddress

variable {a : IPAddress}

theorem ext_toNat {b : IPAddress} (h : a.addr.toNat = b.addr.toNat) : a = b := by
  exact congrArg mk (UInt32.toNat_inj.mp h)

/-- `set(i0, i1, i2, i3)`: assemble an address from its bytes. -/
def ofBytes (i0 i1 i2 i3 : Nat) : IPAddress :=
  ⟨UInt32.ofNat ((i0 <<< 24) ||| (i1 <<< 16) ||| (i2 <<< 8) ||| i3)⟩

/-- `getDByte(i)`: byte `i` of the dotted form. -/
def getDByte (a : IPAddress) (i : Nat) : Nat :=
  (a.addr.toNat >>> ((3 - i) * 8)) &&& 255

/-- `str()`: dotted decimal, and `<unspec>` for the zero address. -/
def str (a : IPAddress) : String :=
  if a.addr = 0 then "<unspec>"
  else
    toString (a.getDByte 0) ++ "." ++ toString (a.getDByte 1) ++ "." ++
      toString (a.getDByte 2) ++ "." ++ toString (a.getDByte 3)

def allOnes : IPAddress := ⟨0xffffffff⟩

def isUnspecified (a : IPAddress) : Bool := a.addr == 0

def isMulticast (a : IPAddress) : Bool := a.addr &&& 0xF0000000 == 0xE0000000

/-! ## Reading an address -/

/-- The inner loop of `parseIPAddress`: read decimal digits onto `num` and
return the rest of the text. -/
def readNumber : Nat → List Char → Nat × List Char
  | num, [] => (num, [])
  | num, c :: cs =>
      if c.isDigit then readNumber (10 * num + (c.toNat - '0'.toNat)) cs else (num, c :: cs)

/-- The outer loop of `parseIPAddress`, with `n` numbers still to be read after
this one and `bytes` already stored. -/
def parseNumbers : Nat → List Nat → List Char → Option (List Nat)
  | n, bytes, text =>
      match text with
      | [] => none
      | c :: _ =>
          if !c.isDigit then none  -- missing number
          else
            match readNumber 0 text with
            | (num, rest) =>
                if 255 < num then none  -- number too big
                else
                  match n, rest with
                  | 0, [] => some (bytes ++ [num])
                  | n + 1, d :: rest' =>
                      if d = '.' then parseNumbers n (bytes ++ [num]) rest' else none
                  | _, _ => none  -- too few numbers, or text after the fourth

/-- `parseIPAddress`: the four bytes of a dotted address. -/
def parseIPAddress (text : List Char) : Option (List Nat) :=
  if text = "<unspec>".toList then some [0, 0, 0, 0] else parseNumbers 3 [] text

/-- `set(const char *text)`.  `none` is the error `Invalid IP address string`;
the text ends at the first zero byte, as a C string does. -/
def parse (text : String) : Option IPAddress :=
  match parseIPAddress (text.toList.takeWhile fun c => c.toNat ≠ 0) with
  | some [b0, b1, b2, b3] => some (ofBytes b0 b1 b2 b3)
  | _ => none

/-! ## Bytes -/

theorem getDByte_eq (a : IPAddress) (i : Nat) :
    a.getDByte i = a.addr.toNat / 2 ^ ((3 - i) * 8) % 256 := by
  unfold getDByte
  rw [Nat.shiftRight_eq_div_pow]
  exact Nat.and_two_pow_sub_one_eq_mod _ 8

theorem getDByte_lt (a : IPAddress) (i : Nat) : a.getDByte i < 256 := by
  rw [getDByte_eq]
  exact Nat.mod_lt _ (by decide)

theorem ofBytes_eq {i0 i1 i2 i3 : Nat} (h1 : i1 < 256) (h2 : i2 < 256) (h3 : i3 < 256) :
    ofBytes i0 i1 i2 i3 =
      ⟨UInt32.ofNat (2 ^ 24 * i0 + 2 ^ 16 * i1 + 2 ^ 8 * i2 + i3)⟩ := by
  have e1 : i0 <<< 24 ||| i1 <<< 16 = 2 ^ 16 * (2 ^ 8 * i0 + i1) := by
    have hlt : 2 ^ 16 * i1 < 2 ^ 24 := by omega
    rw [Nat.shiftLeft_eq, Nat.shiftLeft_eq, Nat.mul_comm i0, Nat.mul_comm i1,
      ← Nat.two_pow_add_eq_or_of_lt hlt]
    omega
  have e2 : i0 <<< 24 ||| i1 <<< 16 ||| i2 <<< 8 =
      2 ^ 8 * (2 ^ 16 * i0 + 2 ^ 8 * i1 + i2) := by
    have hlt : 2 ^ 8 * i2 < 2 ^ 16 := by omega
    rw [e1, Nat.shiftLeft_eq, Nat.mul_comm i2, ← Nat.two_pow_add_eq_or_of_lt hlt]
    omega
  have e3 : i0 <<< 24 ||| i1 <<< 16 ||| i2 <<< 8 ||| i3 =
      2 ^ 24 * i0 + 2 ^ 16 * i1 + 2 ^ 8 * i2 + i3 := by
    have hlt : i3 < 2 ^ 8 := h3
    rw [e2, ← Nat.two_pow_add_eq_or_of_lt hlt]
    omega
  unfold ofBytes
  rw [e3]

theorem ofBytes_getDByte (a : IPAddress) :
    ofBytes (a.getDByte 0) (a.getDByte 1) (a.getDByte 2) (a.getDByte 3) = a := by
  rw [ofBytes_eq (a.getDByte_lt 1) (a.getDByte_lt 2) (a.getDByte_lt 3)]
  have hlt := a.addr.toNat_lt
  have hsum : 2 ^ 24 * a.getDByte 0 + 2 ^ 16 * a.getDByte 1 + 2 ^ 8 * a.getDByte 2 +
      a.getDByte 3 = a.addr.toNat := by
    simp only [getDByte_eq]
    omega
  rw [hsum]
  simp

/-! ## The round trip -/

theorem readNumber_digits {rest : List Char} (hrest : ∀ c ∈ rest.head?, ¬ c.isDigit) :
    ∀ (ds : List Char), (∀ c ∈ ds, c.isDigit) → ∀ num : Nat,
      readNumber num (ds ++ rest) = (Nat.ofDigitChars 10 ds num, rest) := by
  intro ds
  induction ds with
  | nil =>
    intro _ num
    cases rest with
    | nil => rfl
    | cons c cs =>
      have hc : ¬ c.isDigit := hrest c rfl
      simp [readNumber, hc, Nat.ofDigitChars]
  | cons d ds ih =>
    intro hds num
    have hd : d.isDigit := hds d mem_cons_self
    rw [cons_append, readNumber, if_pos hd, ih (fun c hc => hds c (mem_cons_of_mem d hc))]
    rfl

theorem readNumber_toDigits (b : Nat) (rest : List Char) (hrest : ∀ c ∈ rest.head?, ¬ c.isDigit) :
    readNumber 0 (Nat.toDigits 10 b ++ rest) = (b, rest) := by
  rw [readNumber_digits hrest _ isDigit_toDigits, Nat.ofDigitChars_ten_toDigits]

theorem parseNumbers_last (bytes : List Nat) {b : Nat} (hb : b < 256) :
    parseNumbers 0 bytes (Nat.toDigits 10 b) = some (bytes ++ [b]) := by
  have hread := readNumber_toDigits b [] (by simp)
  have hsmall : ¬ 255 < b := by omega
  obtain ⟨c, cs, hcs, hc⟩ := exists_digit_toDigits b
  rw [append_nil, hcs] at hread
  rw [hcs, parseNumbers]
  simp only [hc, hread, hsmall, Bool.not_true, Bool.false_eq_true, if_false]

theorem parseNumbers_dot (k : Nat) (bytes : List Nat) {b : Nat} (hb : b < 256) (rest : List Char) :
    parseNumbers (k + 1) bytes (Nat.toDigits 10 b ++ '.' :: rest) =
      parseNumbers k (bytes ++ [b]) rest := by
  have hread := readNumber_toDigits b ('.' :: rest) (by simp)
  have hsmall : ¬ 255 < b := by omega
  obtain ⟨c, cs, hcs, hc⟩ := exists_digit_toDigits b
  rw [hcs, cons_append] at hread
  rw [hcs, cons_append, parseNumbers]
  simp only [hc, hread, hsmall, Bool.not_true, Bool.false_eq_true, if_false, if_true]

theorem toList_str (h : a.addr ≠ 0) :
    a.str.toList = Nat.toDigits 10 (a.getDByte 0) ++ '.' :: (Nat.toDigits 10 (a.getDByte 1) ++
      '.' :: (Nat.toDigits 10 (a.getDByte 2) ++ '.' :: Nat.toDigits 10 (a.getDByte 3))) := by
  simp [str, h, Nat.toString_eq_repr]

theorem mem_str {c : Char} (hc : c ∈ a.str.toList) : c.isDigit ∨ c ∈ ".<unspec>".toList := by
  by_cases h : a.addr = 0
  · have hmem : c ∈ "<unspec>".toList := by simpa [str, h] using hc
    exact .inr (mem_cons_of_mem _ hmem)
  · rw [toList_str h] at hc
    simp only [mem_append, mem_cons] at hc
    rcases hc with hc | rfl | hc | rfl | hc | rfl | hc
    all_goals first
      | exact .inl (isDigit_toDigits c hc)
      | exact .inr (by decide)

theorem forall_mem_str {p : Char → Bool} (hdigits : ∀ k < 10, p (Char.ofNat (48 + k)) = true)
    (hothers : ".<unspec>".toList.all p = true) (a : IPAddress) :
    ∀ c ∈ a.str.toList, p c = true := by
  intro c hc
  rcases mem_str hc with hdigit | hother
  · simp only [Char.isDigit, Bool.and_eq_true, decide_eq_true_eq] at hdigit
    have hle : 48 ≤ c.toNat := hdigit.1
    have hge : c.toNat ≤ 57 := hdigit.2
    have hcode := hdigits (c.toNat - 48) (by omega)
    rwa [Nat.add_sub_cancel' hle, Char.ofNat_toNat] at hcode
  · exact all_eq_true.mp hothers c hother

theorem takeWhile_str (a : IPAddress) :
    (a.str.toList.takeWhile fun c => c.toNat ≠ 0) = a.str.toList :=
  takeWhile_eq_self_iff.mpr (forall_mem_str (by decide) (by decide) a)

theorem length_str_le (a : IPAddress) : a.str.toList.length ≤ 15 := by
  have hdigits : ∀ n < 256, (Nat.toDigits 10 n).length ≤ 3 := by decide +kernel
  by_cases h : a.addr = 0
  · rw [str, if_pos h]
    decide
  · rw [toList_str h]
    have h0 := hdigits _ (a.getDByte_lt 0)
    have h1 := hdigits _ (a.getDByte_lt 1)
    have h2 := hdigits _ (a.getDByte_lt 2)
    have h3 := hdigits _ (a.getDByte_lt 3)
    simp only [length_append, length_cons]
    omega

theorem parseIPAddress_str (h : a.addr ≠ 0) :
    parseIPAddress a.str.toList =
      some [a.getDByte 0, a.getDByte 1, a.getDByte 2, a.getDByte 3] := by
  -- The text starts with a digit, so it is not the word `<unspec>`.
  have hword : a.str.toList ≠ "<unspec>".toList := by
    intro heq
    rw [toList_str h] at heq
    obtain ⟨c, cs, hcs, hc⟩ := exists_digit_toDigits (a.getDByte 0)
    rw [hcs, cons_append] at heq
    have hhead : c = '<' := (cons.inj heq).1
    subst hhead
    exact absurd hc (by decide)
  rw [parseIPAddress, if_neg hword, toList_str h, parseNumbers_dot 2 _ (a.getDByte_lt 0),
    parseNumbers_dot 1 _ (a.getDByte_lt 1), parseNumbers_dot 0 _ (a.getDByte_lt 2),
    parseNumbers_last _ (a.getDByte_lt 3)]
  rfl

@[simp] theorem parse_str (a : IPAddress) : parse a.str = some a := by
  unfold parse
  rw [takeWhile_str]
  by_cases h : a.addr = 0
  · obtain ⟨addr⟩ := a
    subst h
    decide
  · rw [parseIPAddress_str h]
    simp only [ofBytes_getDByte]

theorem str_injective : Function.Injective str := by
  intro a b h
  have hparse := congrArg parse h
  rw [parse_str, parse_str] at hparse
  exact Option.some.inj hparse

end IPAddress

end WormsAttack.Inet
