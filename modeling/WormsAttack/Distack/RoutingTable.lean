/-
  Addresses and routing tables as text.

  Source: distack-1.2.3-dev/src/base: `IP_ADDR::toString` and `fromString` in IpPacket.h,
  `Helper::stoi`, and the simple format of `getRoutingTableFile` in GenericRoutingTable.cpp.

  `long` has 32 bits, and `strtol` gives the nearest one.  `fromString` writes each byte as soon
  as it has read it, and asserts at the end that the text is the one that `toString` prints.
-/
import WormsAttack.Foundation.Numerals

namespace WormsAttack.Distack.RoutingTable

open Foundation List

/-! ## Addresses -/

/-- `Helper::stoi`. -/
def stoi (text : List Char) : Int :=
  let (negative, text) := readSign (text.dropWhile isSpace)
  let n : Int := digitsValue (text.takeWhile Char.isDigit)
  max (-2147483648) (min (if negative then -n else n) 2147483647)

abbrev Address := { x : List UInt8 // x.length = 4 }

def printBytes (x : List UInt8) : List Char :=
  ['.'].intercalate (x.map fun b => Nat.toDigits 10 b.toNat)

def toString (a : Address) : List Char := printBytes a.1

/-- The loop of `fromString`. -/
def setBytes : List (List Char) → List UInt8 → Bool × List UInt8
  | text :: list, b :: x =>
      let val := stoi text
      if 0 ≤ val ∧ val ≤ 255 then
        let (ok, x) := setBytes list x
        (ok, .ofNat val.toNat :: x)
      else (false, b :: x)
  | _, x => (true, x)

theorem length_setBytes (list : List (List Char)) (x : List UInt8) :
    (setBytes list x).2.length = x.length := by
  fun_induction setBytes list x with
  | case1 text list b x val hval ok y heq ih =>
    rw [heq] at ih
    exact congrArg (· + 1) ih
  | case2 | case3 => rfl

/-- The result and the address afterwards; `none` is a failed assertion. -/
def fromString (ip : List Char) (a : Address) : Option (Bool × Address) :=
  let list := ip.splitOn '.'
  if list.length ≠ 4 then some (false, a)
  else
    let stored := setBytes list a.1
    let b : Address := ⟨stored.2, (length_setBytes list a.1).trans a.2⟩
    if stored.1 then
      if toString b = ip then some (true, b) else none
    else some (false, b)

theorem stoi_digits {digits : List Char} (hne : digits ≠ [])
    (hdigits : ∀ c ∈ digits, c.isDigit = true) :
    stoi digits = min (digitsValue digits) 2147483647 := by
  obtain ⟨c, cs, rfl⟩ := exists_cons_of_ne_nil hne
  have hc := hdigits c mem_cons_self
  have htake := (span_digits [] hdigits (by simp)).1
  rw [append_nil] at htake
  unfold stoi
  rw [dropWhile_cons_of_neg (by simp [isSpace_of_isDigit hc]), readSign_of_isDigit hc]
  dsimp only
  rw [htake]
  simp only [Bool.false_eq_true, if_false]
  omega

theorem stoi_toDigits (b : UInt8) : stoi (Nat.toDigits 10 b.toNat) = b.toNat := by
  have := b.toNat_lt
  rw [stoi_digits Nat.toDigits_ne_nil isDigit_toDigits, digitsValue_toDigits]
  omega

theorem setBytes_digits : ∀ {x y : List UInt8}, x.length = y.length →
    setBytes (y.map fun b => Nat.toDigits 10 b.toNat) x = (true, y) := by
  intro x y
  induction y generalizing x with
  | nil =>
    intro h
    cases length_eq_zero_iff.mp h
    rfl
  | cons b y ih =>
    intro h
    obtain ⟨c, x, rfl⟩ := exists_cons_of_length_eq_add_one h
    have hval := stoi_toDigits b
    have := b.toNat_lt
    rw [map_cons, setBytes, hval]
    rw [if_pos (by omega), ih (Nat.succ.inj h)]
    simp

theorem splitOn_toString (a : Address) :
    (toString a).splitOn '.' = a.1.map fun b => Nat.toDigits 10 b.toNat := by
  refine splitOn_intercalate '.' ?_ ?_
  · intro text htext
    obtain ⟨b, -, rfl⟩ := mem_map.mp htext
    exact fun hdot => absurd (isDigit_toDigits _ hdot) (by decide)
  · rw [ne_eq, map_eq_nil_iff, ← length_eq_zero_iff, a.2]
    decide

theorem fromString_toString (a b : Address) : fromString (toString b) a = some (true, b) := by
  have hset := setBytes_digits (a.2.trans b.2.symm)
  unfold fromString
  simp only [splitOn_toString, length_map, hset]
  rw [if_neg (by simp [b.2]), if_true, if_true]

def trim (text : List Char) : List Char :=
  ((text.dropWhile isSpace).reverse.dropWhile isSpace).reverse

def zeroAddr : Address := ⟨[0, 0, 0, 0], rfl⟩

def setBits (bits : Nat) (mask : List UInt8) : List UInt8 :=
  (List.range bits).foldl
    (fun mask i => mask.modify (i / 8) (· ||| (1 : UInt8) <<< .ofNat (7 - i % 8))) mask

theorem length_setBits (bits : Nat) (mask : List UInt8) :
    (setBits bits mask).length = mask.length := by
  unfold setBits
  induction List.range bits generalizing mask with
  | nil => rfl
  | cons i is ih => rw [foldl_cons, ih, length_modify]

def maskOf (bits : Nat) : Address := ⟨setBits bits zeroAddr.1, length_setBits bits zeroAddr.1⟩

/-- What a line adds to the table; the outer `none` is a failed assertion.  The result of
`fromString` is not looked at. -/
def routingEntry (line : List Char) : Option (Option (Address × Address)) :=
  match (trim line).splitOn '/' with
  | [address, bits] =>
      (fromString address zeroAddr).map fun (_, addr) =>
        if 0 ≤ stoi bits ∧ stoi bits ≤ 32 then some (addr, maskOf (stoi bits).toNat) else none
  | _ => some none

/-- Bit `i` of an address, from the left. -/
def bit (a : Address) (i : Nat) : Bool := (a.1.getD (i / 8) 0).toNat.testBit (7 - i % 8)

/-- The line is `a/n`, and the entry is `a` with the mask of `n` bits. -/
def Denotes (line : List Char) (entry : Address × Address) : Prop :=
  ∃ digits, digits ≠ [] ∧ (∀ c ∈ digits, c.isDigit = true) ∧ digitsValue digits ≤ 32 ∧
    trim line = toString entry.1 ++ '/' :: digits ∧ entry.2 = maskOf (digitsValue digits)

theorem slash_notMem_toString (a : Address) : '/' ∉ toString a := by
  rw [toString, printBytes, ← singleton_infix_iff, infix_intercalate (by simp) (by decide)]
  rintro ⟨part, hpart, hslash⟩
  obtain ⟨b, -, rfl⟩ := mem_map.mp hpart
  exact absurd (isDigit_toDigits _ ((singleton_infix_iff _ _).mp hslash)) (by decide)

section

variable {line : List Char} {entry : Address × Address}

theorem Denotes.splitOn (h : Denotes line entry) :
    ∃ digits, (trim line).splitOn '/' = [toString entry.1, digits] ∧ digits ≠ [] ∧
      (∀ c ∈ digits, c.isDigit = true) ∧ routingEntry line = some (some entry) := by
  obtain ⟨digits, hne, hdigits, hle, hline, hmask⟩ := h
  have hsplit : (trim line).splitOn '/' = [toString entry.1, digits] := by
    have hjoin : trim line = ['/'].intercalate [toString entry.1, digits] := by
      rw [hline]
      simp [intercalate]
    rw [hjoin]
    refine splitOn_intercalate '/' ?_ (by simp)
    refine forall_mem_cons.mpr ⟨slash_notMem_toString _, forall_mem_singleton.mpr ?_⟩
    exact fun hslash => absurd (hdigits _ hslash) (by decide)
  have hstoi : stoi digits = digitsValue digits := by
    rw [stoi_digits hne hdigits]
    omega
  refine ⟨digits, hsplit, hne, hdigits, ?_⟩
  rw [routingEntry, hsplit]
  dsimp only
  rw [fromString_toString, Option.map_some, hstoi, if_pos (by omega), Int.toNat_natCast, ← hmask]

end

end WormsAttack.Distack.RoutingTable
