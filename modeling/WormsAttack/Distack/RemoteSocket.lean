/-
  Writing a message to another instance.

  Source: distack-1.2.3-dev/src/base/message/remote: `RemoteCommSystemTcpSocket::write`, once it
  has a connection, and `DISTACK_REMOTE_HEADER`.

  `write_some` may take less than it is given.  The header is then continued at
  `&header + writtenHeader`, which counts in headers and not in bytes.
-/
import Mathlib.Algebra.BigOperators.Group.List.Basic
import Mathlib.Algebra.Order.Group.Nat
import Mathlib.Algebra.Ring.Nat
import Mathlib.Data.List.GetD

namespace WormsAttack.Distack.RemoteSocket

def longBytes (n : Nat) : List UInt8 :=
  [.ofNat n, .ofNat (n / 256), .ofNat (n / 65536), .ofNat (n / 16777216)]

/-- `DISTACK_REMOTE_HEADER` in memory. -/
structure Header where
  payloadlen : Nat
  source : Vector UInt8 4
  dest : Vector UInt8 4

open List

def Header.bytes (h : Header) : List UInt8 :=
  longBytes 0xd15fac30 ++ longBytes h.payloadlen ++ h.source.toList ++ h.dest.toList

theorem Header.length_bytes (h : Header) : h.bytes.length = 16 := by
  simp [Header.bytes, longBytes]

/-- `while (written < len) written += write_some (...)`; `buffer written` is what the call is given,
and `none` are sizes that it cannot return. -/
def writeLoop (buffer : Nat → List UInt8) (len : Nat) : Nat → List Nat → Option (List UInt8)
  | written, [] => if written < len then none else some []
  | written, n :: sizes =>
      if written < len ∧ 1 ≤ n ∧ n ≤ len - written then
        (writeLoop buffer len (written + n) sizes).map ((buffer written).take n ++ ·)
      else none

def memory (h : Header) (behind : Nat → UInt8) (address : Nat) : UInt8 :=
  h.bytes.getD address (behind address)

/-- `asio::buffer (&header + writtenHeader, headerlen - writtenHeader)`. -/
def headerBuffer (h : Header) (behind : Nat → UInt8) (writtenHeader : Nat) : List UInt8 :=
  (List.range (16 - writtenHeader)).map fun i => memory h behind (writtenHeader * 16 + i)

/-- `RemoteCommSystemTcpSocket::write`: what is put on the connection. -/
def write (h : Header) (behind : Nat → UInt8) (data : List UInt8)
    (headerSizes dataSizes : List Nat) : Option (List UInt8) := do
  let header ← writeLoop (headerBuffer h behind) 16 0 headerSizes
  let payload ← writeLoop data.drop data.length 0 dataSizes
  some (header ++ payload)

/-- Sizes that `write_some` may return for a buffer of `len` bytes. -/
structure Sizes (len : Nat) (sizes : List Nat) : Prop where
  pos : ∀ n ∈ sizes, 1 ≤ n
  sum : sizes.sum = len

variable {sizes : List Nat}

theorem writeLoop_drop (data : List UInt8) (hpos : ∀ n ∈ sizes, 1 ≤ n) :
    ∀ written : Nat, written + sizes.sum = data.length →
      writeLoop data.drop data.length written sizes = some (data.drop written) := by
  induction sizes with
  | nil =>
    intro written hsum
    rw [sum_nil, Nat.add_zero] at hsum
    rw [writeLoop, if_neg (Nat.not_lt.mpr hsum.ge), drop_of_length_le hsum.ge]
  | cons n sizes ih =>
    intro written hsum
    obtain ⟨hn, hrest⟩ := forall_mem_cons.mp hpos
    rw [sum_cons] at hsum
    rw [writeLoop, if_pos (by omega), ih hrest _ (by omega), Option.map_some, ← drop_drop,
      take_append_drop]

theorem exists_writeLoop (buffer : Nat → List UInt8) {len : Nat} (hpos : ∀ n ∈ sizes, 1 ≤ n) :
    ∀ written : Nat, written + sizes.sum = len →
      ∃ sent, writeLoop buffer len written sizes = some sent := by
  induction sizes with
  | nil =>
    intro written hsum
    exact ⟨[], if_neg (Nat.not_lt.mpr hsum.ge)⟩
  | cons n sizes ih =>
    intro written hsum
    obtain ⟨hn, hrest⟩ := forall_mem_cons.mp hpos
    rw [sum_cons] at hsum
    obtain ⟨sent, hsent⟩ := ih hrest (written + n) (by omega)
    rw [writeLoop, if_pos (by omega), hsent]
    exact ⟨_, rfl⟩

theorem headerBuffer_zero (h : Header) (behind : Nat → UInt8) :
    headerBuffer h behind 0 = h.bytes := by
  refine ext_getElem (by simp [headerBuffer, h.length_bytes]) fun i hi hi' => ?_
  simp [headerBuffer, memory, hi']

theorem headerBuffer_cons (h : Header) (behind : Nat → UInt8) {n : Nat} (hn : 1 ≤ n)
    (hlt : n < 16) : ∃ rest, headerBuffer h behind n = behind (n * 16) :: rest := by
  obtain ⟨k, hk⟩ : ∃ k, 16 - n = k + 1 := ⟨15 - n, by omega⟩
  have hbehind : memory h behind (n * 16) = behind (n * 16) :=
    getD_eq_default _ _ (by rw [h.length_bytes]; omega)
  rw [headerBuffer, hk, range_succ_eq_map, map_cons, Nat.add_zero, hbehind]
  exact ⟨_, rfl⟩

/-- The message is on the connection whatever lies behind the header, if and only if the
first call takes the whole header. -/
theorem write_eq_iff (h : Header) (data : List UInt8) {headerSizes dataSizes : List Nat}
    (hheader : Sizes 16 headerSizes) (hdata : Sizes data.length dataSizes) :
    (∀ behind, write h behind data headerSizes dataSizes = some (h.bytes ++ data)) ↔
      headerSizes = [16] := by
  have hpayload := writeLoop_drop data hdata.pos 0 ((Nat.zero_add _).trans hdata.sum)
  constructor
  · intro hwrite
    obtain ⟨hpos, hsum⟩ := hheader
    match headerSizes, hpos, hsum with
    | [n], _, hsum => rw [sum_singleton.symm.trans hsum]
    | n :: m :: more, hpos, hsum =>
      obtain ⟨hn, hpos'⟩ := forall_mem_cons.mp hpos
      have hm : 1 ≤ m := hpos' m mem_cons_self
      rw [sum_cons, sum_cons] at hsum
      -- the first byte of the second call is not the next one of the header
      let behind : Nat → UInt8 := fun _ => h.bytes.getD n 0 + 1
      obtain ⟨rest, hrest⟩ := headerBuffer_cons h behind hn (by omega)
      obtain ⟨sent, hsent⟩ := exists_writeLoop (headerBuffer h behind)
        (forall_mem_cons.mp hpos').2 (0 + n + m) (show _ = 16 by omega)
      have hloop : writeLoop (headerBuffer h behind) 16 0 (n :: m :: more) =
          some (h.bytes.take n ++ ((behind (n * 16) :: rest).take m ++ sent)) := by
        rw [writeLoop, if_pos (by omega), writeLoop, if_pos (by omega), hsent, headerBuffer_zero,
          Nat.zero_add, hrest]
        rfl
      have hall := hwrite behind
      rw [write, hloop, hpayload] at hall
      obtain ⟨k, rfl⟩ : ∃ k, m = k + 1 := ⟨m - 1, by omega⟩
      have hlength : (h.bytes.take n).length = n := by
        rw [length_take, h.length_bytes]
        omega
      have hbyte := congrArg (·.getD n 0) (Option.some.inj hall)
      rw [append_assoc, take_succ_cons, cons_append, cons_append,
        getD_append_right _ _ _ _ hlength.le, hlength, Nat.sub_self, getD_cons_zero,
        getD_append _ _ _ _ (by rw [h.length_bytes]; omega)] at hbyte
      have := congrArg UInt8.toNat hbyte
      rw [UInt8.toNat_add, UInt8.toNat_one] at this
      omega
  · rintro rfl behind
    have hloop : writeLoop (headerBuffer h behind) 16 0 [16] = some h.bytes := by
      rw [writeLoop, if_pos (by omega), writeLoop, headerBuffer_zero, take_of_length_le
        h.length_bytes.le]
      exact congrArg some (append_nil _)
    rw [write, hloop, hpayload]
    rfl

def hello : Header := ⟨2, Vector.replicate 4 1, Vector.replicate 4 2⟩

theorem write_hello :
    Sizes 16 [16] ∧ Sizes 2 [1, 1] ∧
      ∀ behind, write hello behind [7, 8] [16] [1, 1] = some (hello.bytes ++ [7, 8]) := by
  have hheader : Sizes 16 [16] := ⟨by decide, rfl⟩
  have hdata : Sizes 2 [1, 1] := ⟨by decide, rfl⟩
  exact ⟨hheader, hdata, (write_eq_iff hello [7, 8] hheader hdata).mpr rfl⟩

theorem write_hello_twice :
    write hello (fun _ => 0) [] [8, 8] [] = some (hello.bytes.take 8 ++ List.replicate 8 0) := by
  decide

end WormsAttack.Distack.RemoteSocket
