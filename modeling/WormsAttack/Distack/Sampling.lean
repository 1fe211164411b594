/-
  The sampling module of Distack that takes n out of N frames.

  Source: distack-1.2.3-dev/src/modules/sampling/ModuleSamplingNoutOfN.cpp.

  RANDOM NUMBERS are inputs: each call is given the numbers that the generator would return.  A
  loop that needs more of them than there are stops with `drawing`; this is how a loop that does
  not terminate shows.  The content of a frame is not looked at.
-/
import WormsAttack.Foundation.Machine
import WormsAttack.Foundation.Run

namespace WormsAttack.Distack.Sampling

open Foundation List

inductive Stop
  | assertion
  | outOfRange
  /-- the drawing loop needs more random numbers than there are -/
  | drawing

structure SamplingNoutOfN where
  n : UInt64
  N : UInt64
  availableRands : UInt64
  assertionCounter : UInt64
  selectionVector : List Bool

/-- `dynamic_bitset::resize`, where the new bits are `false`. -/
def resize (size : Nat) (bits : List Bool) : List Bool :=
  bits.take size ++ List.replicate (size - bits.length) false

def reset (bits : List Bool) : List Bool := bits.map fun _ => false

/-- The drawing loop at index `i`. -/
def draw (n : UInt64) : List Int32 → UInt64 → List Bool → Except Stop (List Bool)
  | [], i, bits => if i < n then .error .drawing else .ok bits
  | rand :: draws, i, bits =>
      if i < n then
        let position := rand.toInt64.toUInt64.toNat
        match bits[position]? with
        | none => .error .outOfRange
        | some true => draw n draws (i - 1 + 1) bits
        | some false => draw n draws (i + 1) (bits.set position true)
      else .ok bits

namespace SamplingNoutOfN

def new : SamplingNoutOfN :=
  { n := 0, N := 0, availableRands := 0, assertionCounter := 0, selectionVector := [] }

/-- `configure`, with the values of the two parameters as far as they are given. -/
def configure (m : SamplingNoutOfN) : Option Int64 → Option Int64 → SamplingNoutOfN × Bool
  | some n, some N =>
      ({ m with
          n := n.toUInt64
          N := N.toUInt64
          selectionVector := resize N.toUInt64.toNat m.selectionVector
          availableRands := 0 }, true)
  | _, _ => (m, false)

/-- The first part of `frameCall`: new positions at the start of a block. -/
def prepare (m : SamplingNoutOfN) (draws : List Int32) : Except Stop SamplingNoutOfN :=
  if m.availableRands = 0 then
    if m.assertionCounter = 0 ∨ m.assertionCounter = m.n then do
      let bits ← draw m.n draws 0 (reset m.selectionVector)
      .ok { m with selectionVector := bits, availableRands := m.N, assertionCounter := 0 }
    else .error .assertion
  else .ok m

/-- The second part of `frameCall`: is the position of this frame marked?  The counter is
not less than zero in any case, since it is unsigned. -/
def select (m : SamplingNoutOfN) : Except Stop (SamplingNoutOfN × Bool) :=
  let availableRands := m.availableRands - 1
  if availableRands.toNat < m.selectionVector.length then
    match m.selectionVector[(m.N - 1 - availableRands).toNat]? with
    | none => .error .outOfRange
    | some ret =>
        let assertionCounter := if ret then m.assertionCounter + 1 else m.assertionCounter
        if assertionCounter ≤ m.n then
          .ok ({ m with availableRands, assertionCounter }, ret)
        else .error .assertion
  else .error .assertion

/-- One frame; `draws` are the numbers that the generator returns during the call. -/
def frameCall (m : SamplingNoutOfN) (draws : List Int32) :
    Except Stop (SamplingNoutOfN × Bool) := do
  let m ← m.prepare draws
  m.select

end SamplingNoutOfN

def InRange (N : UInt64) (draws : List Int32) : Prop :=
  ∀ rand ∈ draws, 0 ≤ rand.toInt ∧ rand.toInt < N.toNat

/-! ## The drawing loop

The index counts the marks, also after it has been taken back. -/

variable {N n : UInt64} {m : SamplingNoutOfN} {passed : List Bool}

theorem position_lt {rand : Int32} (h : 0 ≤ rand.toInt ∧ rand.toInt < N.toNat) :
    rand.toInt64.toUInt64.toNat < N.toNat := by
  have hsame := toNat_toUInt64 rand
  omega

variable {bits : List Bool}

theorem count_mark {position : Nat} (h : bits[position]? = some false) :
    (bits.set position true).count true = bits.count true + 1 := by
  obtain ⟨hlt, hget⟩ := List.getElem?_eq_some_iff.mp h
  rw [count_set hlt, hget]
  simp

theorem count_reset (bits : List Bool) : (reset bits).count true = 0 := by
  rw [count_eq_zero, reset, mem_map]
  intro ⟨_, _, h⟩
  cases h

/-- When the loop gets to its end, n positions are marked; it does not leave the vector. -/
theorem draw_spec : ∀ {draws : List Int32} {i : UInt64} {bits : List Bool},
    InRange N draws → bits.length = N.toNat → bits.count true = i.toNat → i.toNat ≤ n.toNat →
    (∃ bits', draw n draws i bits = .ok bits' ∧ bits'.length = N.toNat ∧
        bits'.count true = n.toNat) ∨
      draw n draws i bits = .error .drawing := by
  intro draws
  induction draws with
  | nil =>
    intro i bits _ hlength hcount hle
    rw [draw]
    split_ifs with hdone
    · exact .inr rfl
    · rw [UInt64.lt_iff_toNat_lt] at hdone
      exact .inl ⟨bits, rfl, hlength, by omega⟩
  | cons rand draws ih =>
    intro i bits hrange hlength hcount hle
    have hrest : InRange N draws := fun r hr => hrange r (mem_cons_of_mem rand hr)
    have hposition := position_lt (hrange rand mem_cons_self)
    rw [draw]
    split_ifs with hmore
    · rw [UInt64.lt_iff_toNat_lt] at hmore
      have hbound := n.toNat_lt
      dsimp only
      split
      · rename_i hnone
        rw [getElem?_eq_none_iff] at hnone
        omega
      · -- a repeated number: one step back, one step forward
        rw [UInt64.sub_add_cancel]
        exact ih hrest hlength hcount hle
      · rename_i hfree
        have hnext : (i + 1).toNat = i.toNat + 1 := toNat_add_one (by omega)
        apply ih hrest
        · rw [length_set, hlength]
        · rw [count_mark hfree, hcount, hnext]
        · omega
    · rw [UInt64.lt_iff_toNat_lt] at hmore
      exact .inl ⟨bits, rfl, hlength, by omega⟩

/-! ## Blocks -/

/-- Before a frame of a block: `passed` are the answers of the block so far, as the selection vector
says. -/
structure Ready (n N : UInt64) (passed : List Bool) (m : SamplingNoutOfN) : Prop where
  paramn : m.n = n
  paramN : m.N = N
  size : m.selectionVector.length = N.toNat
  marks : m.selectionVector.count true = n.toNat
  short : passed.length < N.toNat
  available : m.availableRands.toNat + passed.length = N.toNat
  answers : passed = m.selectionVector.take passed.length
  counted : m.assertionCounter.toNat = passed.count true

structure Between (n N : UInt64) (m : SamplingNoutOfN) : Prop where
  paramn : m.n = n
  paramN : m.N = N
  size : m.selectionVector.length = N.toNat
  empty : m.availableRands = 0
  counted : m.assertionCounter = 0 ∨ m.assertionCounter = n

def Exact (n N : UInt64) (block : List Bool) : Prop :=
  block.length = N.toNat ∧ block.count true = n.toNat

theorem Between.length_reset (hm : Between n N m) :
    (reset m.selectionVector).length = N.toNat := by
  rw [reset, length_map, hm.size]

theorem Between.prepare_eq (hm : Between n N m) (draws : List Int32) :
    m.prepare draws = (draw n draws 0 (reset m.selectionVector) >>= fun bits =>
      .ok { m with selectionVector := bits, availableRands := m.N, assertionCounter := 0 }) := by
  have hasserted : m.assertionCounter = 0 ∨ m.assertionCounter = m.n := by
    rw [hm.paramn]
    exact hm.counted
  rw [SamplingNoutOfN.prepare, if_pos hm.empty, if_pos hasserted, hm.paramn]

variable {draws : List Int32}

theorem prepare_between (hN : 0 < N.toNat) (hm : Between n N m) (hrange : InRange N draws) :
    (∃ m', m.prepare draws = .ok m' ∧ Ready n N [] m') ∨
      m.prepare draws = .error .drawing := by
  rw [hm.prepare_eq]
  obtain ⟨bits, hdraw, hsize, hmarks⟩ | hdraw :=
    draw_spec (n := n) (i := 0) hrange hm.length_reset (count_reset _) (Nat.zero_le _)
  · refine .inl ⟨_, by rw [hdraw]; rfl, ?_⟩
    exact
      { paramn := hm.paramn
        paramN := hm.paramN
        size := hsize
        marks := hmarks
        short := hN
        available := by rw [hm.paramN]; rfl
        answers := rfl
        counted := rfl }
  · exact .inr (by rw [hdraw]; rfl)

theorem prepare_ready (hm : Ready n N passed m) (draws : List Int32) : m.prepare draws = .ok m := by
  have hpos : m.availableRands ≠ 0 := by
    intro hzero
    have havailable := hm.available
    rw [hzero] at havailable
    exact absurd hm.short (by simp at havailable; omega)
  rw [SamplingNoutOfN.prepare, if_neg hpos]

theorem Ready.position (hm : Ready n N passed m) :
    (m.availableRands - 1).toNat + (passed.length + 1) = N.toNat ∧
      (m.N - 1 - (m.availableRands - 1)).toNat = passed.length := by
  have hshort := hm.short
  have havailable := hm.available
  have hrands : (m.availableRands - 1).toNat = m.availableRands.toNat - 1 :=
    toNat_sub_one (by omega)
  have hlast : (N - 1).toNat = N.toNat - 1 := toNat_sub_one (by omega)
  have hle : m.availableRands - 1 ≤ N - 1 := by
    rw [UInt64.le_iff_toNat_le, hrands, hlast]
    omega
  rw [hm.paramN, UInt64.toNat_sub_of_le _ _ hle]
  omega

theorem select_ready (hm : Ready n N passed m) :
    ∃ m' ret, m.select = .ok (m', ret) ∧
      (Ready n N (passed ++ [ret]) m' ∨ Exact n N (passed ++ [ret]) ∧ Between n N m') := by
  obtain ⟨hrands, hposition⟩ := hm.position
  have hshort := hm.short
  have hlt : passed.length < m.selectionVector.length := by
    rw [hm.size]
    exact hshort
  obtain ⟨ret, hret⟩ : ∃ ret, m.selectionVector[passed.length]? = some ret :=
    ⟨_, getElem?_eq_getElem hlt⟩
  have hanswers : passed ++ [ret] = m.selectionVector.take (passed.length + 1) := by
    rw [take_add_one, hret, ← hm.answers]
    rfl
  have hle : (passed ++ [ret]).count true ≤ n.toNat := by
    rw [hanswers, ← hm.marks]
    exact (take_sublist _ _).count_le true
  -- the counter cannot wrap around, since it stays at or below n
  have hcounter : (if ret then m.assertionCounter + 1 else m.assertionCounter).toNat =
      (passed ++ [ret]).count true := by
    have hbound := n.toNat_lt
    have hcounted := hm.counted
    rw [count_append] at hle ⊢
    cases ret with
    | false => simpa using hcounted
    | true =>
      simp only [count_singleton_self] at hle ⊢
      rw [if_pos trivial, toNat_add_one (by omega), hcounted]
  have hselect : m.select = .ok
      ({ m with
          availableRands := m.availableRands - 1
          assertionCounter := if ret then m.assertionCounter + 1 else m.assertionCounter },
        ret) := by
    rw [SamplingNoutOfN.select, if_pos (by rw [hm.size]; omega), hposition, hret]
    dsimp only
    rw [if_pos (by rw [UInt64.le_iff_toNat_le, hcounter, hm.paramn]; exact hle)]
  refine ⟨_, ret, hselect, ?_⟩
  rcases Nat.lt_or_eq_of_le (Nat.succ_le_of_lt hshort) with hmore | hlast
  · exact .inl
      { paramn := hm.paramn
        paramN := hm.paramN
        size := hm.size
        marks := hm.marks
        short := by rw [length_append]; exact hmore
        available := by rw [length_append]; exact hrands
        answers := by rw [length_append]; exact hanswers
        counted := hcounter }
  · have hall : passed ++ [ret] = m.selectionVector := by
      exact hanswers.trans (take_of_length_le (hm.size.trans hlast.symm ▸ Nat.le_refl _))
    have hempty : (m.availableRands - 1).toNat = 0 := by omega
    refine .inr ⟨⟨by rw [hall, hm.size], by rw [hall, hm.marks]⟩, ?_⟩
    exact
      { paramn := hm.paramn
        paramN := hm.paramN
        size := hm.size
        empty := UInt64.toNat_inj.mp hempty
        counted := .inr (UInt64.toNat_inj.mp (by rw [hcounter, hall, hm.marks])) }

/-! ## Runs -/

def answers : List (Step SamplingNoutOfN (List Int32) Bool) → List Bool
  | [] => []
  | st :: tr => answers tr ++ [st.out]

structure Sampled (n N : UInt64) (given : List Bool) (m : SamplingNoutOfN) : Prop where
  split : ∃ (blocks : List (List Bool)) (passed : List Bool),
    given = blocks.flatten ++ passed ∧ (∀ block ∈ blocks, Exact n N block) ∧
      (Ready n N passed m ∧ passed ≠ [] ∨ passed = [] ∧ Between n N m)

/-- One call: it returns, and the answers are still blocks, or its loop needs more numbers. -/
theorem sampled_frameCall {given : List Bool} (hN : 0 < N.toNat)
    (hm : Sampled n N given m) (hrange : InRange N draws) :
    (∃ m' ret, m.frameCall draws = .ok (m', ret) ∧ Sampled n N (given ++ [ret]) m') ∨
      m.frameCall draws = .error .drawing := by
  obtain ⟨blocks, passed, hgiven, hblocks, hstate⟩ := hm.split
  have hprepared : (∃ m', m.prepare draws = .ok m' ∧ Ready n N passed m') ∨
      m.prepare draws = .error .drawing := by
    obtain ⟨hready, -⟩ | ⟨rfl, hbetween⟩ := hstate
    · exact .inl ⟨m, prepare_ready hready draws, hready⟩
    · exact prepare_between hN hbetween hrange
  rw [SamplingNoutOfN.frameCall]
  obtain ⟨m', hprepare, hready⟩ | hdrawing := hprepared
  · obtain ⟨m'', ret, hselect, hnext⟩ := select_ready hready
    refine .inl ⟨m'', ret, bind_eq_ok.mpr ⟨m', hprepare, hselect⟩, ⟨?_⟩⟩
    rw [hgiven, append_assoc]
    obtain hready' | ⟨hexact, hbetween⟩ := hnext
    · exact ⟨blocks, passed ++ [ret], rfl, hblocks, .inl ⟨hready', by simp⟩⟩
    refine ⟨blocks ++ [passed ++ [ret]], [], by simp, ?_, .inr ⟨rfl, hbetween⟩⟩
    intro block hblock
    obtain hold | hnew := mem_append.mp hblock
    · exact hblocks block hold
    · rw [mem_singleton.mp hnew]
      exact hexact
  · rw [hdrawing]
    exact .inr rfl

theorem between_configure (n N : Int64) :
    Between n.toUInt64 N.toUInt64 (SamplingNoutOfN.new.configure (some n) (some N)).1 :=
  { paramn := rfl
    paramN := rfl
    size := by simp [SamplingNoutOfN.configure, SamplingNoutOfN.new, resize]
    empty := rfl
    counted := .inl rfl }

theorem sampled_configure (n N : Int64) :
    Sampled n.toUInt64 N.toUInt64 [] (SamplingNoutOfN.new.configure (some n) (some N)).1 :=
  ⟨[], [], rfl, forall_mem_nil _, .inr ⟨rfl, between_configure n N⟩⟩

theorem sampled_run {n N : Int64} (hN : 0 < N.toUInt64.toNat)
    {tr : List (Step SamplingNoutOfN (List Int32) Bool)}
    (hrun : Run SamplingNoutOfN.frameCall (SamplingNoutOfN.new.configure (some n) (some N)).1 tr m)
    (hrange : ∀ st ∈ tr, InRange N.toUInt64 st.event) :
    Sampled n.toUInt64 N.toUInt64 (answers tr) m := by
  induction hrun with
  | start => exact sampled_configure n N
  | next hbefore hstep ih =>
    have hm := ih fun st hst => hrange st (mem_cons_of_mem _ hst)
    obtain ⟨m', ret, hcall, hsampled⟩ | hdrawing :=
      sampled_frameCall hN hm (hrange _ mem_cons_self)
    · rw [hcall] at hstep
      obtain ⟨rfl, rfl⟩ := Prod.mk.inj (Except.ok.inj hstep)
      exact hsampled
    · rw [hdrawing] at hstep
      cases hstep

/-- Exactly n frames of each block of N frames are passed on, and no `assert` fails. -/
theorem sampling_exact {n N : Int64} (hn : 0 ≤ n.toInt) (hN : 1 ≤ N.toInt)
    {tr : List (Step SamplingNoutOfN (List Int32) Bool)} {m : SamplingNoutOfN}
    (hrun : Run SamplingNoutOfN.frameCall (SamplingNoutOfN.new.configure (some n) (some N)).1 tr m)
    (hrange : ∀ st ∈ tr, InRange N.toUInt64 st.event) :
    (∃ (blocks : List (List Bool)) (passed : List Bool), answers tr = blocks.flatten ++ passed ∧
        (∀ block ∈ blocks, block.length = N.toInt ∧ block.count true = n.toInt) ∧
        passed.length < N.toInt) ∧
      ∀ draws, InRange N.toUInt64 draws →
        (∃ m' ret, m.frameCall draws = .ok (m', ret)) ∨ m.frameCall draws = .error .drawing := by
  have hsameN := toNat_toUInt64_of_nonneg (n := N) (by omega)
  have hsamen := toNat_toUInt64_of_nonneg hn
  have hpos : 0 < N.toUInt64.toNat := by omega
  have hsampled := sampled_run hpos hrun hrange
  constructor
  · obtain ⟨blocks, passed, hgiven, hblocks, hstate⟩ := hsampled.split
    refine ⟨blocks, passed, hgiven, ?_, ?_⟩
    · intro block hblock
      obtain ⟨hlength, hcount⟩ := hblocks block hblock
      rw [hlength, hcount]
      exact ⟨hsameN, hsamen⟩
    · obtain ⟨hready, -⟩ | ⟨rfl, -⟩ := hstate
      · have hshort := hready.short
        omega
      · change (0 : Int) < _
        omega
  · intro draws hdraws
    obtain ⟨m', ret, hcall, -⟩ | hdrawing := sampled_frameCall hpos hsampled hdraws
    · exact .inl ⟨m', ret, hcall⟩
    · exact .inr hdrawing

/-! ## The end of the drawing loop -/

/-- The last number of `boost::uniform_int<> (0, N - 1)`, which has an `int` for it. -/
def lastRand (N : UInt64) : Int := (N - 1).toInt64.toInt32.toInt

def Drawn (N : UInt64) (draws : List Int32) : Prop :=
  ∀ rand ∈ draws, 0 ≤ rand.toInt ∧ rand.toInt ≤ lastRand N

theorem lastRand_lt (h : 0 ≤ lastRand N) : lastRand N < N.toNat := by
  have hsub : (N - 1).toNat = (2 ^ 64 - 1 + N.toNat) % 2 ^ 64 := UInt64.toNat_sub N 1
  have hlong : (N - 1).toInt64.toInt = Int.bmod (N - 1).toNat (2 ^ 64) :=
    BitVec.toInt_eq_toNat_bmod _
  have hint : lastRand N = Int.bmod (N - 1).toInt64.toInt (2 ^ 32) := Int64.toInt_toInt32 _
  rw [hlong, Int.bmod_def, Int.bmod_def] at hint
  omega

theorem Drawn.inRange (h : Drawn N draws) : InRange N draws := by
  intro rand hrand
  obtain ⟨hnonneg, hle⟩ := h rand hrand
  have hlast := lastRand_lt (N := N) (by omega)
  omega

theorem draw_marked {P : Nat → Prop} (hdraws : ∀ rand ∈ draws, P rand.toInt64.toUInt64.toNat) :
    ∀ {i : UInt64} {bits bits' : List Bool}, (∀ p, bits[p]? = some true → P p) →
      draw n draws i bits = .ok bits' → ∀ p, bits'[p]? = some true → P p := by
  induction draws with
  | nil =>
    intro i bits bits' hbits h
    obtain ⟨-, h⟩ := unless_eq_ok.mp h
    exact Except.ok.inj h ▸ hbits
  | cons rand draws ih =>
    intro i bits bits' hbits h
    obtain ⟨hrand, hrest⟩ := forall_mem_cons.mp hdraws
    rw [draw] at h
    split at h
    · dsimp only at h
      split at h
      · cases h
      · exact ih hrest hbits h
      refine ih hrest (fun p hp => ?_) h
      by_cases hsame : rand.toInt64.toUInt64.toNat = p
      · exact hsame ▸ hrand
      · rw [getElem?_set_ne hsame] at hp
        exact hbits p hp
    · exact Except.ok.inj h ▸ hbits

theorem draw_in_order {k : Nat} : ∀ {i : UInt64} {bits : List Bool}, i.toNat + k = n.toNat →
    n.toNat ≤ 2147483648 → n.toNat ≤ bits.length →
    (∀ p, i.toNat ≤ p → p < bits.length → bits[p]? = some false) →
    draw n ((range' i.toNat k).map Int32.ofNat) i bits ≠ .error .drawing := by
  induction k with
  | zero =>
    intro i bits hk hint hlength hfree
    have hdone : ¬ i < n := by
      rw [UInt64.lt_iff_toNat_lt]
      omega
    rw [range'_zero, map_nil, draw, if_neg hdone]
    apply ok_ne_error
  | succ k ih =>
    intro i bits hk hint hlength hfree
    have hmore : i < n := UInt64.lt_iff_toNat_lt.mpr (by omega)
    have hnext : (i + 1).toNat = i.toNat + 1 := toNat_add_one (by omega)
    have hposition : (Int32.ofNat i.toNat).toInt64.toUInt64.toNat = i.toNat := by
      have hint := (toInt_ofNat_eq_iff i.toNat).mpr (by omega)
      have hsame := toNat_toUInt64 (Int32.ofNat i.toNat)
      omega
    rw [range'_succ, map_cons, draw, if_pos hmore, hposition]
    dsimp only
    rw [hfree i.toNat (Nat.le_refl _) (by omega), ← hnext]
    apply ih (by omega) hint (by rw [length_set]; exact hlength)
    intro p hp hlt
    rw [length_set] at hlt
    rw [getElem?_set_ne (by omega)]
    exact hfree p (by omega) hlt

theorem count_marked {last : Int}
    (h : ∀ p : Nat, bits[p]? = some true → p ≤ last) : bits.count true ≤ (last + 1).toNat := by
  have hrest : (bits.drop (last + 1).toNat).count true = 0 := by
    rw [count_eq_zero]
    intro hmem
    obtain ⟨i, hi⟩ := mem_iff_getElem?.mp hmem
    rw [getElem?_drop] at hi
    have hle := h _ hi
    omega
  rw [← take_append_drop (last + 1).toNat bits, count_append, hrest, Nat.add_zero]
  exact Nat.le_trans count_le_length (length_take_le _ _)

theorem enough_of_answered {m' : SamplingNoutOfN} {ret : Bool}
    (hm : Between n N m) (hdraws : Drawn N draws) (h : m.frameCall draws = .ok (m', ret)) :
    N ≠ 0 ∧ n.toNat ≤ (lastRand N + 1).toNat := by
  obtain ⟨m₁, hprepare, hselect⟩ := bind_eq_ok.mp h
  rw [hm.prepare_eq] at hprepare
  obtain ⟨bits, hdraw, hm₁⟩ := bind_eq_ok.mp hprepare
  obtain ⟨bits', hsame, hsize, hmarks⟩ | hdrawing :=
    draw_spec (n := n) (i := 0) hdraws.inRange hm.length_reset (count_reset _) (Nat.zero_le _)
  · cases hdraw.symm.trans hsame
    cases hm₁
    constructor
    · rintro rfl
      have hnot : ¬ (m.N - 1).toNat < bits.length := by
        rw [hsize]
        apply Nat.not_lt_zero
      rw [SamplingNoutOfN.select, if_neg hnot] at hselect
      cases hselect
    · rw [← hmarks]
      apply count_marked
      refine draw_marked (fun rand hrand => ?_) (fun p hp => ?_) hdraw
      · obtain ⟨hnonneg, hle⟩ := hdraws rand hrand
        rw [toNat_toUInt64, if_pos hnonneg]
        exact hle
      · have hnone := count_eq_zero.mp (count_reset m.selectionVector)
        exact absurd (mem_of_getElem? hp) hnone
  · cases hdraw.symm.trans hdrawing

theorem prepare_ends (hN : N ≠ 0) (hn : n.toNat ≤ (lastRand N + 1).toNat) (hm : Between n N m) :
    ∃ draws, Drawn N draws ∧ ∃ m', m.prepare draws = .ok m' ∧ Ready n N [] m' := by
  have hpos : 0 < N.toNat := Nat.pos_of_ne_zero fun hzero => hN (UInt64.toNat_inj.mp hzero)
  have hlast : lastRand N < 2 ^ 31 := Int32.toInt_lt _
  have hdrawn : Drawn N ((range' 0 n.toNat).map Int32.ofNat) := by
    intro rand hrand
    obtain ⟨p, hp, rfl⟩ := mem_map.mp hrand
    rw [mem_range'_1] at hp
    rw [(toInt_ofNat_eq_iff p).mpr (by omega)]
    omega
  refine ⟨_, hdrawn, ?_⟩
  obtain hok | hdrawing := prepare_between hpos hm hdrawn.inRange
  · exact hok
  have hle : n.toNat ≤ N.toNat := by
    by_cases hzero : 0 ≤ lastRand N
    · have hlt := lastRand_lt hzero
      omega
    · omega
  have hsize := hm.length_reset
  rw [hm.prepare_eq] at hdrawing
  refine absurd hdrawing (bind_ne_error ?_ fun _ _ => ok_ne_error)
  apply draw_in_order (i := 0) (Nat.zero_add _) (by omega) (by omega)
  intro p _ hlt
  rw [reset, length_map] at hlt
  rw [reset, getElem?_map, getElem?_eq_getElem hlt]
  rfl

/-- The next frame can be answered exactly if there are n numbers to be drawn. -/
theorem drawing_ends_iff (n N : Int64) :
    (∀ tr m, Run SamplingNoutOfN.frameCall
          (SamplingNoutOfN.new.configure (some n) (some N)).1 tr m →
        (∀ st ∈ tr, Drawn N.toUInt64 st.event) →
        ∃ draws, Drawn N.toUInt64 draws ∧ ∃ m' ret, m.frameCall draws = .ok (m', ret)) ↔
      N.toUInt64 ≠ 0 ∧ n.toUInt64.toNat ≤ (lastRand N.toUInt64 + 1).toNat := by
  constructor
  · intro h
    obtain ⟨draws, hdraws, m', ret, hcall⟩ := h [] _ .start (forall_mem_nil _)
    exact enough_of_answered (between_configure n N) hdraws hcall
  · rintro ⟨hN, hn⟩ tr m hrun hdrawn
    have hpos : 0 < N.toUInt64.toNat := Nat.pos_of_ne_zero fun h => hN (UInt64.toNat_inj.mp h)
    have hsampled := sampled_run hpos hrun fun st hst => (hdrawn st hst).inRange
    obtain ⟨_, passed, -, -, hstate⟩ := hsampled.split
    have hprepared : ∃ draws, Drawn N.toUInt64 draws ∧
        ∃ m', m.prepare draws = .ok m' ∧ Ready n.toUInt64 N.toUInt64 passed m' := by
      obtain ⟨hready, -⟩ | ⟨rfl, hbetween⟩ := hstate
      · exact ⟨[], forall_mem_nil _, m, prepare_ready hready [], hready⟩
      · exact prepare_ends hN hn hbetween
    obtain ⟨draws, hdraws, m₁, hprepare, hready⟩ := hprepared
    obtain ⟨m', ret, hselect, -⟩ := select_ready hready
    exact ⟨draws, hdraws, m', ret, bind_eq_ok.mpr ⟨m₁, hprepare, hselect⟩⟩

theorem three_of_two_not_drawn :
    (SamplingNoutOfN.new.configure (some 3) (some 2)).2 = true ∧
      ¬ ∃ draws, Drawn 2 draws ∧ ∃ m' ret,
        (SamplingNoutOfN.new.configure (some 3) (some 2)).1.frameCall draws = .ok (m', ret) := by
  refine ⟨rfl, ?_⟩
  rintro ⟨draws, hdraws, m', ret, hcall⟩
  have henough := (enough_of_answered (between_configure 3 2) hdraws hcall).2
  revert henough
  decide

def twoOfThree : List (List Int32) := [[0, 0, 2], [], [], [1, 2]]

instance (N : UInt64) (draws : List Int32) : Decidable (InRange N draws) :=
  List.decidableBAll _ draws

theorem sampling_exact_twoOfThree :
    ∃ (blocks : List (List Bool)) (passed : List Bool),
      [true, false, true, false] = blocks.flatten ++ passed ∧
        (∀ block ∈ blocks, (block.length : Int) = 3 ∧ (block.count true : Int) = 2) ∧
        (passed.length : Int) < 3 := by
  have hrun : replays SamplingNoutOfN.frameCall
      (SamplingNoutOfN.new.configure (some 2) (some 3)).1 twoOfThree = true := by
    decide +kernel
  exact (sampling_exact (by decide) (by decide) (run_of_replays hrun) (by decide +kernel)).1

end WormsAttack.Distack.Sampling
