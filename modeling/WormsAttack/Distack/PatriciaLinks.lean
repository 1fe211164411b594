/-
  The nodes in memory are a Patricia tree.

  The links that go down form a tree, the others are the ends of its branches.
-/
import WormsAttack.Foundation.Run
import WormsAttack.Distack.PatriciaTrie
import WormsAttack.Foundation.Patricia

namespace WormsAttack.Distack.PatriciaTrie

open Foundation Foundation.Patricia List Function Memory Patricia.Tree

/-! ## Bits of keys -/

theorem bitGet_natCast (bytes : List UInt8) (n : Nat) :
    bitGet bytes n = ((bytes.getD (n / 8) 0).toNat.testBit (7 - n % 8)).toNat := by
  have hnonneg : ¬ (n : Int) < 0 := by omega
  unfold bitGet
  rw [if_neg hnonneg, Int.toNat_natCast]
  rw [Nat.shiftRight_and_distrib, Nat.shiftLeft_shiftRight, Nat.toNat_testBit,
    Nat.shiftRight_eq_div_pow, Nat.and_one_is_mod]

theorem bitGet_eq_iff (xs ys : List UInt8) (n : Nat) :
    bitGet xs n = bitGet ys n ↔
      (xs.getD (n / 8) 0).toNat.testBit (7 - n % 8) =
        (ys.getD (n / 8) 0).toNat.testBit (7 - n % 8) := by
  rw [bitGet_natCast, bitGet_natCast]
  cases (xs.getD (n / 8) 0).toNat.testBit (7 - n % 8) <;>
    cases (ys.getD (n / 8) 0).toNat.testBit (7 - n % 8) <;> decide

theorem bitGet_drop (bytes : List UInt8) (n d : Nat) :
    bitGet (bytes.drop n) d = bitGet bytes ((8 * n + d : Nat) : Int) := by
  have hbyte : (8 * n + d) / 8 = n + d / 8 := by omega
  have hbit : (8 * n + d) % 8 = d % 8 := by omega
  rw [bitGet_natCast, bitGet_natCast, hbyte, hbit]
  simp only [getD_eq_getElem?_getD, getElem?_drop]

theorem exists_bit_ne {x y : UInt8} (h : x ≠ y) :
    ∃ d < 8, x.toNat.testBit (7 - d) ≠ y.toNat.testBit (7 - d) := by
  by_contra hall
  refine h (UInt8.toNat_inj.mp (Nat.eq_of_testBit_eq fun i => ?_))
  rcases Nat.lt_or_ge i 8 with hi | hi
  · by_contra hne
    refine hall ⟨7 - i, by omega, ?_⟩
    have hback : 7 - (7 - i) = i := by omega
    rw [hback]
    exact hne
  · have hlt : ∀ z : UInt8, z.toNat < 2 ^ i :=
      fun z => Nat.lt_of_lt_of_le z.toNat_lt (Nat.pow_le_pow_right (by omega) hi)
    rw [Nat.testBit_lt_two_pow (hlt x), Nat.testBit_lt_two_pow (hlt y)]

theorem firstDifferentByte_spec {xs ys : List UInt8} (hlength : xs.length = ys.length)
    (hne : xs ≠ ys) :
    firstDifferentByte xs ys < xs.length ∧
      (∀ j < firstDifferentByte xs ys, xs.getD j 0 = ys.getD j 0) ∧
      xs.getD (firstDifferentByte xs ys) 0 ≠ ys.getD (firstDifferentByte xs ys) 0 := by
  induction xs generalizing ys with
  | nil => exact absurd (length_eq_zero_iff.mp hlength.symm).symm hne
  | cons x xs ih =>
    cases ys with
    | nil => cases hlength
    | cons y ys =>
      unfold firstDifferentByte
      split_ifs with heq
      · subst heq
        have hrest : xs ≠ ys := fun h => hne (congrArg (x :: ·) h)
        obtain ⟨hlt, hbefore, hat⟩ := ih (Nat.succ.inj hlength) hrest
        refine ⟨Nat.succ_lt_succ hlt, fun j hj => ?_, hat⟩
        cases j with
        | zero => rfl
        | succ j => exact hbefore j (Nat.lt_of_succ_lt_succ hj)
      · exact ⟨Nat.succ_pos _, fun j hj => absurd hj (Nat.not_lt_zero j), heq⟩

theorem firstDifferentBit_spec {k₁ k₂ : List UInt8} {fuel d : Nat}
    (h : ∃ e, d ≤ e ∧ e < d + fuel ∧ bitGet k₁ e ≠ bitGet k₂ e) :
    firstDifferentBit k₁ k₂ fuel d < d + fuel ∧
      (∀ j : Nat, d ≤ j → j < firstDifferentBit k₁ k₂ fuel d → bitGet k₁ j = bitGet k₂ j) ∧
      bitGet k₁ (firstDifferentBit k₁ k₂ fuel d) ≠ bitGet k₂ (firstDifferentBit k₁ k₂ fuel d) := by
  induction fuel generalizing d with
  | zero =>
    omega
  | succ fuel ih =>
    unfold firstDifferentBit
    split_ifs with heq
    · obtain ⟨e, hde, hlt, hne⟩ := h
      have hnext : d ≠ e := by
        rintro rfl
        exact hne heq
      obtain ⟨hbound, hbefore, hat⟩ := ih (d := d + 1) ⟨e, by omega, by omega, hne⟩
      refine ⟨by omega, fun j hdj hj => ?_, hat⟩
      rcases Nat.eq_or_lt_of_le hdj with rfl | hdj
      · exact heq
      · exact hbefore j hdj hj
    · exact ⟨by omega, fun j hdj hj => by omega, heq⟩

section Bits

variable {w : Nat}

def bitsOf (k : Key w) (n : Nat) : Bool := bitGet k.toList n != 0

theorem bitsOf_eq (k : Key w) (n : Nat) :
    bitsOf k n = (k.toList.getD (n / 8) 0).toNat.testBit (7 - n % 8) := by
  unfold bitsOf
  rw [bitGet_natCast]
  cases (k.toList.getD (n / 8) 0).toNat.testBit (7 - n % 8) <;> rfl

theorem differAt_bitFirstDifferent {k₁ k₂ : Key w} (h : k₁ ≠ k₂) :
    DifferAt (bitFirstDifferent k₁ k₂) (bitsOf k₁) (bitsOf k₂) ∧
      bitFirstDifferent k₁ k₂ < 8 * w := by
  have hlists : k₁.toList ≠ k₂.toList := fun heq => h (Vector.toList_inj.mp heq)
  have hlength : k₁.toList.length = k₂.toList.length := by simp
  obtain ⟨hlt, hbytes, hbyte⟩ := firstDifferentByte_spec hlength hlists
  unfold bitFirstDifferent
  simp only
  generalize hn : firstDifferentByte k₁.toList k₂.toList = n at hlt hbytes hbyte ⊢
  have hbit : ∃ e, 0 ≤ e ∧ e < 0 + 8 ∧
      bitGet (k₁.toList.drop n) (e : Nat) ≠ bitGet (k₂.toList.drop n) (e : Nat) := by
    obtain ⟨d, hd, hne⟩ := exists_bit_ne hbyte
    refine ⟨d, Nat.zero_le d, by omega, ?_⟩
    have hbyteno : (8 * n + d) / 8 = n := by omega
    have hbitno : (8 * n + d) % 8 = d := by omega
    rw [bitGet_drop, bitGet_drop, Ne, bitGet_eq_iff, hbyteno, hbitno]
    exact hne
  obtain ⟨hd, hbefore, hat⟩ := firstDifferentBit_spec hbit
  generalize firstDifferentBit (k₁.toList.drop n) (k₂.toList.drop n) 8 0 = d at hd hbefore hat ⊢
  have hshift : (n <<< 3) + d = 8 * n + d := by
    omega
  have hwidth : k₁.toList.length = w := by simp
  rw [hshift]
  refine ⟨⟨fun j hj => ?_, ?_⟩, by omega⟩
  · rcases Nat.lt_or_ge j (8 * n) with hbefore' | hafter
    · rw [bitsOf_eq, bitsOf_eq, hbytes (j / 8) (by omega)]
    · obtain ⟨e, rfl⟩ := Nat.exists_eq_add_of_le hafter
      have heq := hbefore e (Nat.zero_le e) (by omega)
      rw [bitGet_drop, bitGet_drop] at heq
      unfold bitsOf
      rw [heq]
  · rw [bitGet_drop, bitGet_drop, Ne, bitGet_eq_iff] at hat
    rw [bitsOf_eq, bitsOf_eq]
    exact hat

end Bits

/-! ## Trees in memory -/

section Memory

variable {w : Nat} {T : Type}

def NodeCell (cells : Nat → Option (Node w T)) (a : Nat) (bit : Int) (left right : Nat) : Prop :=
  ∃ node, cells a = some node ∧ node.bitIndex = bit ∧ node.left = left ∧ node.right = right

def Stored (cells : Nat → Option (Node w T)) : Patricia.Tree Nat → Prop
  | .up _ => True
  | .node a b l r => NodeCell cells a b l.root r.root ∧ Stored cells l ∧ Stored cells r

/-- The way from the head to a place that is linked as `x`. -/
def CtxStored (cells : Nat → Option (Node w T)) (head : Nat) : List (Frame Nat) → Nat → Prop
  | [], x => NodeCell cells head (-1) head x
  | f :: fs, x =>
      (if f.right then NodeCell cells f.label f.bit f.other.root x
        else NodeCell cells f.label f.bit x f.other.root) ∧
        Stored cells f.other ∧ CtxStored cells head fs f.label

theorem root_fill (f : Frame Nat) (t : Patricia.Tree Nat) : (f.fill t).root = f.label := by
  unfold Frame.fill
  split_ifs <;> rfl

variable {cells : Nat → Option (Node w T)} {t : Patricia.Tree Nat} {fs : List (Frame Nat)}
  {head : Nat} {node : Node w T} {a : Nat} {m : Memory w T} {cells' : Nat → Option (Node w T)}
  {k : Key w} {below : Int → Bool} {x : Patricia.Tree Nat}

theorem stored_fill {f : Frame Nat} :
    Stored cells (f.fill t) ↔
      (if f.right then NodeCell cells f.label f.bit f.other.root t.root
        else NodeCell cells f.label f.bit t.root f.other.root) ∧
        Stored cells f.other ∧ Stored cells t := by
  unfold Frame.fill
  split_ifs
  · exact Iff.rfl
  · exact and_congr_right fun _ => and_comm

theorem ctxStored_plug :
    CtxStored cells head [] (plug fs t).root ∧ Stored cells (plug fs t) ↔
      CtxStored cells head fs t.root ∧ Stored cells t := by
  induction fs generalizing t with
  | nil => exact Iff.rfl
  | cons f fs ih =>
    rw [plug, ih, root_fill, stored_fill, CtxStored]
    constructor
    · rintro ⟨houter, hcell, hother, ht⟩
      exact ⟨⟨hcell, hother, houter⟩, ht⟩
    · rintro ⟨⟨hcell, hother, houter⟩, ht⟩
      exact ⟨houter, hcell, hother, ht⟩

def bitsAt (cells : Nat → Option (Node w T)) (a : Nat) : Nat → Bool :=
  match cells a with
  | none => fun _ => false
  | some node => bitsOf node.key

theorem bitsAt_eq (h : cells a = some node) : bitsAt cells a = bitsOf node.key := by
  unfold bitsAt
  rw [h]

structure Represents (m : Memory w T) (head : Nat) (t : Patricia.Tree Nat) : Prop where
  wellFormed : WellFormed (bitsAt m.cells) (8 * w) head t
  headCell : CtxStored m.cells head [] t.root
  stored : Stored m.cells t
  fresh : ∀ a, m.next ≤ a → m.cells a = none

/-! ### Cells -/

theorem Stored.exists_cell (h : Stored cells t) (ha : a ∈ t.nodes) :
    ∃ node, cells a = some node := by
  induction t with
  | up c => cases ha
  | node c b l r ihl ihr =>
    obtain ⟨⟨node, hnode, -⟩, hl, hr⟩ := h
    rcases mem_cons.mp ha with rfl | ha
    · exact ⟨node, hnode⟩
    · rcases mem_append.mp ha with ha | ha
      · exact ihl hl ha
      · exact ihr hr ha

theorem Represents.exists_cell (h : Represents m head t) (ha : a ∈ head :: t.nodes) :
    ∃ node, m.cells a = some node := by
  rcases mem_cons.mp ha with rfl | ha
  · obtain ⟨node, hnode, -⟩ := h.headCell
    exact ⟨node, hnode⟩
  · exact h.stored.exists_cell ha

theorem Memory.read_eq (h : m.cells a = some node) : m.read a = .ok node := by
  unfold Memory.read
  rw [h]

theorem NodeCell.congr {bit : Int} {left right : Nat} (h : NodeCell cells a bit left right)
    (heq : cells' a = cells a) : NodeCell cells' a bit left right := by
  unfold NodeCell
  rw [heq]
  exact h

theorem Stored.congr (h : Stored cells t) (heq : ∀ a ∈ t.nodes, ∀ bit left right,
      NodeCell cells a bit left right → NodeCell cells' a bit left right) : Stored cells' t := by
  induction t with
  | up c => trivial
  | node c b l r ihl ihr =>
    obtain ⟨hcell, hl, hr⟩ := h
    refine ⟨heq c mem_cons_self _ _ _ hcell, ihl hl fun a ha => ?_, ihr hr fun a ha => ?_⟩
    · exact heq a (mem_nodes_left ha)
    · exact heq a (mem_nodes_right ha)

/-! ### The loop down -/

/-- What the test for a link down sees: `b` is the bit number of the node above. -/
def Linked (cells : Nat → Option (Node w T)) : Int → Patricia.Tree Nat → Prop
  | b, .up c => ∃ node, cells c = some node ∧ node.bitIndex ≤ b
  | b, .node a i l r =>
      b < i ∧ NodeCell cells a i l.root r.root ∧ Linked cells i l ∧ Linked cells i r

theorem linked_of_placed {hi : Nat} {scope : Nat → Prop} {lo : Nat} (hplaced : t.Placed hi scope lo)
    (hstored : Stored cells t)
    (hscope : ∀ c, scope c → ∃ node, cells c = some node ∧ node.bitIndex < lo) :
    Linked cells (lo - 1) t := by
  induction t generalizing scope lo with
  | up c =>
    obtain ⟨node, hnode, hlt⟩ := hscope c hplaced
    exact ⟨node, hnode, by omega⟩
  | node a b l r ihl ihr =>
    obtain ⟨hlo, -, hl, hr⟩ := hplaced
    obtain ⟨hcell, hsl, hsr⟩ := hstored
    have hwider : ∀ c, c = a ∨ scope c →
        ∃ node, cells c = some node ∧ node.bitIndex < ((b + 1 : Nat) : Int) := by
      rintro c (rfl | hc)
      · obtain ⟨node, hnode, hbit, -⟩ := hcell
        exact ⟨node, hnode, by omega⟩
      · obtain ⟨node, hnode, hbit⟩ := hscope c hc
        exact ⟨node, hnode, by omega⟩
    have hlow : ((b + 1 : Nat) : Int) - 1 = b := by omega
    have hleft := ihl hl hsl hwider
    have hright := ihr hr hsr hwider
    rw [hlow] at hleft hright
    exact ⟨by omega, hcell, hleft, hright⟩

theorem Represents.linked (h : Represents m head t) : Linked m.cells (-1) t := by
  have hlinked := linked_of_placed h.wellFormed.placed h.stored (by
    rintro c rfl
    obtain ⟨node, hnode, hbit, -⟩ := h.headCell
    exact ⟨node, hnode, by omega⟩)
  exact hlinked

theorem Linked.congr {b : Int} (h : Linked cells b t)
    (heq : ∀ a bit left right, NodeCell cells a bit left right → NodeCell cells' a bit left right) :
    Linked cells' b t := by
  induction t generalizing b with
  | up c =>
    obtain ⟨node, hnode, hle⟩ := h
    obtain ⟨node', hnode', hbit, -⟩ := heq c _ _ _ ⟨node, hnode, rfl, rfl, rfl⟩
    exact ⟨node', hnode', hbit ▸ hle⟩
  | node a i l r ihl ihr =>
    obtain ⟨hlt, hcell, hl, hr⟩ := h
    exact ⟨hlt, heq _ _ _ _ hcell, ihl hl, ihr hr⟩

def grandparent (pp : Option Nat) (p : Nat) : List (Frame Nat) → Option Nat
  | [] => pp
  | _ :: fs => some (parent p fs)

theorem grandparent_append (pp : Option Nat) (p : Nat) (fs : List (Frame Nat)) (f : Frame Nat) :
    grandparent pp p (fs ++ [f]) = grandparent (some p) f.label fs := by
  cases fs with
  | nil => rfl
  | cons g gs => exact congrArg some (parent_append p gs f)

/-- Where the loop ends: at the end of a branch, or at a node that is not one of `below`. -/
structure Descent (k : Key w) (below : Int → Bool) (t : Patricia.Tree Nat) (fs : List (Frame Nat))
    (x : Patricia.Tree Nat) : Prop where
  plug_eq : plug fs x = t
  frames : ∀ f ∈ fs, f.right = bitsOf k f.bit ∧ below f.bit = true
  stops : ∀ a b l r, x = .node a b l r → below b = false

theorem link_eq {b : Nat} (hbit : node.bitIndex = b) (k : Key w) :
    link node k = if bitsOf k b then node.right else node.left := by
  unfold link bitsOf
  rw [hbit]
  simp

theorem descend_step {p x fuel : Nat} {pnode : Node w T} (pp : Option Nat)
    (hp : m.cells p = some pnode) (hx : m.cells x = some node) :
    m.descend k below (fuel + 1) pp p x =
      if pnode.bitIndex < node.bitIndex ∧ below node.bitIndex = true then
        m.descend k below fuel (some p) x (link node k)
      else .ok (pp, p, x) := by
  rw [descend, read_eq hp, read_eq hx]
  rfl

theorem Descent.step {s : Patricia.Tree Nat} (h : Descent k below s fs x) {f : Frame Nat}
    (hside : f.right = bitsOf k f.bit) (hbelow : below f.bit = true) :
    Descent k below (f.fill s) (fs ++ [f]) x := by
  refine ⟨?_, fun g hg => ?_, h.stops⟩
  · rw [plug_append, h.plug_eq]
    rfl
  · rcases mem_append.mp hg with hg | hg
    · exact h.frames g hg
    · rw [mem_singleton.mp hg]
      exact ⟨hside, hbelow⟩

theorem descend_spec (k : Key w) (below : Int → Bool) {p : Nat} {pnode : Node w T} {fuel : Nat}
    (pp : Option Nat) (hp : m.cells p = some pnode) (hlinked : Linked m.cells pnode.bitIndex t)
    (hfuel : t.depth < fuel) :
    ∃ fs x, Descent k below t fs x ∧
      m.descend k below fuel pp p t.root = .ok (grandparent pp p fs, parent p fs, x.root) := by
  induction t generalizing p pnode fuel pp with
  | up c =>
    obtain ⟨fuel, rfl⟩ := Nat.exists_eq_add_of_le' (Nat.one_le_of_lt hfuel)
    obtain ⟨node, hnode, hle⟩ := hlinked
    refine ⟨[], .up c, ⟨rfl, forall_mem_nil _, nofun⟩, ?_⟩
    rw [descend_step pp hp (show m.cells (up c).root = _ from hnode), if_neg (by omega)]
    rfl
  | node a i l r ihl ihr =>
    obtain ⟨fuel, rfl⟩ := Nat.exists_eq_add_of_le' (Nat.one_le_of_lt hfuel)
    obtain ⟨hlt, ⟨node, hnode, hbit, hleft, hright⟩, hl, hr⟩ := hlinked
    have hdepth : max l.depth r.depth < fuel := by
      unfold depth at hfuel
      omega
    rw [descend_step pp hp (show m.cells (Patricia.Tree.node a i l r).root = _ from hnode), hbit]
    cases hbelow : below i with
    | false =>
      refine ⟨[], .node a i l r, ⟨rfl, forall_mem_nil _, ?_⟩, if_neg (by simp)⟩
      rintro a' i' l' r' heq
      cases heq
      exact hbelow
    | true =>
      rw [if_pos ⟨hlt, rfl⟩, link_eq hbit]
      cases hk : bitsOf k i with
      | false =>
        obtain ⟨fs, x, hdescent, hok⟩ :=
          ihl (some p) hnode (hbit ▸ hl) (Nat.lt_of_le_of_lt (Nat.le_max_left _ _) hdepth)
        refine ⟨_, x, hdescent.step (f := ⟨a, i, false, r⟩) hk.symm hbelow, ?_⟩
        rw [grandparent_append, parent_append, ← hok, ← hleft]
        rfl
      | true =>
        obtain ⟨fs, x, hdescent, hok⟩ :=
          ihr (some p) hnode (hbit ▸ hr) (Nat.lt_of_le_of_lt (Nat.le_max_right _ _) hdepth)
        refine ⟨_, x, hdescent.step (f := ⟨a, i, true, l⟩) hk.symm hbelow, ?_⟩
        rw [grandparent_append, parent_append, ← hok, ← hright]
        rfl

theorem Descent.find_eq (h : Descent k below t fs x) : t.find (bitsOf k) = x.find (bitsOf k) := by
  rw [← h.plug_eq]
  exact find_plug fun f hf => (h.frames f hf).1

theorem Descent.eq_up (h : Descent k (fun _ => true) t fs x) : x = .up (t.find (bitsOf k)) := by
  rw [h.find_eq]
  cases x with
  | up c => rfl
  | node a b l r => cases h.stops a b l r rfl

section Operations

variable {m : Memory w T} {head : Nat} {t : Patricia.Tree Nat}

structure Hangs (m : Memory w T) (head : Nat) (t : Patricia.Tree Nat) : Prop where
  headCell : CtxStored m.cells head [] t.root
  linked : Linked m.cells (-1) t
  depth_lt : t.depth < Memory.bound w

theorem Represents.hangs (h : Represents m head t) : Hangs m head t where
  headCell := h.headCell
  linked := h.linked
  depth_lt := Nat.lt_succ_of_le (h.wellFormed.placed.depth_le (Nat.zero_le _))

theorem Hangs.descend (h : Hangs m head t) (k : Key w) (below : Int → Bool) :
    ∃ root fs x, m.cells head = some root ∧ Descent k below t fs x ∧
      m.descend k below (bound w) none head root.right =
        .ok (grandparent none head fs, parent head fs, x.root) := by
  obtain ⟨root, hroot, hbit, -, hright⟩ := h.headCell
  obtain ⟨fs, x, hdescent, hok⟩ :=
    descend_spec k below none hroot (hbit ▸ h.linked) h.depth_lt
  exact ⟨root, fs, x, hroot, hdescent, hright ▸ hok⟩

theorem Hangs.lookupGroup (h : Hangs m head t) (k : Key w) :
    m.lookupGroup head k = .ok (t.find (bitsOf k)) := by
  obtain ⟨root, fs, x, hroot, hdescent, hok⟩ := h.descend k fun _ => true
  unfold Memory.lookupGroup
  rw [read_eq hroot, ok_bind, hok, hdescent.eq_up]
  rfl

variable {k : Key w} {node : Node w T} {cells : Nat → Option (Node w T)} {a p : Nat}
  {fs : List (Frame Nat)} {x : Nat} {found : Node w T} {d : T}

theorem Hangs.lookupNode (h : Hangs m head t) (hnode : m.cells (t.find (bitsOf k)) = some node) :
    m.lookupNode head k = .ok (if k = node.key then some (t.find (bitsOf k)) else none) := by
  unfold Memory.lookupNode
  rw [h.lookupGroup k, ok_bind, read_eq hnode]
  rfl

theorem Represents.find_mem (h : Represents m head t) (k : Key w) :
    t.find (bitsOf k) ∈ head :: t.nodes :=
  h.wellFormed.perm.mem_iff.mp (t.find_mem_leaves _)

/-! ### Writing a link -/

def keyData (cells : Nat → Option (Node w T)) (a : Nat) : Option (Key w × T) :=
  (cells a).map fun node => (node.key, node.data)

theorem keyData_eq (h : cells a = some node) : keyData cells a = some (node.key, node.data) := by
  unfold keyData
  rw [h]
  rfl

theorem bitsAt_congr {cells' : Nat → Option (Node w T)} {a' : Nat}
    (h : keyData cells' a' = keyData cells a) : bitsAt cells' a' = bitsAt cells a := by
  unfold keyData at h
  unfold bitsAt
  cases hc : cells a with
  | none =>
    rw [hc] at h
    rw [Option.map_eq_none_iff.mp h]
  | some node =>
    rw [hc] at h
    obtain ⟨node', hnode', heq⟩ := Option.map_eq_some_iff.mp h
    rw [hnode']
    exact congrArg bitsOf (congrArg Prod.fst heq)

theorem keyData_update_of_ne (ha : a ≠ p) (cell : Option (Node w T)) :
    keyData (update cells p cell) a = keyData cells a := by
  unfold keyData
  rw [update_of_ne ha]

theorem keyData_setLink (hp : cells p = some node) (k : Key w) (y a : Nat) :
    keyData (update cells p (some (setLink node k y))) a = keyData cells a := by
  by_cases ha : a = p
  · subst ha
    unfold keyData
    rw [update_self, hp]
    unfold setLink
    split_ifs <;> rfl
  · exact keyData_update_of_ne ha _

theorem NodeCell.update_of_ne {bit : Int} {left right : Nat} (h : NodeCell cells a bit left right)
    (hne : a ≠ p) (cell : Option (Node w T)) :
    NodeCell (update cells p cell) a bit left right :=
  h.congr (Function.update_of_ne hne _ _)

theorem Stored.update {t : Patricia.Tree Nat} (h : Stored cells t) (hp : p ∉ t.nodes)
    (cell : Option (Node w T)) : Stored (update cells p cell) t := by
  refine h.congr fun a ha bit left right hcell => hcell.update_of_ne ?_ cell
  rintro rfl
  exact hp ha

theorem CtxStored.congr {cells' : Nat → Option (Node w T)} (h : CtxStored cells head fs x)
    (heq : ∀ a ∈ head :: ctxNodes fs, ∀ bit left right,
      NodeCell cells a bit left right → NodeCell cells' a bit left right) :
    CtxStored cells' head fs x := by
  induction fs generalizing x with
  | nil => exact heq head mem_cons_self _ _ _ h
  | cons f fs ih =>
    obtain ⟨hcell, hother, houter⟩ := h
    have hlabel : f.label ∈ head :: ctxNodes (f :: fs) :=
      mem_cons_of_mem _ mem_cons_self
    refine ⟨?_, hother.congr fun a ha => heq a ?_, ih houter fun a ha => heq a ?_⟩
    · split_ifs at hcell ⊢
      · exact heq _ hlabel _ _ _ hcell
      · exact heq _ hlabel _ _ _ hcell
    · exact mem_cons_of_mem _ (mem_cons_of_mem _ (mem_append_left _ ha))
    · rcases mem_cons.mp ha with rfl | ha
      · exact mem_cons_self
      · exact mem_cons_of_mem _ (mem_cons_of_mem _ (mem_append_right _ ha))

theorem CtxStored.update (h : CtxStored cells head fs x) (hp : p ∉ head :: ctxNodes fs)
    (cell : Option (Node w T)) : CtxStored (update cells p cell) head fs x := by
  refine h.congr fun a ha bit left right hcell => hcell.update_of_ne ?_ cell
  rintro rfl
  exact hp ha

theorem setLink_eq {b : Nat} (hbit : node.bitIndex = b) (k : Key w) (y : Nat) :
    setLink node k y =
      if bitsOf k b then { node with right := y } else { node with left := y } := by
  unfold setLink bitsOf
  rw [hbit]
  simp

theorem CtxStored.rewire (h : CtxStored cells head fs x) (hnodup : (head :: ctxNodes fs).Nodup)
    (hside : ∀ f gs, fs = f :: gs → f.right = bitsOf k f.bit) (y : Nat) :
    ∃ node, cells (parent head fs) = some node ∧
      CtxStored (Function.update cells (parent head fs) (some (setLink node k y)))
        head fs y := by
  cases fs with
  | nil =>
    obtain ⟨node, hnode, hbit, hleft, hright⟩ := h
    have hpseudo : bitGet k.toList node.bitIndex ≠ 0 := by
      rw [hbit]
      exact Nat.succ_ne_zero 1
    refine ⟨node, hnode, setLink node k y, Function.update_self _ _ _, ?_⟩
    unfold setLink
    rw [if_pos hpseudo]
    exact ⟨hbit, hleft, rfl⟩
  | cons f fs =>
    obtain ⟨hcell, hother, houter⟩ := h
    obtain ⟨hhead, hrest⟩ := nodup_cons.mp hnodup
    obtain ⟨hlabel, -⟩ := nodup_cons.mp hrest
    have hout : f.label ∉ head :: ctxNodes fs := by
      rintro hmem
      rcases mem_cons.mp hmem with heq | hmem
      · exact hhead (heq ▸ mem_cons_self)
      · exact hlabel (mem_append_right _ hmem)
    have hin : f.label ∉ f.other.nodes := fun hmem => hlabel (mem_append_left _ hmem)
    have hnode : ∃ node, cells f.label = some node ∧ node.bitIndex = f.bit ∧
        (if f.right then node.left = f.other.root else node.right = f.other.root) := by
      split_ifs at hcell ⊢ with hright
      · obtain ⟨node, hnode, hbit, hleft, -⟩ := hcell
        exact ⟨node, hnode, hbit, hleft⟩
      · obtain ⟨node, hnode, hbit, -, hright⟩ := hcell
        exact ⟨node, hnode, hbit, hright⟩
    obtain ⟨node, hnode, hbit, hlink⟩ := hnode
    refine ⟨node, hnode, ?_, hother.update hin _, houter.update hout _⟩
    have hset := setLink_eq hbit k y
    rw [← hside f fs rfl] at hset
    split_ifs at hlink hset ⊢
    · exact ⟨_, Function.update_self _ _ _, by rw [hset]; exact ⟨hbit, hlink, rfl⟩⟩
    · exact ⟨_, Function.update_self _ _ _, by rw [hset]; exact ⟨hbit, rfl, hlink⟩⟩

/-! ### Insert -/

theorem nodup_ctx {x : Patricia.Tree Nat} (h : (head :: (plug fs x).nodes).Nodup) :
    (head :: ctxNodes fs).Nodup ∧ ∀ a ∈ x.nodes, a ∉ head :: ctxNodes fs := by
  have hperm : (head :: (plug fs x).nodes).Perm (x.nodes ++ (head :: ctxNodes fs)) :=
    ((nodes_plug fs x).cons head).trans perm_middle.symm
  have hnodup := hperm.nodup_iff.mp h
  obtain ⟨-, hctx, hdisjoint⟩ := nodup_append.mp hnodup
  exact ⟨hctx, fun a ha hmem => hdisjoint a ha a hmem rfl⟩

theorem parent_mem (fs : List (Frame Nat)) : parent head fs ∈ head :: ctxNodes fs := by
  cases fs with
  | nil => exact mem_cons_self
  | cons f fs => exact mem_cons_of_mem _ mem_cons_self

theorem mem_of_mem_ctx {x : Patricia.Tree Nat} (h : a ∈ head :: ctxNodes fs) :
    a ∈ head :: (plug fs x).nodes := by
  rcases mem_cons.mp h with rfl | h
  · exact mem_cons_self
  · exact mem_cons_of_mem _
      ((nodes_plug fs x).mem_iff.mpr (mem_append_right _ h))

theorem Represents.next_not_mem (h : Represents m head t) : m.next ∉ head :: t.nodes := by
  intro hmem
  obtain ⟨node, hnode⟩ := h.exists_cell hmem
  rw [h.fresh m.next (Nat.le_refl _)] at hnode
  cases hnode

theorem newNode_eq (k : Key w) (d : T) (i t x : Nat) :
    newNode k d i t x =
      if bitsOf k i then ⟨i, k, d, x, t⟩ else ⟨i, k, d, t, x⟩ := by
  unfold newNode bitsOf
  simp

theorem Represents.insert_of_mem (h : Represents m head t)
    (hfound : m.cells (t.find (bitsOf k)) = some found) (hk : k = found.key) (d : T) :
    m.insert head k d = .ok (none, m) := by
  unfold Memory.insert
  rw [h.hangs.lookupGroup k, ok_bind, read_eq hfound]
  exact if_pos hk

theorem newNode_key (k : Key w) (d : T) (i : Int) (a x : Nat) :
    (newNode k d i a x).key = k ∧ (newNode k d i a x).data = d := by
  unfold newNode
  split_ifs <;> exact ⟨rfl, rfl⟩

theorem nodeCell_newNode {i : Nat} (h : cells a = some (newNode k d i a x)) :
    if !bitsOf k i then NodeCell cells a i a x else NodeCell cells a i x a := by
  rw [newNode_eq] at h
  cases hside : bitsOf k i with
  | false | true =>
    rw [hside] at h
    exact ⟨_, h, rfl, rfl, rfl⟩

def insertCells (cells : Nat → Option (Node w T)) (k : Key w) (a p : Nat)
    (node pnode : Node w T) : Nat → Option (Node w T) :=
  Function.update (Function.update cells a (some node)) p (some (Memory.setLink pnode k a))

theorem keyData_insertCells {pnode : Node w T} (hp : update cells a (some node) p = some pnode) :
    keyData (insertCells cells k a p node pnode) =
      update (keyData cells) a (some (node.key, node.data)) := by
  funext x
  unfold insertCells
  rw [keyData_setLink hp]
  unfold keyData
  by_cases hx : x = a
  · subst hx
    rw [update_self, update_self]
    rfl
  · rw [update_of_ne hx, update_of_ne hx]

theorem insert_eval {leaf : Nat} {pp : Option Nat} {root pnode : Node w T}
    (hgroup : m.lookupGroup head k = .ok leaf) (hfound : m.cells leaf = some found)
    (hk : k ≠ found.key) (hroot : m.cells head = some root)
    (hdescend : m.descend k (fun b => b < bitFirstDifferent k found.key) (bound w) none
      head root.right = .ok (pp, p, x)) (hpnode : update m.cells m.next
      (some (newNode k d (bitFirstDifferent k found.key) m.next x)) p = some pnode) :
    m.insert head k d = .ok (some m.next, ⟨insertCells m.cells k m.next p
      (newNode k d (bitFirstDifferent k found.key) m.next x) pnode, m.next + 1⟩) := by
  unfold Memory.insert
  rw [hgroup, ok_bind, read_eq hfound]
  change (if k = found.key then _ else _) = _
  rw [if_neg hk, read_eq hroot, ok_bind, hdescend]
  change ((m.alloc (newNode k d _ m.next x)).rewire k p m.next >>= _) = _
  unfold rewire
  rw [read_eq (show (m.alloc _).cells p = some pnode from hpnode)]
  rfl

theorem ctxStored_insert {x : Patricia.Tree Nat} {i : Nat} (h : CtxStored m.cells head fs x.root)
    (hnodup : (head :: ctxNodes fs).Nodup) (hnew : a ∉ head :: ctxNodes fs)
    (hside : ∀ f ∈ fs, f.right = bitsOf k f.bit) :
    ∃ pnode, Function.update m.cells a (some (newNode k d i a x.root)) (parent head fs) =
        some pnode ∧
      CtxStored (insertCells m.cells k a (parent head fs) (newNode k d i a x.root) pnode)
        head (⟨a, i, !bitsOf k i, .up a⟩ :: fs) x.root := by
  obtain ⟨pnode, hpnode, hrewired⟩ := (h.update hnew _).rewire hnodup
    (fun f gs heq => hside f (heq ▸ mem_cons_self)) a
  have hparent : a ≠ parent head fs := fun heq => hnew (heq ▸ parent_mem fs)
  have hcell : insertCells m.cells k a (parent head fs) (newNode k d i a x.root) pnode a =
      some (newNode k d i a x.root) := by
    unfold insertCells
    rw [Function.update_of_ne hparent, Function.update_self]
  exact ⟨pnode, hpnode, nodeCell_newNode hcell, trivial, hrewired⟩

/-- A new key gets a new node, and what the other nodes have stays as it is. -/
theorem Represents.insert_of_not_mem (h : Represents m head t)
    (hfound : m.cells (t.find (bitsOf k)) = some found) (hk : k ≠ found.key) (d : T) :
    ∃ m' t', m.insert head k d = .ok (some m.next, m') ∧ Represents m' head t' ∧
      t'.nodes.Perm (m.next :: t.nodes) ∧
      keyData m'.cells = update (keyData m.cells) m.next (some (k, d)) := by
  obtain ⟨hdiffer, hwidth⟩ := differAt_bitFirstDifferent hk
  obtain ⟨root, fs, x, hroot, ⟨hplug, hframes, hstops⟩, hok⟩ :=
    h.hangs.descend k fun b => b < bitFirstDifferent k found.key
  have hnew := h.next_not_mem
  subst hplug
  obtain ⟨hctx, hdisjoint⟩ := nodup_ctx h.wellFormed.nodup
  obtain ⟨hctxstored, hstored⟩ := ctxStored_plug.mp ⟨h.headCell, h.stored⟩
  obtain ⟨pnode, hpnode, hframe⟩ := ctxStored_insert (d := d) (i := bitFirstDifferent k found.key)
    hctxstored hctx (fun hmem => hnew (mem_of_mem_ctx hmem)) fun f hf => (hframes f hf).1
  have hinsert := insert_eval (h.hangs.lookupGroup k) hfound hk hroot hok hpnode
  have hkeyData := keyData_insertCells (k := k) hpnode
  generalize bitFirstDifferent k found.key = i at *
  rw [(newNode_key k d i m.next x.root).1, (newNode_key k d i m.next x.root).2] at hkeyData
  generalize hcells : insertCells m.cells k m.next (parent head fs)
    (newNode k d i m.next x.root) pnode = cells at *
  have hbits : ∀ c ∈ head :: (plug fs x).nodes, bitsAt cells c = bitsAt m.cells c := by
    intro c hc
    refine bitsAt_congr ?_
    rw [hkeyData]
    refine update_of_ne ?_ _ _
    rintro rfl
    exact hnew hc
  have hbitsnew : bitsAt cells m.next = bitsOf k := by
    have hdata : keyData cells m.next = some (k, d) := by
      rw [hkeyData, update_self]
    obtain ⟨node, hnode, heq⟩ := Option.map_eq_some_iff.mp hdata
    rw [bitsAt_eq hnode]
    exact congrArg bitsOf (congrArg Prod.fst heq)
  have hwell : WellFormed (bitsAt cells) (8 * w) head
      (plug (⟨m.next, i, !bitsOf k i, .up m.next⟩ :: fs) x) := by
    refine (h.wellFormed.congr hbits).insert (fun f hf => ?_) (fun a b l r heq => ?_) hwidth ?_
      hnew hbitsnew
    · obtain ⟨hside, hlt⟩ := hframes f hf
      exact ⟨hside, Int.ofNat_lt.mp (of_decide_eq_true hlt)⟩
    · exact Nat.not_lt.mp fun hlt => absurd (hstops a b l r heq) (by simpa using hlt)
    · rw [hbits _ (h.find_mem k), bitsAt_eq hfound]
      exact hdiffer
  have hxstored : Stored cells x := by
    rw [← hcells]
    refine (hstored.update (fun hmem => ?_) _).update (fun hmem => ?_) _
    · exact hnew (mem_cons_of_mem _ ((nodes_plug fs x).mem_iff.mpr (mem_append_left _ hmem)))
    · exact hdisjoint _ hmem (parent_mem fs)
  obtain ⟨hhead, hall⟩ := ctxStored_plug.mpr ⟨hframe, hxstored⟩
  refine ⟨⟨cells, m.next + 1⟩, _, hinsert, ⟨hwell, hhead, hall, fun a ha => ?_⟩, ?_, hkeyData⟩
  · -- behind the new node there is nothing
    have hle : m.next + 1 ≤ a := ha
    have hnone : keyData cells a = none := by
      rw [hkeyData, update_of_ne (by omega)]
      unfold keyData
      rw [h.fresh a (Nat.le_of_succ_le hle)]
      rfl
    exact Option.map_eq_none_iff.mp hnone
  · refine (nodes_plug _ _).trans ?_
    refine List.Perm.trans ?_ ((nodes_plug fs x).symm.cons m.next)
    exact perm_middle

end Operations

end Memory

end WormsAttack.Distack.PatriciaTrie
