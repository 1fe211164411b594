/-
  When a copy of a trie finds what the trie finds.

  A copy is described cell by cell.  `ρ` gives each node the new one, and `g` says of which node
  the new one is that a link up goes to.
-/
import WormsAttack.Distack.PatriciaMap
import WormsAttack.Foundation.PatriciaEnds

namespace WormsAttack.Distack.PatriciaTrie

open Foundation Foundation.Patricia List Function Memory
open Patricia.Tree hiding node up

variable {w : Nat} {T : Type}

/-! ## What a copy owes -/

namespace Memory

def groupKey (m : Memory w T) (head : Nat) (k : Key w) : Except Stop (Key w) := do
  let x ← m.lookupGroup head k
  let node ← m.read x
  .ok node.key

def nodeData (m : Memory w T) (head : Nat) (k : Key w) : Except Stop (Option T) := do
  match ← m.lookupNode head k with
  | none => .ok none
  | some x =>
      let node ← m.read x
      .ok (some node.data)

def insertAll (m : Memory w T) (head : Nat) : List (Key w × T) → Except Stop (Memory w T)
  | [] => .ok m
  | (k, d) :: rest => do
      let (_, m) ← m.insert head k d
      m.insertAll head rest

end Memory

inductive Reaches (m : Memory w T) (start : Nat) : Nat → Prop
  | start : Reaches m start start
  | left {a : Nat} {node : Node w T} :
      Reaches m start a → m.cells a = some node → Reaches m start node.left
  | right {a : Nat} {node : Node w T} :
      Reaches m start a → m.cells a = some node → Reaches m start node.right

/-- `Copy` gives a trie with nodes of its own that finds the same. -/
def CopyFaithful [DecidableEq T] (m : Memory w T) (head : Nat) : Prop :=
  ∃ newHead m', m.copy head = .ok (newHead, m') ∧
    (∀ a, Reaches m' head a → ¬ Reaches m' newHead a) ∧
    ∀ k, (∃ d, m'.nodeData head k = .ok d ∧ m'.nodeData newHead k = .ok d) ∧
      ∃ key, m'.groupKey head k = .ok key ∧ m'.groupKey newHead k = .ok key

/-- The keys differ for the first time in a bit that only the second one has. -/
def KeyBefore (k k' : Key w) : Prop := ∃ b, SplitAt b (bitsOf k) (bitsOf k')

/-- Wherever a link goes up to another node than the head, this node has the smallest key of
all nodes with its bit number. -/
def BackLinksFirst (m : Memory w T) (head : Nat) : Prop :=
  ∀ a c e nodeA nodeC nodeE, Reaches m head a → Reaches m head e →
    m.cells a = some nodeA → m.cells c = some nodeC → m.cells e = some nodeE →
    (nodeA.left = c ∨ nodeA.right = c) → 0 ≤ nodeC.bitIndex →
    nodeC.bitIndex < nodeA.bitIndex → nodeE.bitIndex = nodeC.bitIndex →
    ¬ KeyBefore nodeE.key nodeC.key

/-! ## Cells of a copy -/

def bitAt (cells : Nat → Option (Node w T)) (a : Nat) : Int :=
  match cells a with
  | none => -1
  | some node => node.bitIndex

variable {cells : Nat → Option (Node w T)} {a : Nat}

theorem bitAt_eq {node : Node w T} (h : cells a = some node) : bitAt cells a = node.bitIndex := by
  unfold bitAt
  rw [h]

def target (cells : Nat → Option (Node w T)) (g : Nat × Bool → Nat) (a : Nat) (right : Bool)
    (c : Nat) : Nat :=
  if bitAt cells a < bitAt cells c then c else g (a, right)

def copyCell (cells : Nat → Option (Node w T)) (ρ : Nat → Nat) (g : Nat × Bool → Nat) (a : Nat) :
    Option (Node w T) :=
  (cells a).map fun node =>
    { node with
      left := ρ (target cells g a false node.left)
      right := ρ (target cells g a true node.right) }

theorem copyCell_eq {node : Node w T} (h : cells a = some node) (ρ : Nat → Nat)
    (g : Nat × Bool → Nat) :
    copyCell cells ρ g a = some { node with
      left := ρ (target cells g a false node.left)
      right := ρ (target cells g a true node.right) } := by
  unfold copyCell
  rw [h]
  rfl

theorem root_relink {i : Int} {right : Bool} {t : Patricia.Tree Nat} (h : Linked cells i t)
    (ha : bitAt cells a = i) (g : Nat × Bool → Nat) :
    (t.relink g (a, right)).root = target cells g a right t.root := by
  unfold target
  cases t with
  | up c =>
    obtain ⟨node, hnode, hle⟩ := h
    rw [show bitAt cells (Patricia.Tree.up c).root = _ from bitAt_eq hnode, ha,
      if_neg (Int.not_lt.mpr hle)]
    rfl
  | node c j l r =>
    obtain ⟨hlt, ⟨node, hnode, hbit, -⟩, -⟩ := h
    rw [show bitAt cells (Patricia.Tree.node c j l r).root = _ from bitAt_eq hnode, ha, hbit,
      if_pos hlt]
    rfl

/-! ## The new nodes -/

/-- A link that does not go down is one to the node itself. -/
def ownPlace (place : Nat × Bool) : Nat := place.1

def Extends (cells₀ cells : Nat → Option (Node w T)) : Prop :=
  ∀ a node, cells₀ a = some node → cells a = some node

section CopyNodes

variable {cells₀ : Nat → Option (Node w T)} {ρ : Nat → Nat}

/-- All cells of the trie are there, and no cell behind the first `n`. -/
structure Grown (cells₀ : Nat → Option (Node w T)) (n : Nat) (m : Memory w T) : Prop where
  keeps : Extends cells₀ m.cells
  next_eq : m.next = n
  fresh : ∀ c, n ≤ c → m.cells c = none

structure NodesCopied (cells₀ : Nat → Option (Node w T)) (ρ : Nat → Nat) (nodes : List Nat)
    (n : Nat) (m m' : Memory w T) : Prop where
  grown : Grown cells₀ (n + nodes.length) m'
  old : ∀ a < n, m'.cells a = m.cells a
  copied : ∀ a ∈ nodes, m'.cells (ρ a) = copyCell cells₀ ρ ownPlace a

variable {n : Nat} {m : Memory w T} {a fuel : Nat}

theorem Grown.next_none (h : Grown cells₀ n m) : cells₀ n = none := by
  cases hcell : cells₀ n with
  | none => rfl
  | some cell =>
    have hkept := h.keeps _ _ hcell
    rw [h.fresh n (Nat.le_refl n)] at hkept
    cases hkept

theorem Extends.update {cells : Nat → Option (Node w T)} (h : Extends cells₀ cells) {new : Nat}
    (hnew : cells₀ new = none) (node : Node w T) :
    Extends cells₀ (update cells new (some node)) := by
  intro c cell hc
  have hne : c ≠ new := by
    rintro rfl
    rw [hnew] at hc
    cases hc
  exact (update_of_ne hne _ _).trans (h c cell hc)

theorem Grown.alloc (h : Grown cells₀ n m) (node : Node w T) :
    Grown cells₀ (n + 1) (m.alloc node) := by
  obtain ⟨hkeeps, rfl, hfresh⟩ := h
  refine ⟨hkeeps.update (Grown.next_none ⟨hkeeps, rfl, hfresh⟩) node, rfl, fun c hc => ?_⟩
  exact (update_of_ne (by omega) _ _).trans (hfresh c (by omega))

theorem Grown.write (h : Grown cells₀ n m) (hnew : cells₀ a = none) (ha : a < n) (node : Node w T) :
    Grown cells₀ n (m.write a node) :=
  ⟨h.keeps.update hnew node, h.next_eq, fun c hc =>
    (update_of_ne (by omega) _ _).trans (h.fresh c hc)⟩

theorem numbering_cons {left right : List Nat}
    (h : (a :: (left ++ right)).map ρ = range' n (a :: (left ++ right)).length) :
    ρ a = n ∧ left.map ρ = range' (n + 1) left.length ∧
      right.map ρ = range' (n + 1 + left.length) right.length := by
  rw [map_cons, length_cons, range'_succ, map_append, length_append, ← range'_append_1] at h
  obtain ⟨hhead, hrest⟩ := cons.inj h
  obtain ⟨hleft, hright⟩ := append_inj hrest (by simp)
  exact ⟨hhead, hleft, hright⟩

theorem numbering_mem {nodes : List Nat} (h : nodes.map ρ = range' n nodes.length)
    (ha : a ∈ nodes) : n ≤ ρ a ∧ ρ a < n + nodes.length := by
  have hmem : ρ a ∈ nodes.map ρ := mem_map_of_mem ha
  rw [h, mem_range'_1] at hmem
  exact hmem

def Node.linkedTo (node : Node w T) (left right : Nat) : Node w T :=
  { node with left := left, right := right }

theorem copyNodes_eval {m₂ m₄ : Memory w T} {root tl tr : Nat} {node left right : Node w T}
    (hnode : m.cells root = some node)
    (hleft : (m.alloc (node.linkedTo m.next m.next)).cells node.left = some left)
    (hl : (if node.bitIndex < left.bitIndex then
        (m.alloc (node.linkedTo m.next m.next)).copyNodes fuel node.left
      else .ok (m.next, m.alloc (node.linkedTo m.next m.next))) = .ok (tl, m₂))
    (hnew₂ : m₂.cells m.next = some (node.linkedTo m.next m.next))
    (hright : (m₂.write m.next (node.linkedTo tl m.next)).cells node.right = some right)
    (hr : (if node.bitIndex < right.bitIndex then
        (m₂.write m.next (node.linkedTo tl m.next)).copyNodes fuel node.right
      else .ok (m.next, m₂.write m.next (node.linkedTo tl m.next))) = .ok (tr, m₄))
    (hnew₄ : m₄.cells m.next = some (node.linkedTo tl m.next)) :
    m.copyNodes (fuel + 1) root = .ok (m.next, m₄.write m.next (node.linkedTo tl tr)) := by
  unfold copyNodes
  rw [read_eq hnode]
  change ((m.alloc (node.linkedTo m.next m.next)).read node.left >>= _) = _
  rw [read_eq hleft]
  change ((if node.bitIndex < left.bitIndex then
    (m.alloc (node.linkedTo m.next m.next)).copyNodes fuel node.left
    else .ok (m.next, m.alloc (node.linkedTo m.next m.next))) >>= _) = _
  rw [hl]
  change (m₂.setChild m.next false tl >>= _) = _
  unfold setChild
  rw [read_eq hnew₂]
  change ((m₂.write m.next (node.linkedTo tl m.next)).read node.right >>= _) = _
  rw [read_eq hright]
  change ((if node.bitIndex < right.bitIndex then
    (m₂.write m.next (node.linkedTo tl m.next)).copyNodes fuel node.right
    else .ok (m.next, m₂.write m.next (node.linkedTo tl m.next))) >>= _) = _
  rw [hr]
  change (m₄.setChild m.next true tr >>= _) = _
  unfold setChild
  rw [read_eq hnew₄]
  rfl

def CopiesChild (cells₀ : Nat → Option (Node w T)) (ρ : Nat → Nat) (fuel : Nat) (i : Int) (a : Nat)
    (right : Bool) (t : Patricia.Tree Nat) : Prop :=
  ∀ n (m : Memory w T), Grown cells₀ n m → t.nodes.map ρ = List.range' n t.nodes.length →
    ∃ child m', cells₀ t.root = some child ∧
      (if i < child.bitIndex then m.copyNodes fuel t.root else .ok (ρ a, m)) =
        .ok (ρ (t.relink ownPlace (a, right)).root, m') ∧
      NodesCopied cells₀ ρ t.nodes n m m'

theorem copyNodes_node {node : Node w T} {l r : Patricia.Tree Nat} (hnode : cells₀ a = some node)
    (hleft : node.left = l.root) (hright : node.right = r.root)
    (hlinkl : Linked cells₀ node.bitIndex l) (hlinkr : Linked cells₀ node.bitIndex r)
    (hl : CopiesChild cells₀ ρ fuel node.bitIndex a false l)
    (hr : CopiesChild cells₀ ρ fuel node.bitIndex a true r) (hm : Grown cells₀ m.next m)
    (hρ : (a :: (l.nodes ++ r.nodes)).map ρ = range' m.next (a :: (l.nodes ++ r.nodes)).length) :
    ∃ m', m.copyNodes (fuel + 1) a = .ok (ρ a, m') ∧
      NodesCopied cells₀ ρ (a :: (l.nodes ++ r.nodes)) m.next m m' := by
  obtain ⟨hnew, hρl, hρr⟩ := numbering_cons hρ
  have hnone := hm.next_none
  -- the new node and the copy of the left subtree
  have hm₁ := hm.alloc (node.linkedTo m.next m.next)
  obtain ⟨left, m₂, hlcell, hlok, hlcopied⟩ := hl _ _ hm₁ hρl
  have hnew₂ : m₂.cells m.next = some (node.linkedTo m.next m.next) := by
    rw [hlcopied.old m.next (Nat.lt_succ_self _)]
    exact update_self _ _ _
  generalize htl : ρ (l.relink ownPlace (a, false)).root = tl at hlok
  -- the copy of the right subtree
  have hm₃ := hlcopied.grown.write hnone (by omega) (node.linkedTo tl m.next)
  obtain ⟨right, m₄, hrcell, hrok, hrcopied⟩ := hr _ _ hm₃ hρr
  have hcells₃ : ∀ c, c ≠ m.next →
      (m₂.write m.next (node.linkedTo tl m.next)).cells c = m₂.cells c :=
    fun c hc => update_of_ne hc _ _
  have hnew₄ : m₄.cells m.next = some (node.linkedTo tl m.next) := by
    rw [hrcopied.old m.next (by omega)]
    exact update_self _ _ _
  generalize htr : ρ (r.relink ownPlace (a, true)).root = tr at hrok
  have hcells : ∀ c, c ≠ m.next →
      (m₄.write m.next (node.linkedTo tl tr)).cells c = m₄.cells c :=
    fun c hc => update_of_ne hc _ _
  rw [hnew] at hlok hrok ⊢
  rw [← hleft] at hlcell hlok
  rw [← hright] at hrcell hrok
  have hlength : m.next + (a :: (l.nodes ++ r.nodes)).length =
      m.next + 1 + l.nodes.length + r.nodes.length := by
    rw [length_cons, length_append]
    omega
  refine ⟨m₄.write m.next (node.linkedTo tl tr),
    copyNodes_eval (hm.keeps a node hnode) (hm₁.keeps _ _ hlcell) hlok hnew₂
      (hm₃.keeps _ _ hrcell) hrok hnew₄, ?_, fun c hc => ?_, fun c hc => ?_⟩
  · rw [hlength]
    exact hrcopied.grown.write hnone (by omega) _
  · rw [hcells c (by omega), hrcopied.old c (by omega), hcells₃ c (by omega),
      hlcopied.old c (by omega)]
    exact update_of_ne (by omega) _ _
  · rcases mem_cons.mp hc with rfl | hc
    · rw [hnew, copyCell_eq hnode, hleft, hright,
        ← root_relink hlinkl (bitAt_eq hnode), ← root_relink hlinkr (bitAt_eq hnode), htl, htr]
      exact update_self _ _ _
    · rcases mem_append.mp hc with hc | hc
      · obtain ⟨hge, hlt⟩ := numbering_mem hρl hc
        rw [hcells _ (by omega), hrcopied.old _ (by omega), hcells₃ _ (by omega)]
        exact hlcopied.copied c hc
      · obtain ⟨hge, hlt⟩ := numbering_mem hρr hc
        rw [hcells _ (by omega)]
        exact hrcopied.copied c hc

theorem copiesChild {i : Int} {right : Bool} {t : Patricia.Tree Nat} (hlinked : Linked cells₀ i t)
    (hfuel : t.depth ≤ fuel) : CopiesChild cells₀ ρ fuel i a right t := by
  induction t generalizing fuel i a right with
  | up c =>
    intro n m hm hρ
    obtain ⟨node, hnode, hle⟩ := hlinked
    exact ⟨node, m, hnode, if_neg (Int.not_lt.mpr hle), hm, fun _ _ => rfl, forall_mem_nil _⟩
  | node c j l r ihl ihr =>
    intro n m hm hρ
    obtain ⟨hlt, ⟨node, hnode, hbit, hleft, hright⟩, hl, hr⟩ := hlinked
    unfold Patricia.Tree.depth at hfuel
    obtain ⟨fuel, rfl⟩ := Nat.exists_eq_add_of_le' (Nat.one_le_of_lt hfuel)
    rw [← hbit] at hl hr
    have hleftchild : CopiesChild cells₀ ρ fuel node.bitIndex c false l := ihl hl (by omega)
    have hrightchild : CopiesChild cells₀ ρ fuel node.bitIndex c true r := ihr hr (by omega)
    obtain rfl := hm.next_eq
    obtain ⟨m', hok, hcopied⟩ := copyNodes_node hnode hleft hright hl hr hleftchild hrightchild
      hm hρ
    exact ⟨node, m', hnode, (if_pos (hbit ▸ hlt)).trans hok, hcopied⟩

end CopyNodes

/-! ## Bits and links of a trie -/

section Original

variable {m : Memory w T} {head : Nat} {t : Patricia.Tree Nat}

theorem Stored.indexed {cells : Nat → Option (Node w T)} (h : Stored cells t) :
    t.Indexed (bitAt cells) := by
  induction t with
  | up c => trivial
  | node a b l r ihl ihr =>
    obtain ⟨⟨node, hnode, hbit, -⟩, hl, hr⟩ := h
    exact ⟨(bitAt_eq hnode).trans hbit, ihl hl, ihr hr⟩

theorem Represents.bit_head (h : Represents m head t) : bitAt m.cells head = -1 := by
  obtain ⟨root, hroot, hbit, -⟩ := h.headCell
  rw [bitAt_eq hroot, hbit]

variable {a : Nat}

theorem Represents.bit_nonneg (h : Represents m head t) (ha : a ∈ t.nodes) : 0 ≤ bitAt m.cells a :=
  h.wellFormed.placed.lt_bit h.stored.indexed ha

theorem Represents.eq_head (h : Represents m head t) (ha : a ∈ head :: t.nodes)
    (hbit : bitAt m.cells a < 0) : a = head :=
  (mem_cons.mp ha).resolve_right fun hmem => absurd (h.bit_nonneg hmem) (Int.not_le.mpr hbit)

theorem root_mem (t : Patricia.Tree Nat) : t.root ∈ t.nodes ∨ t.root ∈ t.leaves := by
  cases t with
  | up c => exact .inr (mem_singleton_self c)
  | node a b l r => exact .inl mem_cons_self

theorem Stored.child_mem {cells : Nat → Option (Node w T)} (h : Stored cells t) (ha : a ∈ t.nodes)
    {node : Node w T} (hnode : cells a = some node) (right : Bool) :
    child node right ∈ t.nodes ∨ child node right ∈ t.leaves := by
  induction t with
  | up c => cases ha
  | node c b l r ihl ihr =>
    obtain ⟨⟨cell, hcell, -, hleft, hright⟩, hl, hr⟩ := h
    have hofleft : ∀ {x}, x ∈ l.nodes ∨ x ∈ l.leaves →
        x ∈ (Patricia.Tree.node c b l r).nodes ∨ x ∈ (Patricia.Tree.node c b l r).leaves :=
      Or.imp mem_nodes_left (mem_append_left _)
    have hofright : ∀ {x}, x ∈ r.nodes ∨ x ∈ r.leaves →
        x ∈ (Patricia.Tree.node c b l r).nodes ∨ x ∈ (Patricia.Tree.node c b l r).leaves :=
      Or.imp mem_nodes_right (mem_append_right _)
    rcases mem_cons.mp ha with rfl | ha
    · cases hcell.symm.trans hnode
      cases right with
      | false =>
        rw [show child node false = l.root from hleft]
        exact hofleft (root_mem l)
      | true =>
        rw [show child node true = r.root from hright]
        exact hofright (root_mem r)
    · rcases mem_append.mp ha with ha | ha
      · exact hofleft (ihl hl ha)
      · exact hofright (ihr hr ha)

theorem Represents.child_mem (h : Represents m head t) (ha : a ∈ head :: t.nodes) {node : Node w T}
    (hnode : m.cells a = some node) (right : Bool) : child node right ∈ head :: t.nodes := by
  have hall : ∀ {x}, x ∈ t.nodes ∨ x ∈ t.leaves → x ∈ head :: t.nodes := by
    rintro x (hx | hx)
    · exact mem_cons_of_mem _ hx
    · exact h.wellFormed.perm.mem_iff.mp hx
  rcases mem_cons.mp ha with rfl | ha
  · obtain ⟨root, hroot, -, hleft, hright⟩ := h.headCell
    cases hroot.symm.trans hnode
    cases right with
    | false => exact hleft ▸ mem_cons_self
    | true =>
      rw [show child node true = t.root from hright]
      exact hall (root_mem t)
  · exact hall (h.stored.child_mem ha hnode right)

end Original

/-! ## The memory with a copy -/

section Copy

variable {m₀ : Memory w T} {head : Nat} {t : Patricia.Tree Nat} {ρ : Nat → Nat}
  {g : Nat × Bool → Nat}
  {m : Memory w T}

theorem linked_copy {cells₀ cells : Nat → Option (Node w T)} {b : Int} {place : Nat × Bool}
    (h : Linked cells₀ b t) (hb : bitAt cells₀ place.1 = b)
    (hcopied : ∀ a ∈ t.nodes, cells (ρ a) = copyCell cells₀ ρ g a)
    (hg : ∀ a ∈ place.1 :: t.nodes, ∀ right,
      ∃ node, cells (ρ (g (a, right))) = some node ∧ node.bitIndex ≤ bitAt cells₀ a) :
    Linked cells b ((t.relink g place).map ρ) := by
  induction t generalizing b place with
  | up c =>
    obtain ⟨node, hnode, hle⟩ := hg place.1 mem_cons_self place.2
    exact ⟨node, hnode, hb ▸ hle⟩
  | node a i l r ihl ihr =>
    obtain ⟨hlt, ⟨node, hnode, hbit, hleft, hright⟩, hl, hr⟩ := h
    have ha : bitAt cells₀ a = i := (bitAt_eq hnode).trans hbit
    refine ⟨hlt, ?_,
      ihl hl ha (fun c hc => hcopied c (mem_nodes_left hc)) fun c hc => ?_,
      ihr hr ha (fun c hc => hcopied c (mem_nodes_right hc)) fun c hc => ?_⟩
    · refine ⟨_, (hcopied a mem_cons_self).trans (copyCell_eq hnode ρ g), hbit, ?_, ?_⟩
      · rw [root_map, root_relink hl ha, hleft]
      · rw [root_map, root_relink hr ha, hright]
    · refine hg c (mem_cons_of_mem _ ?_)
      rcases mem_cons.mp hc with rfl | hc
      · exact mem_cons_self
      · exact mem_nodes_left hc
    · refine hg c (mem_cons_of_mem _ ?_)
      rcases mem_cons.mp hc with rfl | hc
      · exact mem_cons_self
      · exact mem_nodes_right hc

structure CopyOf (m₀ : Memory w T) (head : Nat) (t : Patricia.Tree Nat) (ρ : Nat → Nat)
    (g : Nat × Bool → Nat) (m : Memory w T) : Prop where
  represents : Represents m₀ head t
  numbering : (head :: t.nodes).map ρ = List.range' m₀.next (head :: t.nodes).length
  up : ∀ a ∈ head :: t.nodes, ∀ right,
    g (a, right) ∈ head :: t.nodes ∧ bitAt m₀.cells (g (a, right)) ≤ bitAt m₀.cells a
  old : ∀ a < m₀.next, m.cells a = m₀.cells a
  copied : ∀ a ∈ head :: t.nodes, m.cells (ρ a) = copyCell m₀.cells ρ g a

variable {node : Node w T} {a c : Nat}

theorem Represents.lt_next (h : Represents m₀ head t) (hnode : m₀.cells a = some node) :
    a < m₀.next := by
  by_contra hge
  rw [h.fresh a (Nat.le_of_not_lt hge)] at hnode
  cases hnode

variable (h : CopyOf m₀ head t ρ g m)

include h

theorem CopyOf.old_cell (hnode : m₀.cells a = some node) : m.cells a = some node :=
  (h.old a (h.represents.lt_next hnode)).trans hnode

theorem CopyOf.new_cell (ha : a ∈ head :: t.nodes) (hnode : m₀.cells a = some node) :
    m.cells (ρ a) = some { node with
      left := ρ (target m₀.cells g a false node.left)
      right := ρ (target m₀.cells g a true node.right) } :=
  (h.copied a ha).trans (copyCell_eq hnode ρ g)

theorem CopyOf.injective {b : Nat} (ha : a ∈ head :: t.nodes)
    (hb : b ∈ head :: t.nodes) (heq : ρ a = ρ b) : a = b := by
  have hnodup : ((head :: t.nodes).map ρ).Nodup := by
    rw [h.numbering]
    exact nodup_range'
  exact inj_on_of_nodup_map hnodup ha hb heq

theorem CopyOf.le_new (ha : a ∈ head :: t.nodes) : m₀.next ≤ ρ a :=
  (numbering_mem h.numbering ha).1

theorem CopyOf.hangs : Hangs m (ρ head) ((t.relink g (head, true)).map ρ) := by
  have hhead := h.represents.bit_head
  have hlinked := h.represents.linked
  obtain ⟨root, hroot, hbit, hleft, hright⟩ := h.represents.headCell
  refine ⟨⟨_, h.new_cell mem_cons_self hroot, hbit, ?_, ?_⟩,
    linked_copy hlinked hhead (fun a ha => h.copied a (mem_cons_of_mem _ ha)) ?_, ?_⟩
  · -- the left link of the head goes nowhere else
    have hown : target m₀.cells g head false root.left = head := by
      unfold target
      rw [hleft, if_neg (Int.lt_irrefl _)]
      obtain ⟨hmem, hle⟩ := h.up head mem_cons_self false
      exact h.represents.eq_head hmem (by omega)
    exact congrArg ρ hown
  · rw [root_map, root_relink hlinked hhead, hright]
  · intro a ha right
    obtain ⟨hmem, hle⟩ := h.up a ha right
    obtain ⟨node, hnode⟩ := h.represents.exists_cell hmem
    refine ⟨_, h.new_cell hmem hnode, ?_⟩
    rw [bitAt_eq hnode] at hle
    exact hle
  · rw [depth_map, depth_relink]
    exact h.represents.hangs.depth_lt

theorem CopyOf.getNodeList : m.getNodeList (bound w) (ρ head) = .ok (t.nodes.map ρ) := by
  rw [h.hangs.getNodeList, nodes_map, nodes_relink]

/-! ## Where the links up go -/

/-- The first node with a bit number, in the order of `GetNodeList`. -/
def firstNode (cells : Nat → Option (Node w T)) (head : Nat) (nodes : List Nat) (b : Int) : Nat :=
  (nodes.find? fun e => bitAt cells e = b).getD head

omit h in
theorem firstWithBit_eq {cells : Nat → Option (Node w T)} {nodes : List Nat} {b : Int}
    (hcells : ∀ e ∈ nodes, ∃ node, m.cells (ρ e) = some node ∧ node.bitIndex = bitAt cells e)
    (hexists : ∃ e ∈ nodes, bitAt cells e = b) (head : Nat) :
    m.firstWithBit b (nodes.map ρ) = .ok (ρ (firstNode cells head nodes b)) := by
  induction nodes with
  | nil =>
    obtain ⟨e, he, -⟩ := hexists
    cases he
  | cons e rest ih =>
    obtain ⟨node, hnode, hbit⟩ := hcells e mem_cons_self
    rw [map_cons]
    unfold firstWithBit firstNode
    rw [read_eq hnode]
    change (if node.bitIndex = b then _ else _) = _
    rw [hbit]
    by_cases he : bitAt cells e = b
    · rw [if_pos he, find?_cons_of_pos (by simpa using he)]
      rfl
    · rw [if_neg he, find?_cons_of_neg (by simpa using he)]
      refine ih (fun c hc => hcells c (mem_cons_of_mem _ hc)) ?_
      obtain ⟨c, hc, heq⟩ := hexists
      rcases mem_cons.mp hc with rfl | hc
      · exact absurd heq he
      · exact ⟨c, hc, heq⟩

omit h in
theorem Represents.firstNode_head (h : Represents m₀ head t) :
    firstNode m₀.cells head t.nodes (-1) = head := by
  have hnone : (t.nodes.find? fun e => bitAt m₀.cells e = -1) = none := by
    refine find?_eq_none.mpr fun e he heq => ?_
    have hnonneg := h.bit_nonneg he
    have hbit : bitAt m₀.cells e = -1 := by simpa using heq
    omega
  unfold firstNode
  rw [hnone]
  rfl

theorem CopyOf.findBitindexNode (hc : c ∈ head :: t.nodes) :
    m.findBitindexNode (ρ head) (ρ head) (bitAt m₀.cells c) =
      .ok (ρ (firstNode m₀.cells head t.nodes (bitAt m₀.cells c))) := by
  unfold Memory.findBitindexNode
  split_ifs with hbit
  · rw [hbit, h.represents.firstNode_head]
  · rw [h.getNodeList]
    refine firstWithBit_eq (fun e he => ?_) ⟨c, ?_, rfl⟩ head
    · have hmem : e ∈ head :: t.nodes := mem_cons_of_mem _ he
      obtain ⟨node, hnode⟩ := h.represents.exists_cell hmem
      exact ⟨_, h.new_cell hmem hnode, (bitAt_eq hnode).symm⟩
    · refine (mem_cons.mp hc).resolve_left ?_
      rintro rfl
      exact hbit h.represents.bit_head

/-- Where the link at a place goes in the end: to the first node with the right bit number, or
to the node itself. -/
def backTarget (cells : Nat → Option (Node w T)) (head : Nat) (nodes : List Nat) (c : Nat)
    (a : Nat) : Nat :=
  if bitAt cells c < bitAt cells a then firstNode cells head nodes (bitAt cells c) else a

omit h in
theorem Represents.backTarget_up (h : Represents m₀ head t) (ha : a ∈ head :: t.nodes) :
    backTarget m₀.cells head t.nodes c a ∈ head :: t.nodes ∧
      bitAt m₀.cells (backTarget m₀.cells head t.nodes c a) ≤ bitAt m₀.cells a := by
  unfold backTarget
  split_ifs with hlt
  · unfold firstNode
    cases hfind : t.nodes.find? fun e => bitAt m₀.cells e = bitAt m₀.cells c with
    | none =>
      refine ⟨mem_cons_self, ?_⟩
      change bitAt m₀.cells head ≤ _
      rw [h.bit_head]
      rcases mem_cons.mp ha with rfl | ha
      · exact Int.le_of_eq h.bit_head.symm
      · have hnonneg := h.bit_nonneg ha
        omega
    | some e =>
      have hbit : bitAt m₀.cells e = bitAt m₀.cells c := by simpa using find?_some hfind
      refine ⟨mem_cons_of_mem _ (mem_of_find?_eq_some hfind), ?_⟩
      change bitAt m₀.cells e ≤ _
      omega
  · exact ⟨ha, Int.le_refl _⟩

theorem CopyOf.setChild (ha : a ∈ t.nodes)
    (hnode : m₀.cells a = some node) {right : Bool} (hc : child node right = c)
    (hlt : bitAt m₀.cells c < bitAt m₀.cells a) :
    ∃ m', m.setChild (ρ a) right (ρ (backTarget m₀.cells head t.nodes c a)) = .ok m' ∧
      CopyOf m₀ head t ρ
        (update g (a, right) (backTarget m₀.cells head t.nodes c a)) m' := by
  have hmem : a ∈ head :: t.nodes := mem_cons_of_mem _ ha
  have hup := h.represents.backTarget_up (c := c) hmem
  generalize backTarget m₀.cells head t.nodes c a = target' at hup ⊢
  have hcell := h.new_cell hmem hnode
  refine ⟨m.write (ρ a) (withChild { node with
      left := ρ (target m₀.cells g a false node.left)
      right := ρ (target m₀.cells g a true node.right) } (ρ target') right),
    ?_, h.represents, h.numbering, ?_, fun x hx => ?_, fun x hx => ?_⟩
  · unfold Memory.setChild
    rw [read_eq hcell]
    rfl
  · intro x hx side
    by_cases hplace : (x, side) = (a, right)
    · obtain ⟨rfl, rfl⟩ := Prod.mk.inj hplace
      rw [update_self]
      exact hup
    · rw [update_of_ne hplace]
      exact h.up x hx side
  · have hne : x ≠ ρ a := by
      have hle := h.le_new hmem
      omega
    exact (update_of_ne hne _ _).trans (h.old x hx)
  · by_cases hx' : x = a
    · subst hx'
      refine (update_self _ _ _).trans ?_
      rw [copyCell_eq hnode]
      unfold target
      have hnot : ¬ bitAt m₀.cells x < bitAt m₀.cells (child node right) := by
        rw [hc]
        omega
      cases right
      all_goals
        dsimp only [child] at hnot
        rw [update_self, update_of_ne (by simp), if_neg hnot, if_neg hnot]
        rfl
    · have hne : ρ x ≠ ρ a := fun heq => hx' (h.injective hx hmem heq)
      refine (update_of_ne hne _ _).trans ((h.copied x hx).trans ?_)
      unfold copyCell target
      rw [update_of_ne (by simp [hx']), update_of_ne (by simp [hx'])]

theorem CopyOf.adaptChild (ha : a ∈ t.nodes)
    (hnode : m₀.cells a = some node) {right : Bool} (hg : g (a, right) = a) :
    ∃ m', m.adaptChild (ρ head) a (ρ a) right = .ok m' ∧
      CopyOf m₀ head t ρ (update g (a, right)
        (backTarget m₀.cells head t.nodes (child node right) a)) m' := by
  have hmem : a ∈ head :: t.nodes := mem_cons_of_mem _ ha
  have hchild := h.represents.child_mem hmem hnode right
  obtain ⟨cnode, hcnode⟩ := h.represents.exists_cell hchild
  have hbit := bitAt_eq hnode
  have hcbit := bitAt_eq hcnode
  have heval : m.adaptChild (ρ head) a (ρ a) right =
      if cnode.bitIndex < node.bitIndex then
        m.findBitindexNode (ρ head) (ρ head) cnode.bitIndex >>= m.setChild (ρ a) right
      else .ok m := by
    unfold Memory.adaptChild
    rw [read_eq (h.old_cell hnode), ok_bind, read_eq (h.old_cell hcnode)]
    rfl
  rw [heval]
  by_cases hlt : cnode.bitIndex < node.bitIndex
  · rw [if_pos hlt, ← hcbit, h.findBitindexNode hchild]
    have hback : backTarget m₀.cells head t.nodes (child node right) a =
        firstNode m₀.cells head t.nodes (bitAt m₀.cells (child node right)) :=
      if_pos (by omega)
    rw [← hback]
    exact h.setChild ha hnode rfl (by omega)
  · have hback : backTarget m₀.cells head t.nodes (child node right) a = g (a, right) :=
      (if_neg (by omega)).trans hg.symm
    rw [if_neg hlt, hback, update_eq_self]
    exact ⟨m, rfl, h⟩

theorem CopyOf.hangs_old : Hangs m head t := by
  have hcell : ∀ a bit left right,
      NodeCell m₀.cells a bit left right → NodeCell m.cells a bit left right := by
    rintro a bit left right ⟨node, hnode, hlinks⟩
    exact ⟨node, h.old_cell hnode, hlinks⟩
  exact ⟨hcell _ _ _ _ h.represents.headCell, h.represents.linked.congr hcell,
    h.represents.hangs.depth_lt⟩

structure Adapted (m₀ : Memory w T) (head : Nat) (t : Patricia.Tree Nat) (rest : List Nat)
    (g g' : Nat × Bool → Nat) : Prop where
  adapted : ∀ a ∈ rest, ∀ node, m₀.cells a = some node → ∀ right,
    g' (a, right) = backTarget m₀.cells head t.nodes (Memory.child node right) a
  others : ∀ a, a ∉ rest → ∀ right, g' (a, right) = g (a, right)

theorem CopyOf.adaptAll_cons [DecidableEq T] (ha : a ∈ head :: t.nodes)
    (hnode : m₀.cells a = some node) {m₁ m₂ : Memory w T}
    (hok₁ : m.adaptChild (ρ head) a (ρ a) false = .ok m₁)
    (hok₂ : m₁.adaptChild (ρ head) a (ρ a) true = .ok m₂) (rest : List Nat) :
    m.adaptAll (ρ head) (a :: rest) ((a :: rest).map ρ) =
      m₂.adaptAll (ρ head) rest (rest.map ρ) := by
  have hchecks : a ≠ ρ a ∧ node.key = node.key ∧ node.bitIndex = node.bitIndex ∧
      node.data = node.data := by
    have hold := h.represents.lt_next hnode
    have hnew := h.le_new ha
    exact ⟨by omega, rfl, rfl, rfl⟩
  rw [map_cons]
  nth_rewrite 1 [adaptAll]
  rw [read_eq (h.old_cell hnode)]
  rw [read_eq (h.new_cell ha hnode)]
  refine (if_pos hchecks).trans ?_
  rw [hok₁, ok_bind, hok₂]
  rfl

theorem CopyOf.adaptAll [DecidableEq T] {rest : List Nat}
    (hrest : ∀ a ∈ rest, a ∈ t.nodes) (hnodup : rest.Nodup)
    (hg : ∀ a ∈ rest, ∀ right, g (a, right) = a) :
    ∃ m' g', m.adaptAll (ρ head) rest (rest.map ρ) = .ok m' ∧ CopyOf m₀ head t ρ g' m' ∧
      Adapted m₀ head t rest g g' := by
  induction rest generalizing m g with
  | nil => exact ⟨m, g, rfl, h, forall_mem_nil _, fun _ _ _ => rfl⟩
  | cons a rest ih =>
    obtain ⟨ha, hnodup⟩ := nodup_cons.mp hnodup
    have hnodes := hrest a mem_cons_self
    have hmem : a ∈ head :: t.nodes := mem_cons_of_mem _ hnodes
    obtain ⟨node, hnode⟩ := h.represents.exists_cell hmem
    obtain ⟨m₁, hok₁, h₁⟩ := h.adaptChild hnodes hnode (hg a mem_cons_self false)
    have hother : (a, true) ≠ (a, false) := by simp
    obtain ⟨m₂, hok₂, h₂⟩ := h₁.adaptChild hnodes hnode
      ((update_of_ne hother _ _).trans (hg a mem_cons_self true))
    obtain ⟨m', g', hok, h', hadapted, hothers⟩ := ih h₂
      (fun c hc => hrest c (mem_cons_of_mem _ hc)) hnodup (by
        intro c hc right
        have hne : c ≠ a := by
          rintro rfl
          exact ha hc
        rw [update_of_ne (by simp [hne]), update_of_ne (by simp [hne])]
        exact hg c (mem_cons_of_mem _ hc) right)
    refine ⟨m', g', ?_, h', fun c hc cell hcell right => ?_, fun c hc right => ?_⟩
    · rw [h.adaptAll_cons hmem hnode hok₁ hok₂ rest]
      exact hok
    · rcases mem_cons.mp hc with rfl | hc
      · cases hnode.symm.trans hcell
        rw [hothers c ha right]
        cases right with
        | false => rw [update_of_ne hother.symm, update_self]
        | true => rw [update_self]
      · exact hadapted c hc cell hcell right
    · have hne : c ≠ a := fun heq => hc (heq ▸ mem_cons_self)
      rw [hothers c (fun hmem => hc (mem_cons_of_mem _ hmem)) right,
        update_of_ne (by simp [hne]), update_of_ne (by simp [hne])]

omit h

theorem exists_numbering {nodes : List Nat} (h : nodes.Nodup) (n : Nat) :
    ∃ ρ : Nat → Nat, nodes.map ρ = range' n nodes.length := by
  refine ⟨fun a => n + nodes.idxOf a, ext_getElem (by simp) fun i hi hi' => ?_⟩
  rw [getElem_map, h.idxOf_getElem, getElem_range']
  omega

theorem Represents.copyNodes (h : Represents m₀ head t) :
    ∃ ρ m, m₀.copyNodes (bound w) head = .ok (ρ head, m) ∧
      CopyOf m₀ head t ρ ownPlace m := by
  obtain ⟨ρ, hρ⟩ := exists_numbering h.wellFormed.nodup m₀.next
  obtain ⟨root, hroot, hbit, hleft, hright⟩ := h.headCell
  have hup : Linked m₀.cells root.bitIndex (.up head) := ⟨root, hroot, Int.le_refl _⟩
  have hlinked : Linked m₀.cells root.bitIndex t := hbit ▸ h.linked
  obtain ⟨m, hok, hcopied⟩ := copyNodes_node (l := .up head) hroot hleft hright hup hlinked
    (copiesChild hup (Nat.zero_le (8 * w))) (copiesChild hlinked (Nat.le_of_lt_succ
      h.hangs.depth_lt)) ⟨fun _ _ hcell => hcell, rfl, h.fresh⟩ hρ
  exact ⟨ρ, m, hok, h, hρ, fun a ha _ => ⟨ha, Int.le_refl _⟩, hcopied.old, hcopied.copied⟩

/-- `Copy` gives each node a new one, with its links up to the nodes that the search finds. -/
theorem Represents.copy [DecidableEq T] (h : Represents m₀ head t) :
    ∃ ρ g m, m₀.copy head = .ok (ρ head, m) ∧ CopyOf m₀ head t ρ g m ∧
      Adapted m₀ head t t.nodes ownPlace g := by
  obtain ⟨ρ, m₁, hnodes, h₁⟩ := h.copyNodes
  obtain ⟨m, g, hok, hcopy, hadapted⟩ := h₁.adaptAll (fun _ ha => ha)
    (nodup_cons.mp h.wellFormed.nodup).2 fun _ _ _ => rfl
  refine ⟨ρ, g, m, ?_, hcopy, hadapted⟩
  unfold Memory.copy
  rw [hnodes]
  change (m₁.getNodeList (bound w) head >>= _) = _
  rw [h₁.hangs_old.getNodeList]
  rw [h₁.getNodeList]
  refine (if_pos (length_map _).symm).trans ?_
  rw [hok]
  rfl

end Copy

/-! ## Reaching nodes -/

section Reaches

variable {m₀ m : Memory w T} {head : Nat} {t : Patricia.Tree Nat} {ρ : Nat → Nat}
  {g : Nat × Bool → Nat} {a : Nat}

theorem Reaches.closed {start : Nat} {P : Nat → Prop} (h : Reaches m start a) (hstart : P start)
    (hchild : ∀ a node, P a → m.cells a = some node → ∀ right, P (child node right)) :
    P a := by
  induction h with
  | start => exact hstart
  | left _ hnode ih => exact hchild _ _ ih hnode false
  | right _ hnode ih => exact hchild _ _ ih hnode true

theorem Represents.mem_of_reaches (h : Represents m head t) (ha : Reaches m head a) :
    a ∈ head :: t.nodes :=
  ha.closed (P := (· ∈ head :: t.nodes)) mem_cons_self
    fun _ _ hmem hnode right => h.child_mem hmem hnode right

theorem reaches_of_stored {start : Nat} (h : Stored m.cells t) (hroot : Reaches m start t.root)
    (ha : a ∈ t.nodes) : Reaches m start a := by
  induction t with
  | up c => cases ha
  | node c b l r ihl ihr =>
    obtain ⟨⟨node, hnode, -, hleft, hright⟩, hl, hr⟩ := h
    rcases mem_cons.mp ha with rfl | ha
    · exact hroot
    · rcases mem_append.mp ha with ha | ha
      · exact ihl hl (hleft ▸ hroot.left hnode) ha
      · exact ihr hr (hright ▸ hroot.right hnode) ha

theorem Represents.reaches (h : Represents m head t) (ha : a ∈ head :: t.nodes) :
    Reaches m head a := by
  rcases mem_cons.mp ha with rfl | ha
  · exact .start
  · obtain ⟨root, hroot, -, -, hright⟩ := h.headCell
    exact reaches_of_stored h.stored (hright ▸ Reaches.start.right hroot) ha

theorem CopyOf.disjoint (h : CopyOf m₀ head t ρ g m) (ha : Reaches m head a) :
    ¬ Reaches m (ρ head) a := by
  intro hnew
  have hold : a ∈ head :: t.nodes := by
    refine ha.closed (P := (· ∈ head :: t.nodes)) mem_cons_self fun x node hx hnode => ?_
    obtain ⟨cell, hcell⟩ := h.represents.exists_cell hx
    cases (h.old_cell hcell).symm.trans hnode
    exact h.represents.child_mem hx hcell
  have hcopy : ∃ x ∈ head :: t.nodes, a = ρ x := by
    refine hnew.closed (P := fun a => ∃ x ∈ head :: t.nodes, a = ρ x)
      ⟨head, mem_cons_self, rfl⟩ ?_
    rintro _ node ⟨x, hx, rfl⟩ hnode right
    obtain ⟨cell, hcell⟩ := h.represents.exists_cell hx
    cases (h.new_cell hx hcell).symm.trans hnode
    have htarget : ∀ c ∈ head :: t.nodes, target m₀.cells g x right c ∈ head :: t.nodes := by
      intro c hc
      unfold target
      split_ifs
      · exact hc
      · exact (h.up x hx right).1
    refine ⟨_, htarget _ (h.represents.child_mem hx hcell right), ?_⟩
    cases right <;> rfl
  obtain ⟨x, hx, rfl⟩ := hcopy
  obtain ⟨cell, hcell⟩ := h.represents.exists_cell hold
  exact absurd (h.represents.lt_next hcell) (Nat.not_lt.mpr (h.le_new hx))

end Reaches

/-! ## What is found -/

section Found

variable {m₀ m : Memory w T} {head : Nat} {t : Patricia.Tree Nat} {ρ : Nat → Nat}
  {g : Nat × Bool → Nat} {node : Node w T} {k : Key w} {a c : Nat}

theorem Hangs.groupKey (h : Hangs m head t) (hnode : m.cells (t.find (bitsOf k)) = some node) :
    m.groupKey head k = .ok node.key := by
  unfold Memory.groupKey
  rw [h.lookupGroup k, ok_bind, read_eq hnode]
  rfl

theorem Hangs.nodeData (h : Hangs m head t) (hnode : m.cells (t.find (bitsOf k)) = some node) :
    m.nodeData head k = .ok (if k = node.key then some node.data else none) := by
  unfold Memory.nodeData
  rw [h.lookupNode hnode]
  split_ifs
  · change (m.read _ >>= _) = _
    rw [read_eq hnode]
    rfl
  · rfl

def copyFind (head : Nat) (t : Patricia.Tree Nat) (g : Nat × Bool → Nat) (k : Key w) : Nat :=
  g (t.findEnd (bitsOf k) (head, true)).1

theorem CopyOf.find_eq (h : CopyOf m₀ head t ρ g m) (k : Key w) :
    ((t.relink g (head, true)).map ρ).find (bitsOf k) = ρ (copyFind head t g k) ∧
      copyFind head t g k ∈ head :: t.nodes := by
  have hfind : (t.relink g (head, true)).find (bitsOf k) = copyFind head t g k :=
    find_relink g (bitsOf k) (head, true) t
  refine ⟨by rw [find_map, hfind], ?_⟩
  refine (h.up _ ?_ _).1
  exact fst_mem_of_mem_ends (t.findEnd_mem (bitsOf k) (head, true))

/-- The copy is faithful exactly if every key finds the copy of what it finds in the trie. -/
theorem CopyOf.faithful_iff_copyFind [DecidableEq T] (h : CopyOf m₀ head t ρ g m)
    (hok : m₀.copy head = .ok (ρ head, m)) :
    CopyFaithful m₀ head ↔ ∀ k : Key w, copyFind head t g k = t.find (bitsOf k) := by
  constructor
  · rintro ⟨newHead, m', hok', -, hall⟩ k
    cases hok.symm.trans hok'
    obtain ⟨-, key, hgroup, hgroup'⟩ := hall k
    obtain ⟨hfind, hmem⟩ := h.find_eq k
    have hmem' := h.represents.find_mem k
    obtain ⟨node, hnode⟩ := h.represents.exists_cell hmem
    obtain ⟨node', hnode'⟩ := h.represents.exists_cell hmem'
    rw [h.hangs_old.groupKey (h.old_cell hnode')] at hgroup
    rw [h.hangs.groupKey ((congrArg m.cells hfind).trans (h.new_cell hmem hnode))] at hgroup'
    have hkey : node.key = node'.key := Except.ok.inj (hgroup'.trans hgroup.symm)
    rw [← h.represents.find_eq hmem (keyData_eq hnode), hkey,
      h.represents.find_eq hmem' (keyData_eq hnode')]
  · intro hall
    refine ⟨ρ head, m, hok, fun a ha => h.disjoint ha, fun k => ?_⟩
    obtain ⟨hfind, hmem⟩ := h.find_eq k
    rw [hall k] at hfind hmem
    obtain ⟨node, hnode⟩ := h.represents.exists_cell hmem
    have hcell := (congrArg m.cells hfind).trans (h.new_cell hmem hnode)
    have hdata := h.hangs.nodeData hcell
    have hgroup := h.hangs.groupKey hcell
    exact ⟨⟨_, h.hangs_old.nodeData (h.old_cell hnode), hdata⟩,
      _, h.hangs_old.groupKey (h.old_cell hnode), hgroup⟩

/-! ## Whether the search finds the right node -/

theorem Linked.mem_ends {cells : Nat → Option (Node w T)} {b : Int} {place : Nat × Bool}
    (h : Linked cells b t) (ha : a ∈ t.nodes) (hnode : cells a = some node) {right : Bool}
    (hlt : bitAt cells (child node right) < node.bitIndex) :
    ((a, right), child node right) ∈ t.ends place := by
  induction t generalizing b place with
  | up c => cases ha
  | node c j l r ihl ihr =>
    obtain ⟨-, ⟨cell, hcell, hbit, hleft, hright⟩, hl, hr⟩ := h
    rcases mem_cons.mp ha with rfl | ha
    · cases hcell.symm.trans hnode
      -- the child is the end of a branch: as a node it would have a larger bit
      have hend : ∀ {s : Patricia.Tree Nat}, Linked cells j s → child node right = s.root →
          ((a, right), child node right) ∈ s.ends (a, right) := by
        intro s hs hroot
        rw [hroot] at hlt ⊢
        cases s with
        | up d => exact mem_singleton_self _
        | node d i l' r' =>
          obtain ⟨hji, ⟨dnode, hdnode, hdbit, -⟩, -⟩ := hs
          have hd : bitAt cells (Patricia.Tree.node d i l' r').root = dnode.bitIndex :=
            bitAt_eq hdnode
          omega
      cases right with
      | false => exact mem_append_left _ (hend hl hleft)
      | true => exact mem_append_right _ (hend hr hright)
    · rcases mem_append.mp ha with ha | ha
      · exact mem_append_left _ (ihl hl ha)
      · exact mem_append_right _ (ihr hr ha)

theorem Stored.end_child {cells : Nat → Option (Node w T)} (h : Stored cells t)
    {place p : Nat × Bool} (hend : (p, c) ∈ t.ends place) :
    (p = place ∧ c = t.root) ∨ p.1 ∈ t.nodes ∧
      ∃ node, cells p.1 = some node ∧ child node p.2 = c := by
  induction t generalizing place with
  | up d =>
    obtain ⟨rfl, rfl⟩ := Prod.mk.inj (mem_singleton.mp hend)
    exact .inl ⟨rfl, rfl⟩
  | node d b l r ihl ihr =>
    obtain ⟨⟨node, hnode, -, hleft, hright⟩, hl, hr⟩ := h
    refine .inr ?_
    rcases mem_append.mp hend with hend | hend
    · rcases ihl hl hend with ⟨rfl, rfl⟩ | ⟨hmem, hchild⟩
      · exact ⟨mem_cons_self, node, hnode, hleft⟩
      · exact ⟨mem_nodes_left hmem, hchild⟩
    · rcases ihr hr hend with ⟨rfl, rfl⟩ | ⟨hmem, hchild⟩
      · exact ⟨mem_cons_self, node, hnode, hright⟩
      · exact ⟨mem_nodes_right hmem, hchild⟩

theorem KeyBefore.asymm {k' : Key w} (h : KeyBefore k k') : ¬ KeyBefore k' k := by
  rintro ⟨b', h'⟩
  obtain ⟨b, h⟩ := h
  obtain rfl := h.differAt.unique h'.differAt.symm
  exact Bool.false_ne_true (h.2.1.symm.trans h'.2.2)

/-- The search finds a node exactly if no node with a smaller key has its bit number. -/
theorem Represents.firstNode_eq_iff (h : Represents m head t) (hc : c ∈ t.nodes) {cnode : Node w T}
    (hcnode : m.cells c = some cnode) :
    firstNode m.cells head t.nodes (bitAt m.cells c) = c ↔
      ∀ e ∈ t.nodes, ∀ enode, m.cells e = some enode → bitAt m.cells e = bitAt m.cells c →
        ¬ KeyBefore enode.key cnode.key := by
  have hpairwise := h.wellFormed.pairwise_split h.stored.indexed
  obtain ⟨x, hx⟩ : ∃ x, (t.nodes.find? fun e => bitAt m.cells e = bitAt m.cells c) = some x := by
    refine Option.isSome_iff_exists.mp (find?_isSome.mpr ⟨c, hc, ?_⟩)
    simp
  have hfirst : firstNode m.cells head t.nodes (bitAt m.cells c) = x := by
    unfold firstNode
    rw [hx]
    rfl
  obtain ⟨hxbit, before, after, hnodes, hbefore⟩ := find?_eq_some_iff_append.mp hx
  have hxbit : bitAt m.cells x = bitAt m.cells c := by simpa using hxbit
  rw [hnodes] at hpairwise
  have hafter : ∀ e ∈ after, bitAt m.cells x = bitAt m.cells e →
      ∃ b, SplitAt b (bitsAt m.cells x) (bitsAt m.cells e) :=
    (pairwise_cons.mp (pairwise_append.mp hpairwise).2.1).1
  have hbefore : ∀ e ∈ before, bitAt m.cells e ≠ bitAt m.cells c := by
    intro e he
    simpa using hbefore e he
  rw [hfirst]
  constructor
  · rintro rfl e he enode henode hbit hkey
    rw [hnodes] at he
    rcases mem_append.mp he with he | he
    · exact hbefore e he hbit
    rcases mem_cons.mp he with rfl | he
    · cases henode.symm.trans hcnode
      exact hkey.asymm hkey
    · obtain ⟨b, hsplit⟩ := hafter e he hbit.symm
      rw [bitsAt_eq hcnode, bitsAt_eq henode] at hsplit
      exact hkey.asymm ⟨b, hsplit⟩
  · intro hall
    have hmem := hc
    rw [hnodes] at hmem
    rcases mem_append.mp hmem with hmem | hmem
    · exact absurd rfl (hbefore c hmem)
    rcases mem_cons.mp hmem with hmem | hmem
    · exact hmem.symm
    obtain ⟨xnode, hxnode⟩ := h.stored.exists_cell (mem_of_find?_eq_some hx)
    obtain ⟨b, hsplit⟩ := hafter c hmem hxbit
    rw [bitsAt_eq hxnode, bitsAt_eq hcnode] at hsplit
    exact absurd ⟨b, hsplit⟩ (hall x (mem_of_find?_eq_some hx) xnode hxnode hxbit)

theorem Represents.mem_nodes (h : Represents m head t) (ha : a ∈ head :: t.nodes)
    (hbit : 0 ≤ bitAt m.cells a) : a ∈ t.nodes := by
  refine (mem_cons.mp ha).resolve_left ?_
  rintro rfl
  rw [h.bit_head] at hbit
  omega

variable (hg : Adapted m₀ head t t.nodes ownPlace g)

include hg

theorem Adapted.eq_firstNode {right : Bool}
    (ha : a ∈ t.nodes) (hnode : m₀.cells a = some node) (hchild : child node right = c)
    (hlt : bitAt m₀.cells c < bitAt m₀.cells a) :
    g (a, right) = firstNode m₀.cells head t.nodes (bitAt m₀.cells c) := by
  rw [hg.adapted a ha node hnode right, hchild]
  exact if_pos hlt

variable (h : Represents m₀ head t)

include h

theorem Represents.backLinksFirst
    (hall : ∀ k : Key w, copyFind head t g k = t.find (bitsOf k)) : BackLinksFirst m₀ head := by
  intro a c e nodeA nodeC nodeE ha he hnodeA hnodeC hnodeE hlink hnonneg hlt hbit
  have hbitA := bitAt_eq hnodeA
  have hbitC := bitAt_eq hnodeC
  have hbitE := bitAt_eq hnodeE
  have hmemA := h.mem_nodes (h.mem_of_reaches ha) (by omega)
  have hmemE := h.mem_nodes (h.mem_of_reaches he) (by omega)
  obtain ⟨right, rfl⟩ : ∃ right, child nodeA right = c := by
    rcases hlink with hleft | hright
    · exact ⟨false, hleft⟩
    · exact ⟨true, hright⟩
  have hmemC := h.mem_nodes (h.child_mem (mem_cons_of_mem _ hmemA) hnodeA right) (by omega)
  -- the key of the node leads to the place where the link is
  have hend : ((a, right), child nodeA right) ∈ t.ends (head, true) :=
    h.linked.mem_ends hmemA hnodeA (by omega)
  have hfind := h.wellFormed.sound.findEnd_eq hend
  rw [bitsAt_eq hnodeC] at hfind
  have hkey := hall nodeC.key
  rw [← t.snd_findEnd (bitsOf nodeC.key) (head, true)] at hkey
  unfold copyFind at hkey
  rw [hfind, hg.eq_firstNode hmemA hnodeA rfl (by omega)] at hkey
  exact (h.firstNode_eq_iff hmemC hnodeC).mp hkey e hmemE nodeE hnodeE (by omega)

theorem Represents.adapted_end (hfirst : BackLinksFirst m₀ head) {p : Nat × Bool}
    (hend : (p, c) ∈ t.ends (head, true)) : g p = c := by
  obtain ⟨a, right⟩ := p
  have hplaced := h.wellFormed.placed.end_lt h.stored.indexed (by rw [h.bit_head]; decide)
    (fun c hc => .inl hc) hend
  have hmemC : c ∈ head :: t.nodes :=
    h.wellFormed.perm.mem_iff.mp (mem_leaves_of_mem_ends hend)
  rcases h.stored.end_child hend with ⟨hplace, -⟩ | ⟨hmemA, nodeA, hnodeA, hchild⟩
  · obtain ⟨rfl, rfl⟩ := Prod.mk.inj hplace
    rw [hg.others a (nodup_cons.mp h.wellFormed.nodup).1 true]
    rcases hplaced with rfl | hlt
    · rfl
    · have hlow : bitAt m₀.cells c < -1 := h.bit_head ▸ hlt
      exact (h.eq_head hmemC (by omega)).symm
  · rcases hplaced with rfl | hlt
    · rw [hg.adapted c hmemA nodeA hnodeA right, show child nodeA right = c from hchild]
      exact if_neg (Int.lt_irrefl _)
    · rw [hg.eq_firstNode hmemA hnodeA hchild hlt]
      rcases mem_cons.mp hmemC with rfl | hmemC
      · rw [h.bit_head, h.firstNode_head]
      · obtain ⟨nodeC, hnodeC⟩ := h.stored.exists_cell hmemC
        refine (h.firstNode_eq_iff hmemC hnodeC).mpr fun e he nodeE hnodeE hbit => ?_
        have hbitA := bitAt_eq hnodeA
        have hbitC := bitAt_eq hnodeC
        have hbitE := bitAt_eq hnodeE
        have hnonneg := h.bit_nonneg hmemC
        refine hfirst a c e nodeA nodeC nodeE (h.reaches (mem_cons_of_mem _ hmemA))
          (h.reaches (mem_cons_of_mem _ he)) hnodeA hnodeC hnodeE ?_ (by omega) (by omega)
          (by omega)
        cases right with
        | false => exact .inl hchild
        | true => exact .inr hchild

theorem Represents.copyFind_iff :
    (∀ k : Key w, copyFind head t g k = t.find (bitsOf k)) ↔ BackLinksFirst m₀ head := by
  refine ⟨h.backLinksFirst hg, fun hfirst k => ?_⟩
  rw [← t.snd_findEnd (bitsOf k) (head, true)]
  exact h.adapted_end hg hfirst (t.findEnd_mem (bitsOf k) (head, true))

omit hg

theorem Represents.copyFaithful_iff [DecidableEq T] :
    CopyFaithful m₀ head ↔ BackLinksFirst m₀ head := by
  obtain ⟨ρ, g, m, hok, hcopy, hadapted⟩ := h.copy
  rw [hcopy.faithful_iff_copyFind hok, h.copyFind_iff hadapted]

omit h

/-! ## Tries built by Insert -/

theorem Represents.insertAll (h : Represents m head t) (items : List (Key w × T)) :
    ∃ m' t', m.insertAll head items = .ok m' ∧ Represents m' head t' := by
  induction items generalizing m t with
  | nil => exact ⟨m, t, rfl, h⟩
  | cons item rest ih =>
    obtain ⟨k, d⟩ := item
    obtain ⟨found, hfound⟩ := h.exists_cell (h.find_mem k)
    obtain ⟨node, m₁, t₁, hok₁, h₁⟩ :
        ∃ node m₁ t₁, m.insert head k d = .ok (node, m₁) ∧ Represents m₁ head t₁ := by
      by_cases hk : k = found.key
      · exact ⟨none, m, t, h.insert_of_mem hfound hk d, h⟩
      · obtain ⟨m₁, t₁, hok₁, h₁, -⟩ := h.insert_of_not_mem hfound hk d
        exact ⟨_, m₁, t₁, hok₁, h₁⟩
    obtain ⟨m', t', hok, h'⟩ := ih h₁
    refine ⟨m', t', ?_, h'⟩
    unfold insertAll
    rw [hok₁]
    exact hok

def built (defaultKey : Key w) (defaultData : T) (items : List (Key w × T)) :
    Except Stop (Memory w T) :=
  (Memory.empty.create defaultKey defaultData).2.insertAll 0 items

/-- `Copy` of a trie that was built by `Insert` is faithful exactly if every node with a link up
to it has the smallest key of all nodes with its bit number. -/
theorem copy_faithful_iff [DecidableEq T] (defaultKey : Key w) (defaultData : T)
    (items : List (Key w × T)) :
    ∃ m, built defaultKey defaultData items = .ok m ∧
      (CopyFaithful m 0 ↔ BackLinksFirst m 0) := by
  obtain ⟨m, t, hok, h⟩ := (represents_create defaultKey defaultData).insertAll items
  exact ⟨m, hok, h.copyFaithful_iff⟩

/-- The keys 10.., 01.., 110.. and 111..: the nodes of the second and the third have the bit
number 1, and the fourth links up to the third. -/
def sideBySide : List (Key 1 × Nat) := [(#v[0x80], 1), (#v[0x40], 2), (#v[0xC0], 3), (#v[0xE0], 4)]

theorem copy_not_faithful :
    ¬ ∀ items : List (Key 1 × Nat), (∀ item ∈ items, item.1 ≠ #v[0]) →
      ∃ m, built #v[0] 0 items = .ok m ∧ CopyFaithful m 0 := by
  intro hall
  obtain ⟨m, hbuilt, newHead, m', hcopy, -, hfound⟩ := hall sideBySide (by decide)
  obtain ⟨⟨d, hold, hnew⟩, -⟩ := hfound #v[0xC0]
  have hruns : ((built #v[0] 0 sideBySide >>= fun m => m.copy 0) >>= fun copy =>
      copy.2.nodeData 0 #v[0xC0] >>= fun d => copy.2.nodeData copy.1 #v[0xC0] >>= fun d' =>
        Except.ok (d, d')) = Except.ok (some 3, none) := by decide +kernel
  rw [hbuilt] at hruns
  change ((m.copy 0) >>= _) = _ at hruns
  rw [hcopy] at hruns
  change (m'.nodeData 0 #v[0xC0] >>= _) = _ at hruns
  rw [hold] at hruns
  rw [hnew] at hruns
  cases hruns

end Found

end WormsAttack.Distack.PatriciaTrie
