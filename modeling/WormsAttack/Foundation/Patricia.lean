/-
  Trees that test one bit in each node.

  What stands at the end of a branch is a link up to a node, and each node is at the end of
  exactly one branch.  So a tree of `n` nodes has `n + 1` ends, and the one too many links to a
  label above the tree, the top.

  In a sound tree a node with bit `b` parts the keys on its left from those on its right: they
  agree in all bits before `b`, and `b` is 0 on the left and 1 on the right.

  CONTEXTS.  The way down to what an operation changes is a list of frames, innermost first, and
  `plug` puts a tree where the way ends.
-/
import Mathlib.Data.List.Perm.Basic
import Mathlib.Data.List.Nodup

namespace WormsAttack.Foundation.Patricia

open List Function

inductive Tree (α : Type)
  | up (target : α)
  | node (label : α) (bit : Nat) (left right : Tree α)

/-- The keys part at bit `b`, the first to the left. -/
def SplitAt (b : Nat) (k k' : Nat → Bool) : Prop :=
  (∀ j < b, k j = k' j) ∧ k b = false ∧ k' b = true

/-- The first bit in which two keys differ. -/
def DifferAt (b : Nat) (k k' : Nat → Bool) : Prop :=
  (∀ j < b, k j = k' j) ∧ k b ≠ k' b

variable {k k' : Nat → Bool} {b : Nat}

theorem SplitAt.congr {m m' : Nat → Bool} (h : SplitAt b k k') (hk : ∀ j ≤ b, m j = k j)
    (hk' : ∀ j ≤ b, m' j = k' j) : SplitAt b m m' := by
  refine ⟨fun j hj => ?_, ?_, ?_⟩
  · rw [hk j (Nat.le_of_lt hj), hk' j (Nat.le_of_lt hj), h.1 j hj]
  · rw [hk b (Nat.le_refl b), h.2.1]
  · rw [hk' b (Nat.le_refl b), h.2.2]

theorem SplitAt.differAt (h : SplitAt b k k') : DifferAt b k k' :=
  ⟨h.1, by simp [h.2.1, h.2.2]⟩

theorem DifferAt.symm (h : DifferAt b k k') : DifferAt b k' k :=
  ⟨fun j hj => (h.1 j hj).symm, h.2.symm⟩

theorem DifferAt.unique {b' : Nat} (h : DifferAt b k k') (h' : DifferAt b' k k') : b = b' := by
  rcases Nat.lt_trichotomy b b' with hlt | heq | hgt
  · exact absurd (h'.1 b hlt) h.2
  · exact heq
  · exact absurd (h.1 b' hgt) h'.2

namespace Tree

variable {α : Type}

def root : Tree α → α
  | up a => a
  | node a _ _ _ => a

/-- The labels at the ends of the branches, from left to right. -/
def leaves : Tree α → List α
  | up a => [a]
  | node _ _ l r => l.leaves ++ r.leaves

/-- The labels of the nodes, each before those below it. -/
def nodes : Tree α → List α
  | up _ => []
  | node a _ l r => a :: (l.nodes ++ r.nodes)

def depth : Tree α → Nat
  | up _ => 0
  | node _ _ l r => max l.depth r.depth + 1

def find (k : Nat → Bool) : Tree α → α
  | up a => a
  | node _ b l r => if k b then r.find k else l.find k

def mapLeaves (ρ : α → α) : Tree α → Tree α
  | up a => up (ρ a)
  | node a b l r => node a b (l.mapLeaves ρ) (r.mapLeaves ρ)

@[simp]
theorem leaves_mapLeaves (ρ : α → α) (t : Tree α) : (t.mapLeaves ρ).leaves = t.leaves.map ρ := by
  induction t with
  | up a => rfl
  | node a b l r ihl ihr => simp only [mapLeaves, leaves, ihl, ihr, map_append]

@[simp]
theorem nodes_mapLeaves (ρ : α → α) (t : Tree α) : (t.mapLeaves ρ).nodes = t.nodes := by
  induction t with
  | up a => rfl
  | node a b l r ihl ihr => simp only [mapLeaves, nodes, ihl, ihr]

theorem mapLeaves_eq_self {t : Tree α} {ρ : α → α} (h : ∀ c ∈ t.leaves, ρ c = c) :
    t.mapLeaves ρ = t := by
  induction t with
  | up a => exact congrArg up (h a (mem_singleton_self a))
  | node a b l r ihl ihr =>
    unfold mapLeaves
    rw [ihl fun c hc => h c (mem_append_left _ hc), ihr fun c hc => h c (mem_append_right _ hc)]

theorem mem_nodes_left {a c : α} {b : Nat} {l r : Tree α} (h : c ∈ l.nodes) :
    c ∈ (node a b l r).nodes :=
  mem_cons_of_mem _ (mem_append_left _ h)

theorem mem_nodes_right {a c : α} {b : Nat} {l r : Tree α} (h : c ∈ r.nodes) :
    c ∈ (node a b l r).nodes :=
  mem_cons_of_mem _ (mem_append_right _ h)

theorem exists_mem_leaves (t : Tree α) : ∃ c, c ∈ t.leaves := by
  induction t with
  | up a => exact ⟨a, mem_singleton_self a⟩
  | node a b l r ihl ihr =>
    obtain ⟨c, hc⟩ := ihl
    exact ⟨c, mem_append_left _ hc⟩

theorem find_mem_leaves (k : Nat → Bool) (t : Tree α) : t.find k ∈ t.leaves := by
  induction t with
  | up a => exact mem_singleton_self a
  | node a b l r ihl ihr =>
    unfold find leaves
    split_ifs
    · exact mem_append_right _ ihr
    · exact mem_append_left _ ihl

/-! ## Sound trees -/

/-- Each node parts the keys on its two sides. -/
def Sound (bits : α → Nat → Bool) : Tree α → Prop
  | up _ => True
  | node _ b l r =>
      (∀ c ∈ l.leaves, ∀ d ∈ r.leaves, SplitAt b (bits c) (bits d)) ∧
        l.Sound bits ∧ r.Sound bits

section Sound

variable {bits : α → Nat → Bool} {t : Tree α} {bits' : α → Nat → Bool}

theorem Sound.mapLeaves {ρ : α → α} (h : t.Sound bits)
    (heq : ∀ c ∈ t.leaves, bits' (ρ c) = bits c) : (t.mapLeaves ρ).Sound bits' := by
  induction t with
  | up a => trivial
  | node a b l r ihl ihr =>
    obtain ⟨hsplit, hl, hr⟩ := h
    have hleft : ∀ c ∈ l.leaves, bits' (ρ c) = bits c :=
      fun c hc => heq c (mem_append_left _ hc)
    have hright : ∀ c ∈ r.leaves, bits' (ρ c) = bits c :=
      fun c hc => heq c (mem_append_right _ hc)
    refine ⟨?_, ihl hl hleft, ihr hr hright⟩
    simp only [leaves_mapLeaves, forall_mem_map]
    intro c hc d hd
    rw [hleft c hc, hright d hd]
    exact hsplit c hc d hd

theorem Sound.congr (h : t.Sound bits)
    (heq : ∀ c ∈ t.leaves, bits' c = bits c) : t.Sound bits' := by
  have hsame : t.mapLeaves id = t := mapLeaves_eq_self fun _ _ => rfl
  rw [← hsame]
  exact h.mapLeaves heq

variable {a : α} {b : Nat} {l r : Tree α} {c : α} (h : (node a b l r).Sound bits)

include h

theorem Sound.bit_left (hc : c ∈ l.leaves) : bits c b = false := by
  obtain ⟨d, hd⟩ := r.exists_mem_leaves
  exact (h.1 c hc d hd).2.1

theorem Sound.bit_right {d : α} (hd : d ∈ r.leaves) : bits d b = true := by
  obtain ⟨c, hc⟩ := l.exists_mem_leaves
  exact (h.1 c hc d hd).2.2

theorem Sound.agree {d : α} (hc : c ∈ (node a b l r).leaves)
    (hd : d ∈ (node a b l r).leaves) {j : Nat} (hj : j < b) : bits c j = bits d j := by
  obtain ⟨x, hx⟩ := l.exists_mem_leaves
  obtain ⟨y, hy⟩ := r.exists_mem_leaves
  -- each of them agrees with one from the other side
  have hside : ∀ z ∈ (node a b l r).leaves, bits z j = bits x j := by
    intro z hz
    rcases mem_append.mp hz with hl | hr
    · rw [(h.1 z hl y hy).1 j hj, (h.1 x hx y hy).1 j hj]
    · exact ((h.1 x hx z hr).1 j hj).symm
  rw [hside c hc, hside d hd]

omit h in
theorem Sound.find_eq (h : t.Sound bits) (hc : c ∈ t.leaves) : t.find (bits c) = c := by
  induction t with
  | up a => exact (mem_singleton.mp hc).symm
  | node a b l r ihl ihr =>
    unfold find
    rcases mem_append.mp hc with hl | hr
    · rw [h.bit_left hl]
      exact ihl h.2.1 hl
    · rw [h.bit_right hr]
      exact ihr h.2.2 hr

theorem Sound.bits_find (k : Nat → Bool) : bits ((node a b l r).find k) b = k b := by
  unfold find
  cases hk : k b with
  | false => exact h.bit_left (l.find_mem_leaves k)
  | true => exact h.bit_right (r.find_mem_leaves k)

omit h

theorem Sound.differAt_find (h : t.Sound bits) (k : Nat → Bool) (hc : c ∈ t.leaves)
    (hne : c ≠ t.find k) :
    ∃ b, DifferAt b (bits c) (bits (t.find k)) ∧ k b = bits (t.find k) b := by
  induction t with
  | up a => exact absurd (mem_singleton.mp hc) hne
  | node a b l r ihl ihr =>
    have hbit := (h.bits_find k).symm
    unfold find at hne hbit ⊢
    split_ifs at hne hbit ⊢ with hk
    · rcases mem_append.mp hc with hl | hr
      · exact ⟨b, (h.1 c hl _ (r.find_mem_leaves k)).differAt, hbit⟩
      · exact ihr h.2.2 hr hne
    · rcases mem_append.mp hc with hl | hr
      · exact ihl h.2.1 hl hne
      · exact ⟨b, (h.1 _ (l.find_mem_leaves k) c hr).differAt.symm, hbit⟩

/-- A key leads to a label exactly if it has the label's bit wherever the label's key differs
from that of another one for the first time. -/
theorem Sound.find_eq_iff (h : t.Sound bits) (k : Nat → Bool) (hc : c ∈ t.leaves) :
    t.find k = c ↔
      ∀ d ∈ t.leaves, ∀ b, DifferAt b (bits c) (bits d) → k b = bits c b := by
  constructor
  · rintro rfl d hd b hdiff
    have hne : d ≠ t.find k := by
      rintro rfl
      exact hdiff.2 rfl
    obtain ⟨b', hdiff', hk⟩ := h.differAt_find k hd hne
    rw [hdiff.symm.unique hdiff']
    exact hk
  · intro hall
    by_contra hne
    obtain ⟨b, hdiff, hk⟩ := h.differAt_find k hc (Ne.symm hne)
    have hother := hall _ (t.find_mem_leaves k) b hdiff
    exact hdiff.2 (hother.symm.trans hk)

end Sound

/-! ## Links go up -/

/-- Every node has a bit below `hi`, and a larger one than the node above it, which is at least
`lo - 1`.  Every link goes to a label on the way down, or to one in `scope`. -/
def Placed (hi : Nat) : (scope : α → Prop) → (lo : Nat) → Tree α → Prop
  | scope, _, up a => scope a
  | scope, lo, node a b l r =>
      lo ≤ b ∧ b < hi ∧ l.Placed hi (fun c => c = a ∨ scope c) (b + 1) ∧
        r.Placed hi (fun c => c = a ∨ scope c) (b + 1)

section Placed

variable {hi : Nat} {scope : α → Prop} {lo : Nat} {t : Tree α} (h : t.Placed hi scope lo)

include h

variable {scope' : α → Prop}

theorem Placed.mono {lo' : Nat}
    (hscope : ∀ c, scope c → scope' c) (hlo : lo' ≤ lo) : t.Placed hi scope' lo' := by
  induction t generalizing scope scope' lo lo' with
  | up a => exact hscope a h
  | node a b l r ihl ihr =>
    obtain ⟨hb, hhi, hl, hr⟩ := h
    have hwider : ∀ c, c = a ∨ scope c → c = a ∨ scope' c := fun c hc => hc.imp_right (hscope c)
    exact ⟨Nat.le_trans hlo hb, hhi, ihl hl hwider (Nat.le_refl _), ihr hr hwider (Nat.le_refl _)⟩

theorem Placed.mapLeaves {ρ : α → α}
    (hscope : ∀ c ∈ t.leaves, scope c → scope' (ρ c)) (hfix : ∀ c ∈ t.nodes, ρ c = c) :
    (t.mapLeaves ρ).Placed hi scope' lo := by
  induction t generalizing scope scope' lo with
  | up a => exact hscope a (mem_singleton_self a) h
  | node a b l r ihl ihr =>
    obtain ⟨hb, hhi, hl, hr⟩ := h
    have hwider : ∀ c ∈ (node a b l r).leaves, c = a ∨ scope c → ρ c = a ∨ scope' (ρ c) := by
      rintro c hmem (rfl | hc)
      · exact .inl (hfix c mem_cons_self)
      · exact .inr (hscope c hmem hc)
    refine ⟨hb, hhi, ihl hl (fun c hc => hwider c (mem_append_left _ hc)) fun c hc => ?_,
      ihr hr (fun c hc => hwider c (mem_append_right _ hc)) fun c hc => ?_⟩
    · exact hfix c (mem_nodes_left hc)
    · exact hfix c (mem_nodes_right hc)

theorem Placed.leaf_mem {c : α} (hc : c ∈ t.leaves) : c ∈ t.nodes ∨ scope c := by
  induction t generalizing scope lo with
  | up a => exact .inr (mem_singleton.mp hc ▸ h)
  | node a b l r ihl ihr =>
    obtain ⟨-, -, hl, hr⟩ := h
    rcases mem_append.mp hc with hc | hc
    · rcases ihl hl hc with hn | rfl | hs
      · exact .inl (mem_nodes_left hn)
      · exact .inl mem_cons_self
      · exact .inr hs
    · rcases ihr hr hc with hn | rfl | hs
      · exact .inl (mem_nodes_right hn)
      · exact .inl mem_cons_self
      · exact .inr hs

theorem Placed.depth_le (hlo : lo ≤ hi) : t.depth ≤ hi - lo := by
  induction t generalizing scope lo with
  | up a => exact Nat.zero_le _
  | node a b l r ihl ihr =>
    obtain ⟨hb, hhi, hl, hr⟩ := h
    have hl := ihl hl hhi
    have hr := ihr hr hhi
    unfold depth
    omega

end Placed

/-! ## Contexts -/

end Tree

/-- A node on the way down: the way goes on to the right or to the left, and the other side
is left behind. -/
structure Frame (α : Type) where
  label : α
  bit : Nat
  right : Bool
  other : Tree α

variable {α : Type}

def Frame.fill (f : Frame α) (t : Tree α) : Tree α :=
  if f.right then .node f.label f.bit f.other t else .node f.label f.bit t f.other

def Frame.swap (f : Frame α) (t : Tree α) : Frame α :=
  { f with right := !f.right, other := t }

theorem Frame.fill_swap (f : Frame α) (t : Tree α) : (f.swap t).fill f.other = f.fill t := by
  unfold Frame.fill Frame.swap
  cases f.right <;> rfl

def plug : List (Frame α) → Tree α → Tree α
  | [], t => t
  | f :: fs, t => plug fs (f.fill t)

def parent (top : α) : List (Frame α) → α
  | [] => top
  | f :: _ => f.label

@[simp]
theorem plug_append (fs gs : List (Frame α)) (t : Tree α) :
    plug (fs ++ gs) t = plug gs (plug fs t) := by
  induction fs generalizing t with
  | nil => rfl
  | cons f fs ih => exact ih (f.fill t)

theorem plug_swap (f : Frame α) (gs : List (Frame α)) (t : Tree α) :
    plug (f.swap t :: gs) f.other = plug (f :: gs) t :=
  congrArg (plug gs) (f.fill_swap t)

theorem parent_append (top : α) (fs : List (Frame α)) (f : Frame α) :
    parent top (fs ++ [f]) = parent f.label fs := by
  cases fs with
  | nil | cons g gs => rfl

theorem Frame.leaves_fill (f : Frame α) (t : Tree α) :
    (f.fill t).leaves.Perm (t.leaves ++ f.other.leaves) := by
  unfold Frame.fill
  split_ifs
  · exact perm_append_comm
  · exact List.Perm.refl _

theorem Frame.nodes_fill (f : Frame α) (t : Tree α) :
    (f.fill t).nodes.Perm (f.label :: (t.nodes ++ f.other.nodes)) := by
  unfold Frame.fill
  split_ifs
  · exact perm_append_comm.cons _
  · exact List.Perm.refl _

variable {t : Tree α}

@[simp]
theorem Frame.mem_leaves_fill {f : Frame α} {c : α} :
    c ∈ (f.fill t).leaves ↔ c ∈ t.leaves ∨ c ∈ f.other.leaves := by
  rw [(f.leaves_fill t).mem_iff, mem_append]

def ctxLeaves (fs : List (Frame α)) : List α := fs.flatMap fun f => f.other.leaves

def ctxNodes (fs : List (Frame α)) : List α := fs.flatMap fun f => f.label :: f.other.nodes

theorem leaves_plug (fs : List (Frame α)) (t : Tree α) :
    (plug fs t).leaves.Perm (t.leaves ++ ctxLeaves fs) := by
  induction fs generalizing t with
  | nil => simp [plug, ctxLeaves]
  | cons f fs ih =>
    refine (ih (f.fill t)).trans ?_
    unfold ctxLeaves
    rw [flatMap_cons, ← append_assoc]
    exact (f.leaves_fill t).append_right _

theorem nodes_plug (fs : List (Frame α)) (t : Tree α) :
    (plug fs t).nodes.Perm (t.nodes ++ ctxNodes fs) := by
  induction fs generalizing t with
  | nil => simp [plug, ctxNodes]
  | cons f fs ih =>
    refine (ih (f.fill t)).trans ?_
    unfold ctxNodes
    rw [flatMap_cons]
    refine ((f.nodes_fill t).append_right _).trans ?_
    rw [cons_append, append_assoc, cons_append]
    exact perm_middle.symm

theorem mapLeaves_plug {ρ : α → α} {fs : List (Frame α)} (h : ∀ c ∈ ctxLeaves fs, ρ c = c)
    (t : Tree α) : (plug fs t).mapLeaves ρ = plug fs (t.mapLeaves ρ) := by
  induction fs generalizing t with
  | nil => rfl
  | cons f fs ih =>
    have hother : f.other.mapLeaves ρ = f.other :=
      Tree.mapLeaves_eq_self fun c hc => h c (mem_append_left _ hc)
    have hfill : (f.fill t).mapLeaves ρ = f.fill (t.mapLeaves ρ) := by
      unfold Frame.fill
      split_ifs
      · rw [Tree.mapLeaves, hother]
      · rw [Tree.mapLeaves, hother]
    rw [plug, ih fun c hc => h c (mem_append_right _ hc), hfill, plug]

theorem find_fill {f : Frame α} (h : f.right = k f.bit) : (f.fill t).find k = t.find k := by
  unfold Frame.fill
  rw [h]
  cases hk : k f.bit <;> simp [Tree.find, hk]

theorem find_plug {fs : List (Frame α)} (h : ∀ f ∈ fs, f.right = k f.bit) :
    (plug fs t).find k = t.find k := by
  induction fs generalizing t with
  | nil => rfl
  | cons f fs ih =>
    rw [plug, ih fun g hg => h g (mem_cons_of_mem _ hg), find_fill (h f mem_cons_self)]

/-! ### Sound contexts -/

section Sound

variable {bits : α → Nat → Bool}

def Frame.Admits (bits : α → Nat → Bool) (f : Frame α) (k : Nat → Bool) : Prop :=
  ∀ c ∈ f.other.leaves, if f.right then SplitAt f.bit (bits c) k else SplitAt f.bit k (bits c)

theorem Frame.Admits.congr {f : Frame α} {k k' : Nat → Bool} (h : f.Admits bits k)
    (heq : ∀ j ≤ f.bit, k' j = k j) : f.Admits bits k' := by
  intro c hc
  have hc := h c hc
  split_ifs at hc ⊢
  · exact hc.congr (fun _ _ => rfl) heq
  · exact hc.congr heq (fun _ _ => rfl)

theorem Frame.sound_fill {f : Frame α} {t : Tree α} :
    (f.fill t).Sound bits ↔
      t.Sound bits ∧ f.other.Sound bits ∧ ∀ c ∈ t.leaves, f.Admits bits (bits c) := by
  unfold Frame.fill Frame.Admits
  split_ifs
  · constructor
    · rintro ⟨hsplit, hother, ht⟩
      exact ⟨ht, hother, fun c hc d hd => hsplit d hd c hc⟩
    · rintro ⟨ht, hother, hsplit⟩
      exact ⟨fun d hd c hc => hsplit c hc d hd, hother, ht⟩
  · constructor
    · rintro ⟨hsplit, ht, hother⟩
      exact ⟨ht, hother, hsplit⟩
    · rintro ⟨ht, hother, hsplit⟩
      exact ⟨hsplit, ht, hother⟩

def CtxSound (bits : α → Nat → Bool) : List (Frame α) → Prop
  | [] => True
  | f :: fs =>
      f.other.Sound bits ∧ (∀ c ∈ f.other.leaves, ∀ g ∈ fs, g.Admits bits (bits c)) ∧
        CtxSound bits fs

theorem sound_plug {fs : List (Frame α)} {t : Tree α} :
    (plug fs t).Sound bits ↔
      t.Sound bits ∧ (∀ c ∈ t.leaves, ∀ f ∈ fs, f.Admits bits (bits c)) ∧ CtxSound bits fs := by
  induction fs generalizing t with
  | nil => simp [plug, CtxSound]
  | cons f fs ih =>
    rw [plug, ih, Frame.sound_fill, CtxSound]
    constructor
    · rintro ⟨⟨ht, hother, hadmits⟩, hall, hctx⟩
      refine ⟨ht, fun c hc g hg => ?_, hother, fun c hc g hg => ?_, hctx⟩
      · rcases mem_cons.mp hg with rfl | hg
        · exact hadmits c hc
        · exact hall c (Frame.mem_leaves_fill.mpr (.inl hc)) g hg
      · exact hall c (Frame.mem_leaves_fill.mpr (.inr hc)) g hg
    · rintro ⟨ht, hall, hother, hothers, hctx⟩
      refine ⟨⟨ht, hother, fun c hc => hall c hc f mem_cons_self⟩, fun c hc g hg => ?_, hctx⟩
      rcases Frame.mem_leaves_fill.mp hc with hc | hc
      · exact hall c hc g (mem_cons_of_mem _ hg)
      · exact hothers c hc g hg

theorem CtxSound.congr {bits' : α → Nat → Bool} {fs : List (Frame α)} (h : CtxSound bits fs)
    (heq : ∀ c ∈ ctxLeaves fs, bits' c = bits c) : CtxSound bits' fs := by
  induction fs with
  | nil => trivial
  | cons f fs ih =>
    obtain ⟨hother, hadmits, hctx⟩ := h
    have hhere : ∀ c ∈ f.other.leaves, bits' c = bits c :=
      fun c hc => heq c (mem_flatMap.mpr ⟨f, mem_cons_self, hc⟩)
    have houter : ∀ c ∈ ctxLeaves fs, bits' c = bits c := by
      intro c hc
      obtain ⟨g, hg, hcg⟩ := mem_flatMap.mp hc
      exact heq c (mem_flatMap.mpr ⟨g, mem_cons_of_mem _ hg, hcg⟩)
    refine ⟨hother.congr hhere, fun c hc g hg => ?_, ih hctx houter⟩
    intro d hd
    rw [hhere c hc, houter d (mem_flatMap.mpr ⟨g, hg, hd⟩)]
    exact hadmits c hc g hg d hd

end Sound

/-! ### Placed contexts -/

section Placed

variable {hi : Nat}

def scopeAt (scope : α → Prop) : List (Frame α) → α → Prop
  | [] => scope
  | f :: fs => fun c => c = f.label ∨ scopeAt scope fs c

def lowest (lo : Nat) : List (Frame α) → Nat
  | [] => lo
  | f :: _ => f.bit + 1

def CtxPlaced (hi : Nat) (scope : α → Prop) (lo : Nat) : List (Frame α) → Prop
  | [] => True
  | f :: fs =>
      lowest lo fs ≤ f.bit ∧ f.bit < hi ∧
        f.other.Placed hi (scopeAt scope (f :: fs)) (f.bit + 1) ∧ CtxPlaced hi scope lo fs

variable {fs : List (Frame α)} {scope : α → Prop}

theorem placed_plug {lo : Nat} {t : Tree α} :
    (plug fs t).Placed hi scope lo ↔
      t.Placed hi (scopeAt scope fs) (lowest lo fs) ∧ CtxPlaced hi scope lo fs := by
  induction fs generalizing t with
  | nil => simp [plug, CtxPlaced, scopeAt, lowest]
  | cons f fs ih =>
    rw [plug, ih]
    unfold Frame.fill
    split_ifs
    · constructor
      · rintro ⟨⟨hb, hhi, hother, ht⟩, hctx⟩
        exact ⟨ht, hb, hhi, hother, hctx⟩
      · rintro ⟨ht, hb, hhi, hother, hctx⟩
        exact ⟨⟨hb, hhi, hother, ht⟩, hctx⟩
    · constructor
      · rintro ⟨⟨hb, hhi, ht, hother⟩, hctx⟩
        exact ⟨ht, hb, hhi, hother, hctx⟩
      · rintro ⟨ht, hb, hhi, hother, hctx⟩
        exact ⟨⟨hb, hhi, ht, hother⟩, hctx⟩

theorem scopeAt_iff {c : α} : scopeAt scope fs c ↔ c ∈ fs.map Frame.label ∨ scope c := by
  induction fs with
  | nil => simp [scopeAt]
  | cons f fs ih =>
    change (c = f.label ∨ scopeAt scope fs c) ↔ _
    rw [ih, map_cons, mem_cons, or_assoc]

theorem CtxPlaced.leaf_mem {scope : α → Prop} {lo : Nat} {fs : List (Frame α)}
    (h : CtxPlaced hi scope lo fs) {c : α} (hc : c ∈ ctxLeaves fs) : c ∈ ctxNodes fs ∨ scope c := by
  have hlabels : ∀ gs : List (Frame α), ∀ c ∈ gs.map Frame.label, c ∈ ctxNodes gs := by
    intro gs c hc
    obtain ⟨g, hg, rfl⟩ := mem_map.mp hc
    exact mem_flatMap.mpr ⟨g, hg, mem_cons_self⟩
  induction fs with
  | nil => cases hc
  | cons f fs ih =>
    obtain ⟨-, -, hother, hctx⟩ := h
    unfold ctxLeaves at hc
    rw [flatMap_cons, mem_append] at hc
    rcases hc with hc | hc
    · rcases hother.leaf_mem hc with hn | hs
      · exact .inl (mem_flatMap.mpr ⟨f, mem_cons_self, mem_cons_of_mem _ hn⟩)
      · exact (scopeAt_iff.mp hs).imp_left (hlabels (f :: fs) c)
    · refine (ih hctx hc).imp_left fun hn => ?_
      exact mem_append_right _ hn

end Placed

/-! ## Well-formed trees -/

/-- A sound tree in which each node, and the top, is at the end of exactly one branch, which
goes through the node. -/
structure WellFormed (bits : α → Nat → Bool) (hi : Nat) (top : α) (t : Tree α) : Prop where
  sound : t.Sound bits
  placed : t.Placed hi (· = top) 0
  nodup : (top :: t.nodes).Nodup
  perm : t.leaves.Perm (top :: t.nodes)

namespace WellFormed

variable {bits : α → Nat → Bool} {hi : Nat} {top : α}

theorem empty (bits : α → Nat → Bool) (hi : Nat) (top : α) : WellFormed bits hi top (.up top) where
  sound := trivial
  placed := rfl
  nodup := nodup_singleton top
  perm := List.Perm.refl _

theorem nodup_leaves {t : Tree α} (h : WellFormed bits hi top t) : t.leaves.Nodup :=
  h.perm.nodup_iff.mpr h.nodup

theorem congr {bits' : α → Nat → Bool} {t : Tree α} (h : WellFormed bits hi top t)
    (heq : ∀ c ∈ top :: t.nodes, bits' c = bits c) : WellFormed bits' hi top t :=
  { h with sound := h.sound.congr fun c hc => heq c (h.perm.mem_iff.mp hc) }

/-! ### A new node -/

/-- All keys in the part of the tree where a new key comes in differ from it at the same bit. -/
theorem differAt_leaves {x : Tree α} {k : Nat → Bool} {i : Nat} (hsound : x.Sound bits)
    (hdiff : DifferAt i k (bits (x.find k))) (hstop : ∀ a b l r, x = .node a b l r → i ≤ b) :
    (∀ c ∈ x.leaves, DifferAt i k (bits c)) ∧ ∀ a b l r, x = .node a b l r → i < b := by
  cases x with
  | up a =>
    refine ⟨fun c hc => ?_, nofun⟩
    rw [mem_singleton.mp hc]
    exact hdiff
  | node a b l r =>
    have hlt : i < b := by
      refine Nat.lt_of_le_of_ne (hstop a b l r rfl) ?_
      rintro rfl
      exact hdiff.2 (hsound.bits_find k).symm
    refine ⟨fun c hc => ?_, ?_⟩
    · have hagree : ∀ j < b, bits ((Tree.node a b l r).find k) j = bits c j :=
        fun j hj => hsound.agree (Tree.find_mem_leaves k _) hc hj
      refine ⟨fun j hj => ?_, ?_⟩
      · rw [hdiff.1 j hj, hagree j (Nat.lt_trans hj hlt)]
      · rw [← hagree i hlt]
        exact hdiff.2
    · rintro a' b' l' r' heq
      cases heq
      exact hlt

theorem insert {fs : List (Frame α)} {x : Tree α} {k : Nat → Bool} {i : Nat} {a : α}
    (h : WellFormed bits hi top (plug fs x)) (hfs : ∀ f ∈ fs, f.right = k f.bit ∧ f.bit < i)
    (hstop : ∀ a b l r, x = .node a b l r → i ≤ b) (hi' : i < hi)
    (hdiff : DifferAt i k (bits ((plug fs x).find k))) (ha : a ∉ top :: (plug fs x).nodes)
    (hbits : bits a = k) : WellFormed bits hi top (plug (⟨a, i, !k i, .up a⟩ :: fs) x) := by
  obtain ⟨hx, hadmits, hctx⟩ := sound_plug.mp h.sound
  obtain ⟨hplaced, hctxplaced⟩ := placed_plug.mp h.placed
  rw [find_plug fun f hf => (hfs f hf).1] at hdiff
  obtain ⟨hdiffs, hlater⟩ := differAt_leaves hx hdiff hstop
  have hleaves : (plug (⟨a, i, !k i, .up a⟩ :: fs) x).leaves.Perm (a :: (plug fs x).leaves) := by
    refine (leaves_plug _ _).trans ?_
    refine List.Perm.trans ?_ ((leaves_plug fs x).symm.cons a)
    exact perm_middle
  have hnodes : (plug (⟨a, i, !k i, .up a⟩ :: fs) x).nodes.Perm (a :: (plug fs x).nodes) := by
    refine (nodes_plug _ _).trans ?_
    refine List.Perm.trans ?_ ((nodes_plug fs x).symm.cons a)
    exact perm_middle
  have hall : (top :: (plug (⟨a, i, !k i, .up a⟩ :: fs) x).nodes).Perm
      (a :: top :: (plug fs x).nodes) :=
    (hnodes.cons top).trans (List.Perm.swap a top _)
  refine ⟨sound_plug.mpr ⟨hx, ?_, ?_⟩, placed_plug.mpr ⟨?_, ?_⟩, ?_, ?_⟩
  · -- the keys below are parted from the new one, and from the rest as before
    intro c hc f hf
    rcases mem_cons.mp hf with rfl | hf
    · intro d hd
      rw [mem_singleton.mp hd, hbits]
      obtain ⟨hagree, hne⟩ := hdiffs c hc
      cases hk : k i with
      | false =>
        rw [hk] at hne
        exact ⟨hagree, hk, Bool.ne_false_iff.mp hne.symm⟩
      | true =>
        rw [hk] at hne
        exact ⟨fun j hj => (hagree j hj).symm, Bool.eq_false_iff.mpr hne.symm, hk⟩
    · exact hadmits c hc f hf
  · refine ⟨trivial, fun c hc f hf => ?_, hctx⟩
    -- the new key agrees with the one it was led to in all bits that were tested
    rw [mem_singleton.mp hc, hbits]
    refine (hadmits _ (x.find_mem_leaves k) f hf).congr fun j hj => ?_
    exact hdiff.1 j (Nat.lt_of_le_of_lt hj (hfs f hf).2)
  · cases x with
    | up c => exact .inr hplaced
    | node c b l r =>
      obtain ⟨-, hhi, hl, hr⟩ := hplaced
      have hwider : ∀ d, d = c ∨ scopeAt (· = top) fs d →
          d = c ∨ scopeAt (· = top) (⟨a, i, !k i, .up a⟩ :: fs) d :=
        fun d hd => hd.imp_right .inr
      exact ⟨hlater c b l r rfl, hhi, hl.mono hwider (Nat.le_refl _),
        hr.mono hwider (Nat.le_refl _)⟩
  · refine ⟨?_, hi', .inl rfl, hctxplaced⟩
    cases fs with
    | nil => exact Nat.zero_le i
    | cons f fs => exact (hfs f mem_cons_self).2
  · exact hall.nodup_iff.mpr (nodup_cons.mpr ⟨ha, h.nodup⟩)
  · exact (hleaves.trans (h.perm.cons a)).trans hall.symm

/-! ### A node less

The link to `t` at the end of a branch is taken away together with the node `f.label` above
it.  The label `t` gets the key of that node, and the link to the node goes to `t` instead. -/

section Delete

variable {f : Frame α} {gs : List (Frame α)} {t : α}

theorem leaves_delete (f : Frame α) (gs : List (Frame α)) (t : α) :
    (plug (f :: gs) (.up t)).leaves.Perm (t :: (plug gs f.other).leaves) :=
  (leaves_plug _ _).trans ((leaves_plug gs f.other).symm.cons t)

theorem nodes_delete (f : Frame α) (gs : List (Frame α)) (t : α) :
    (plug (f :: gs) (.up t)).nodes.Perm (f.label :: (plug gs f.other).nodes) :=
  (nodes_plug _ _).trans ((nodes_plug gs f.other).symm.cons f.label)

variable (h : WellFormed bits hi top (plug (f :: gs) (.up t)))

include h

theorem not_mem_leaves_of_delete : t ∉ (plug gs f.other).leaves :=
  (nodup_cons.mp ((leaves_delete f gs t).nodup_iff.mp h.nodup_leaves)).1

theorem nodup_of_delete :
    f.label ∉ top :: (plug gs f.other).nodes ∧ (top :: (plug gs f.other).nodes).Nodup := by
  have hall := ((nodes_delete f gs t).cons top).trans (List.Perm.swap f.label top _)
  exact nodup_cons.mp (hall.nodup_iff.mp h.nodup)

theorem label_not_mem_ctxLeaves : f.label ∉ ctxLeaves gs := by
  intro hmem
  obtain ⟨-, -, -, -, hctx⟩ := placed_plug.mp h.placed
  have hnot := h.nodup_of_delete.1
  rcases hctx.leaf_mem hmem with hn | rfl
  · refine hnot (mem_cons_of_mem _ ((nodes_plug gs f.other).mem_iff.mpr ?_))
    exact mem_append_right _ hn
  · exact hnot mem_cons_self

theorem label_mem_other (hne : f.label ≠ t) : f.label ∈ f.other.leaves := by
  have hnode : f.label ∈ top :: (plug (f :: gs) (.up t)).nodes :=
    mem_cons_of_mem _ ((nodes_delete f gs t).mem_iff.mpr mem_cons_self)
  have hleaf := (leaves_delete f gs t).mem_iff.mp (h.perm.mem_iff.mpr hnode)
  rcases mem_cons.mp hleaf with heq | hmem
  · exact absurd heq hne
  · rcases mem_append.mp ((leaves_plug gs f.other).mem_iff.mp hmem) with hmem | hmem
    · exact hmem
    · exact absurd hmem h.label_not_mem_ctxLeaves

theorem nodup_other : f.other.leaves.Nodup := by
  have hnodup := (nodup_cons.mp ((leaves_delete f gs t).nodup_iff.mp h.nodup_leaves)).2
  exact (nodup_append.mp ((leaves_plug gs f.other).nodup_iff.mp hnodup)).1

theorem depth_other_lt : f.other.depth < hi + 1 := by
  obtain ⟨-, -, hhi, hother, -⟩ := placed_plug.mp h.placed
  have hdepth := hother.depth_le hhi
  omega

theorem find_other (hne : f.label ≠ t) : f.other.find (bits f.label) = f.label := by
  obtain ⟨-, -, hother, -⟩ := sound_plug.mp h.sound
  exact hother.find_eq (h.label_mem_other hne)

theorem bit_other (hne : f.label ≠ t) : bits f.label f.bit = !f.right := by
  obtain ⟨-, hadmits, -⟩ := sound_plug.mp h.sound
  have hsplit := hadmits t (mem_singleton_self t) f mem_cons_self f.label
    (h.label_mem_other hne)
  cases hright : f.right with
  | false =>
    rw [hright] at hsplit
    exact hsplit.2.2
  | true =>
    rw [hright] at hsplit
    exact hsplit.2.1

variable [DecidableEq α]

def redirect (p t c : α) : α := if c = p then t else c

omit h in
theorem mapLeaves_redirect {fs : List (Frame α)} {p t : α} (h : (plug fs (.up p)).leaves.Nodup) :
    (plug fs (.up p)).mapLeaves (redirect p t) = plug fs (.up t) := by
  have hnot := (nodup_cons.mp ((leaves_plug fs (.up p)).nodup_iff.mp h)).1
  have hkeep : ∀ c ∈ ctxLeaves fs, redirect p t c = c := by
    intro c hc
    refine if_neg ?_
    rintro rfl
    exact hnot hc
  rw [mapLeaves_plug hkeep]
  exact congrArg (plug fs) (congrArg Tree.up (if_pos rfl))

theorem leaves_redirect : (plug gs (f.other.mapLeaves (redirect f.label t))).leaves.Perm
      ((plug gs f.other).leaves.map (redirect f.label t)) := by
  have hctx : (ctxLeaves gs).map (redirect f.label t) = ctxLeaves gs := by
    refine (map_congr_left fun c hc => ?_).trans (map_id _)
    refine if_neg ?_
    rintro rfl
    exact h.label_not_mem_ctxLeaves hc
  refine (leaves_plug _ _).trans ?_
  refine List.Perm.trans ?_ ((leaves_plug gs f.other).map _).symm
  rw [map_append, hctx, Tree.leaves_mapLeaves]

omit h in
theorem nodes_redirect :
    (plug gs (f.other.mapLeaves (redirect f.label t))).nodes.Perm (plug gs f.other).nodes := by
  refine (nodes_plug _ _).trans ?_
  rw [Tree.nodes_mapLeaves]
  exact (nodes_plug gs f.other).symm

theorem update_redirect {γ : Type} (data : α → γ) {c : α} (hc : c ∈ (plug gs f.other).leaves) :
    update data t (data f.label) (redirect f.label t c) = data c := by
  unfold redirect
  split_ifs with heq
  · rw [update_self, heq]
  · refine update_of_ne ?_ _ _
    rintro rfl
    exact h.not_mem_leaves_of_delete hc

theorem perm_redirect : ((plug gs f.other).leaves.map (redirect f.label t)).Perm
      (top :: (plug gs f.other).nodes) := by
  have hperm : (t :: (plug gs f.other).leaves).Perm
      (f.label :: top :: (plug gs f.other).nodes) :=
    ((leaves_delete f gs t).symm.trans (h.perm.trans ((nodes_delete f gs t).cons top))).trans
      (List.Perm.swap f.label top _)
  by_cases hself : t = f.label
  · have hid : (plug gs f.other).leaves.map (redirect f.label t) = (plug gs f.other).leaves := by
      refine (map_congr_left fun c _ => ?_).trans (map_id _)
      unfold redirect
      split_ifs with heq
      · exact hself.trans heq.symm
      · rfl
    rw [hid]
    rw [hself] at hperm
    exact hperm.cons_inv
  · have hmem : f.label ∈ (plug gs f.other).leaves := by
      rcases mem_cons.mp (hperm.mem_iff.mpr mem_cons_self) with heq | hmem
      · exact absurd heq.symm hself
      · exact hmem
    have hsplit := perm_cons_erase hmem
    have hnodup : (plug gs f.other).leaves.Nodup :=
      (nodup_cons.mp ((leaves_delete f gs t).nodup_iff.mp h.nodup_leaves)).2
    have hkeep : ((plug gs f.other).leaves.erase f.label).map (redirect f.label t) =
        (plug gs f.other).leaves.erase f.label := by
      refine (map_congr_left fun c hc => ?_).trans (map_id _)
      exact if_neg (hnodup.mem_erase_iff.mp hc).1
    have hmoved : ((plug gs f.other).leaves.map (redirect f.label t)).Perm
        (t :: (plug gs f.other).leaves.erase f.label) := by
      refine (hsplit.map _).trans ?_
      rw [map_cons, hkeep, redirect, if_pos rfl]
    refine hmoved.trans ?_
    have hswap : (f.label :: t :: (plug gs f.other).leaves.erase f.label).Perm
        (f.label :: top :: (plug gs f.other).nodes) :=
      ((List.Perm.swap t f.label _).trans (hsplit.symm.cons t)).trans hperm
    exact hswap.cons_inv

theorem delete :
    WellFormed (update bits t (bits f.label)) hi top
      (plug gs (f.other.mapLeaves (redirect f.label t))) := by
  obtain ⟨-, -, hother, hadmits, hctx⟩ := sound_plug.mp h.sound
  obtain ⟨hup, hlo, hhi, hplaced, hctxplaced⟩ := placed_plug.mp h.placed
  have hleaf : ∀ c ∈ f.other.leaves, c ∈ (plug gs f.other).leaves :=
    fun c hc => (leaves_plug gs f.other).mem_iff.mpr (mem_append_left _ hc)
  have houter : ∀ c ∈ ctxLeaves gs, update bits t (bits f.label) c = bits c := by
    intro c hc
    refine update_of_ne ?_ _ _
    rintro rfl
    exact h.not_mem_leaves_of_delete
      ((leaves_plug gs f.other).mem_iff.mpr (mem_append_right _ hc))
  have hlabel := h.nodup_of_delete.1
  refine ⟨sound_plug.mpr ⟨?_, ?_, hctx.congr houter⟩, placed_plug.mpr ⟨?_, hctxplaced⟩, ?_, ?_⟩
  · exact hother.mapLeaves fun c hc => h.update_redirect bits (hleaf c hc)
  · simp only [Tree.leaves_mapLeaves, forall_mem_map]
    intro c hc g hg d hd
    rw [h.update_redirect bits (hleaf c hc), houter d (mem_flatMap.mpr ⟨g, hg, hd⟩)]
    exact hadmits c hc g hg d hd
  · refine (hplaced.mapLeaves (fun c hc hscope => ?_) fun c hc => ?_).mono (fun _ hc => hc)
      (Nat.le_succ_of_le hlo)
    · unfold redirect
      split_ifs with heq
      · -- the node itself is linked to below, so the branch taken away has another link
        refine hup.resolve_left ?_
        rintro rfl
        exact h.not_mem_leaves_of_delete (heq ▸ hleaf c hc)
      · exact hscope.resolve_left heq
    · refine if_neg ?_
      rintro rfl
      refine hlabel (mem_cons_of_mem _ ((nodes_plug gs f.other).mem_iff.mpr ?_))
      exact mem_append_left _ hc
  · rw [(nodes_redirect.cons top).nodup_iff]
    exact h.nodup_of_delete.2
  · exact (h.leaves_redirect.trans h.perm_redirect).trans (nodes_redirect.cons top).symm

theorem map_delete {γ : Type} (data : α → γ) :
    ((top :: (plug (f :: gs) (.up t)).nodes).map data).Perm
      (data t :: (top :: (plug gs (f.other.mapLeaves (redirect f.label t))).nodes).map
        (update data t (data f.label))) := by
  have hafter := (h.leaves_redirect.symm.trans h.delete.perm).map
    (update data t (data f.label))
  have hsame : (plug gs f.other).leaves.map
      (update data t (data f.label) ∘ redirect f.label t) =
      (plug gs f.other).leaves.map data :=
    map_congr_left fun c hc => h.update_redirect data hc
  rw [map_map, hsame] at hafter
  refine (h.perm.symm.map data).trans (((leaves_delete f gs t).map data).trans ?_)
  exact hafter.cons (data t)

end Delete

end WellFormed

end WormsAttack.Foundation.Patricia
