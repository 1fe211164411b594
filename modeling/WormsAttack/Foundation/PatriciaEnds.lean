/-
  The ends of the branches of a Patricia tree.

  An end is a link up, together with the node that has it and on which side.  `relink` gives
  each end a new target.  Two nodes with the same bit are never one below the other; in the list
  of the nodes they come in the order of their keys.
-/
import WormsAttack.Foundation.Patricia

namespace WormsAttack.Foundation.Patricia

open List

namespace Tree

variable {α β : Type}

/-! ## Other labels -/

def map (f : α → β) : Tree α → Tree β
  | up a => up (f a)
  | node a b l r => node (f a) b (l.map f) (r.map f)

@[simp]
theorem root_map (f : α → β) (t : Tree α) : (t.map f).root = f t.root := by
  cases t <;> rfl

@[simp]
theorem nodes_map (f : α → β) (t : Tree α) : (t.map f).nodes = t.nodes.map f := by
  induction t with
  | up a => rfl
  | node a b l r ihl ihr => simp only [map, nodes, ihl, ihr, map_cons, map_append]

@[simp]
theorem depth_map (f : α → β) (t : Tree α) : (t.map f).depth = t.depth := by
  induction t with
  | up a => rfl
  | node a b l r ihl ihr => simp only [map, depth, ihl, ihr]

@[simp]
theorem find_map (f : α → β) (k : Nat → Bool) (t : Tree α) : (t.map f).find k = f (t.find k) := by
  induction t with
  | up a => rfl
  | node a b l r ihl ihr =>
    unfold map find
    split_ifs
    · exact ihr
    · exact ihl

/-! ## Other links

A place is one of the two links of a label: the left one or the right one. -/

/-- The end at each place becomes the link that `g` gives it. -/
def relink (g : α × Bool → α) : (place : α × Bool) → Tree α → Tree α
  | place, up _ => up (g place)
  | _, node a b l r => node a b (l.relink g (a, false)) (r.relink g (a, true))

@[simp]
theorem nodes_relink (g : α × Bool → α) (place : α × Bool) (t : Tree α) :
    (t.relink g place).nodes = t.nodes := by
  induction t generalizing place with
  | up c => rfl
  | node a b l r ihl ihr => simp only [relink, nodes, ihl, ihr]

@[simp]
theorem depth_relink (g : α × Bool → α) (place : α × Bool) (t : Tree α) :
    (t.relink g place).depth = t.depth := by
  induction t generalizing place with
  | up c => rfl
  | node a b l r ihl ihr => simp only [relink, depth, ihl, ihr]

def ends : (place : α × Bool) → Tree α → List ((α × Bool) × α)
  | place, up c => [(place, c)]
  | _, node a _ l r => l.ends (a, false) ++ r.ends (a, true)

def findEnd (k : Nat → Bool) : (place : α × Bool) → Tree α → (α × Bool) × α
  | place, up c => (place, c)
  | _, node a b l r => if k b then r.findEnd k (a, true) else l.findEnd k (a, false)

theorem findEnd_mem (k : Nat → Bool) (place : α × Bool) (t : Tree α) :
    t.findEnd k place ∈ t.ends place := by
  induction t generalizing place with
  | up c => exact mem_singleton_self _
  | node a b l r ihl ihr =>
    unfold findEnd ends
    split_ifs
    · exact mem_append_right _ (ihr _)
    · exact mem_append_left _ (ihl _)

theorem snd_findEnd (k : Nat → Bool) (place : α × Bool) (t : Tree α) :
    (t.findEnd k place).2 = t.find k := by
  induction t generalizing place with
  | up c => rfl
  | node a b l r ihl ihr =>
    unfold findEnd find
    split_ifs
    · exact ihr _
    · exact ihl _

theorem find_relink (g : α × Bool → α) (k : Nat → Bool) (place : α × Bool) (t : Tree α) :
    (t.relink g place).find k = g (t.findEnd k place).1 := by
  induction t generalizing place with
  | up c => rfl
  | node a b l r ihl ihr =>
    unfold relink find findEnd
    split_ifs
    · exact ihr _
    · exact ihl _

variable {p : α × Bool} {t : Tree α} {c : α} {place : α × Bool} {lo : Nat} {bit : α → Int}
  {scope : α → Prop} {hi : Nat}

theorem mem_leaves_of_mem_ends (h : (p, c) ∈ t.ends place) : c ∈ t.leaves := by
  induction t generalizing place with
  | up d =>
    obtain ⟨-, rfl⟩ := Prod.mk.inj (mem_singleton.mp h)
    exact mem_singleton_self _
  | node d b l r ihl ihr =>
    rcases mem_append.mp h with h | h
    · exact mem_append_left _ (ihl h)
    · exact mem_append_right _ (ihr h)

theorem fst_mem_of_mem_ends (h : (p, c) ∈ t.ends place) : p.1 ∈ place.1 :: t.nodes := by
  induction t generalizing place with
  | up d =>
    obtain ⟨rfl, -⟩ := Prod.mk.inj (mem_singleton.mp h)
    exact mem_cons_self
  | node d b l r ihl ihr =>
    refine mem_cons_of_mem _ ?_
    rcases mem_append.mp h with h | h
    · exact cons_subset_cons d (subset_append_left _ _) (ihl h)
    · exact cons_subset_cons d (subset_append_right _ _) (ihr h)

theorem Sound.findEnd_eq {bits : α → Nat → Bool} (h : t.Sound bits) (hend : (p, c) ∈ t.ends place) :
    t.findEnd (bits c) place = (p, c) := by
  induction t generalizing place with
  | up d => exact (mem_singleton.mp hend).symm
  | node d b l r ihl ihr =>
    unfold findEnd
    rcases mem_append.mp hend with hl | hr
    · rw [h.bit_left (mem_leaves_of_mem_ends hl)]
      exact ihl h.2.1 hl
    · rw [h.bit_right (mem_leaves_of_mem_ends hr)]
      exact ihr h.2.2 hr

/-! ## The bits of the nodes -/

def Indexed (bit : α → Int) : Tree α → Prop
  | up _ => True
  | node a b l r => bit a = b ∧ l.Indexed bit ∧ r.Indexed bit

theorem Placed.lt_bit (h : t.Placed hi scope lo) (hbit : t.Indexed bit) {a : α} (ha : a ∈ t.nodes) :
    (lo : Int) ≤ bit a := by
  induction t generalizing scope lo with
  | up c => cases ha
  | node c b l r ihl ihr =>
    obtain ⟨hlo, -, hl, hr⟩ := h
    obtain ⟨hc, hbl, hbr⟩ := hbit
    rcases mem_cons.mp ha with rfl | ha
    · omega
    rcases mem_append.mp ha with ha | ha
    · have hle := ihl hl hbl ha
      omega
    · have hle := ihr hr hbr ha
      omega

theorem Placed.end_lt (h : t.Placed hi scope lo) (hbit : t.Indexed bit) (hplace : bit place.1 < lo)
    (hscope : ∀ c, scope c → c = place.1 ∨ bit c < bit place.1) (hend : (p, c) ∈ t.ends place) :
    c = p.1 ∨ bit c < bit p.1 := by
  induction t generalizing scope lo place with
  | up d =>
    obtain ⟨rfl, rfl⟩ := Prod.mk.inj (mem_singleton.mp hend)
    exact hscope c h
  | node d b l r ihl ihr =>
    obtain ⟨hlo, -, hl, hr⟩ := h
    obtain ⟨hd, hbl, hbr⟩ := hbit
    have hbelow : bit d < ((b + 1 : Nat) : Int) := by omega
    have hwider : ∀ c, c = d ∨ scope c → c = d ∨ bit c < bit d := by
      rintro c (rfl | hc)
      · exact .inl rfl
      · rcases hscope c hc with rfl | hlt
        · exact .inr (by omega)
        · exact .inr (by omega)
    rcases mem_append.mp hend with hend | hend
    · exact ihl hl hbl hbelow hwider hend
    · exact ihr hr hbr hbelow hwider hend

/-! ## Nodes with the same bit -/

/-- Each node is at the end of a branch below itself. -/
def Rooted : Tree α → Prop
  | up _ => True
  | node a b l r => (∀ c ∈ (node a b l r).nodes, c ∈ (node a b l r).leaves) ∧ l.Rooted ∧ r.Rooted

theorem Rooted.mem_leaves (h : t.Rooted) (hc : c ∈ t.nodes) : c ∈ t.leaves := by
  cases t with
  | up a => cases hc
  | node a b l r => exact h.1 c hc

theorem rooted_of_placed (h : t.Placed hi scope lo) (hnodup : t.nodes.Nodup)
    (hscope : ∀ c ∈ t.nodes, ¬ scope c) (hmem : ∀ c ∈ t.nodes, c ∈ t.leaves) : t.Rooted := by
  induction t generalizing scope lo with
  | up c => trivial
  | node a b l r ihl ihr =>
    obtain ⟨-, -, hl, hr⟩ := h
    obtain ⟨ha, hnodup⟩ := nodup_cons.mp hnodup
    obtain ⟨hnl, hnr, hdisjoint⟩ := nodup_append.mp hnodup
    have hleft : ∀ c ∈ l.nodes, ¬ (c = a ∨ scope c) := by
      rintro c hc (rfl | hs)
      · exact ha (mem_append_left _ hc)
      · exact hscope c (mem_nodes_left hc) hs
    have hright : ∀ c ∈ r.nodes, ¬ (c = a ∨ scope c) := by
      rintro c hc (rfl | hs)
      · exact ha (mem_append_right _ hc)
      · exact hscope c (mem_nodes_right hc) hs
    -- a link to a node of one side cannot come from the other
    refine ⟨hmem, ihl hl hnl hleft fun c hc => ?_, ihr hr hnr hright fun c hc => ?_⟩
    · have hleaf := hmem c (mem_nodes_left hc)
      refine (mem_append.mp hleaf).resolve_right fun hmem => ?_
      rcases hr.leaf_mem hmem with hn | hs
      · exact hdisjoint c hc c hn rfl
      · exact hleft c hc hs
    · have hleaf := hmem c (mem_nodes_right hc)
      refine (mem_append.mp hleaf).resolve_left fun hmem => ?_
      rcases hl.leaf_mem hmem with hn | hs
      · exact hdisjoint c hn c hc rfl
      · exact hright c hc hs

theorem pairwise_split {bits : α → Nat → Bool} (hsound : t.Sound bits)
    (hplaced : t.Placed hi scope lo) (hbit : t.Indexed bit) (hrooted : t.Rooted) :
    t.nodes.Pairwise fun x y => bit x = bit y → ∃ b, SplitAt b (bits x) (bits y) := by
  induction t generalizing scope lo with
  | up c => exact List.Pairwise.nil
  | node a b l r ihl ihr =>
    obtain ⟨hsplit, hsl, hsr⟩ := hsound
    obtain ⟨-, -, hpl, hpr⟩ := hplaced
    obtain ⟨ha, hbl, hbr⟩ := hbit
    obtain ⟨-, hrl, hrr⟩ := hrooted
    refine pairwise_cons.mpr ⟨fun c hc heq => ?_, pairwise_append.mpr
      ⟨ihl hsl hpl hbl hrl, ihr hsr hpr hbr hrr, fun c hc d hd _ => ?_⟩⟩
    · rcases mem_append.mp hc with hc | hc
      · have hlt := hpl.lt_bit hbl hc
        omega
      · have hlt := hpr.lt_bit hbr hc
        omega
    · exact ⟨b, hsplit c (hrl.mem_leaves hc) d (hrr.mem_leaves hd)⟩

end Tree

theorem WellFormed.pairwise_split {α : Type} {bits : α → Nat → Bool} {bit : α → Int} {hi : Nat}
    {top : α} {t : Tree α} (h : WellFormed bits hi top t) (hbit : t.Indexed bit) :
    t.nodes.Pairwise fun x y => bit x = bit y → ∃ b, SplitAt b (bits x) (bits y) := by
  obtain ⟨htop, hnodup⟩ := nodup_cons.mp h.nodup
  refine Tree.pairwise_split h.sound h.placed hbit
    (Tree.rooted_of_placed h.placed hnodup (fun c hc heq => htop (heq ▸ hc)) fun c hc => ?_)
  exact h.perm.mem_iff.mpr (mem_cons_of_mem _ hc)

end WormsAttack.Foundation.Patricia
