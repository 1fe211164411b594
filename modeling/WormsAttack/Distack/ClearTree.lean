/-
  What `clear` does to a tree of subnets.

  Source: distack-1.2.3-dev/src/base/common/SubnetCounterTree.cpp.

  `clear` takes the list of the nodes and then deletes the key of each.  But `Delete` frees the
  node before the end of the branch, which has the key only if it links to itself; otherwise a
  node further on in the list is gone when its key is read.
-/
import WormsAttack.Distack.SubnetCounterTree

namespace WormsAttack.Distack.SubnetCounterTree

open Foundation Foundation.Patricia PatriciaTrie PatriciaTrie.Memory List Function

variable {c : Nat}

/-- The body of the loop of `clear`. -/
def clearNode (m : Memory 4 (AddrCounter c)) (node : Nat) :
    Except Stop (Memory 4 (AddrCounter c)) := do
  let cell ← m.read node
  let (_, m) ← m.delete 0 cell.key
  .ok m

def clear (m : Memory 4 (AddrCounter c)) : Except Stop (Memory 4 (AddrCounter c)) := do
  let nodes ← m.getNodeList (bound 4) 0
  nodes.foldlM clearNode m

def LinksToItself (m : Memory 4 (AddrCounter c)) (a : Nat) : Prop :=
  ∃ node, m.cells a = some node ∧ (node.left = a ∨ node.right = a)

/-! ## Nodes that are gone -/

section Gone

variable {w : Nat} {T : Type} {m m' : Memory w T} {a p : Nat} {k : Key w}

theorem cells_write_of_none (hp : ∃ node, m.cells p = some node) (ha : m.cells a = none)
    (node : Node w T) : (m.write p node).cells a = none := by
  refine (update_of_ne ?_ _ _).trans ha
  rintro rfl
  obtain ⟨node, hnode⟩ := hp
  rw [ha] at hnode
  cases hnode

theorem exists_of_read {node : Node w T} (h : m.read p = .ok node) :
    ∃ node, m.cells p = some node := by
  unfold Memory.read at h
  split at h
  · cases h
  · exact ⟨_, ‹_›⟩

theorem rewire_of_none {target : Nat} (h : m.rewire k p target = .ok m') (ha : m.cells a = none) :
    m'.cells a = none := by
  obtain ⟨node, hread, hok⟩ := bind_eq_ok.mp h
  obtain rfl := Except.ok.inj hok
  exact cells_write_of_none (exists_of_read hread) ha _

theorem rewireDown_of_none {t : Nat} {down found : Bool}
    (h : m.rewireDown p t down = .ok (found, m')) (ha : m.cells a = none) :
    m'.cells a = none := by
  unfold rewireDown rewireLeaf at h
  split_ifs at h
  · obtain ⟨pnode, -, h⟩ := bind_eq_ok.mp h
    obtain ⟨⟨pp, lp, x⟩, -, h⟩ := bind_eq_ok.mp h
    obtain ⟨xnode, -, h⟩ := bind_eq_ok.mp h
    split_ifs at h
    · obtain ⟨m₁, hrewire, h⟩ := bind_eq_ok.mp h
      cases h
      exact rewire_of_none hrewire ha
    · cases h
      exact ha
  · cases h
    exact ha

theorem rewireParent_of_none {pp : Option Nat} {down : Bool}
    (h : m.rewireParent k pp p down = .ok m') (ha : m.cells a = none) : m'.cells a = none := by
  cases pp with
  | none => cases h
  | some pp =>
    change (if pp ≠ p then _ else _) = _ at h
    split_ifs at h
    · obtain ⟨item, -, h⟩ := bind_eq_ok.mp h
      exact rewire_of_none h ha
    · cases h
      exact ha

theorem delete_of_none {head : Nat} {done : Bool} (h : m.delete head k = .ok (done, m'))
    (ha : m.cells a = none) : m'.cells a = none := by
  obtain ⟨root, -, h⟩ := bind_eq_ok.mp h
  obtain ⟨⟨pp, p, t⟩, -, h⟩ := bind_eq_ok.mp h
  obtain ⟨tnode, ht, h⟩ := bind_eq_ok.mp h
  by_cases hk : k ≠ tnode.key
  · rw [if_pos hk] at h
    cases h
    exact ha
  rw [if_neg hk] at h
  obtain ⟨pnode, -, h⟩ := bind_eq_ok.mp h
  have hcopied : (m.copied p t pnode tnode).cells a = none := by
    unfold copied
    split_ifs
    · exact cells_write_of_none (exists_of_read ht) ha _
    · exact ha
  obtain ⟨pnode', -, h⟩ := bind_eq_ok.mp h
  obtain ⟨lnode, -, h⟩ := bind_eq_ok.mp h
  obtain ⟨rnode, -, h⟩ := bind_eq_ok.mp h
  obtain ⟨⟨found, m₂⟩, hdown, h⟩ := bind_eq_ok.mp h
  have hrewired := rewireDown_of_none hdown hcopied
  cases found with
  | false =>
    cases h
    exact hrewired
  | true =>
    obtain ⟨m₃, hparent, h⟩ := bind_eq_ok.mp h
    cases h
    have hgone := rewireParent_of_none hparent hrewired
    by_cases heq : a = p
    · rw [heq]
      exact update_self _ _ _
    · exact (update_of_ne heq _ _).trans hgone

end Gone

variable {m m' : Memory 4 (AddrCounter c)} {a : Nat}

theorem clearNode_of_none {b : Nat} (h : clearNode m b = .ok m') (ha : m.cells a = none) :
    b ≠ a ∧ m'.cells a = none := by
  obtain ⟨cell, hread, h⟩ := bind_eq_ok.mp h
  obtain ⟨⟨done, m₁⟩, hdelete, h⟩ := bind_eq_ok.mp h
  cases h
  refine ⟨?_, delete_of_none hdelete ha⟩
  rintro rfl
  obtain ⟨node, hnode⟩ := exists_of_read hread
  rw [ha] at hnode
  cases hnode

theorem not_mem_of_clear {nodes : List Nat} (h : nodes.foldlM clearNode m = .ok m')
    (ha : m.cells a = none) : a ∉ nodes := by
  refine (foldlM_induction (I := fun done m => m.cells a = none ∧ a ∉ done) ?_ ⟨ha, nofun⟩ h).2
  intro done b _ x y ⟨hnone, hnot⟩ hy
  obtain ⟨hne, hnone'⟩ := clearNode_of_none hy hnone
  exact ⟨hnone', by simp [hnot, hne.symm]⟩

/-! ## Nodes that link to themselves -/

/-- The ends that the nodes of a tree have beside them. -/
def OwnEnds : Patricia.Tree Nat → Prop
  | .up _ => True
  | .node a _ l r => (l = .up a ∨ r = .up a) ∧ OwnEnds l ∧ OwnEnds r

theorem root_eq_iff {t : Patricia.Tree Nat} (ha : a ∉ t.nodes) : t.root = a ↔ t = .up a := by
  cases t with
  | up b => exact (Patricia.Tree.up.injEq b a).symm ▸ Iff.rfl
  | node b i l r =>
    refine iff_of_false (fun heq => ha ?_) nofun
    rw [← heq]
    exact mem_cons_self

theorem ownEnds_iff {t : Patricia.Tree Nat} (hstored : Stored m.cells t) (hnodup : t.nodes.Nodup) :
    OwnEnds t ↔ ∀ a ∈ t.nodes, LinksToItself m a := by
  induction t with
  | up b => exact iff_of_true trivial nofun
  | node b i l r ihl ihr =>
    obtain ⟨⟨node, hnode, -, hleft, hright⟩, hl, hr⟩ := hstored
    obtain ⟨hout, hrest⟩ := nodup_cons.mp hnodup
    have hlinks : LinksToItself m b ↔ l = .up b ∨ r = .up b := by
      unfold LinksToItself
      rw [hnode, ← root_eq_iff fun hmem => hout (mem_append_left _ hmem),
        ← root_eq_iff fun hmem => hout (mem_append_right _ hmem), ← hleft, ← hright]
      simp
    unfold OwnEnds Patricia.Tree.nodes
    rw [forall_mem_cons, forall_mem_append, hlinks, ihl hl hrest.of_append_left,
      ihr hr hrest.of_append_right]

variable {l r : Patricia.Tree Nat}

/-- The way to the end of the node at the top: it stops at that node, or at one further down. -/
theorem plug_eq_node {f : Frame Nat} {gs : List (Frame Nat)} {i : Nat}
    (h : Patricia.Tree.node a i l r = plug (f :: gs) (.up a))
    (hnodup : (l.leaves ++ r.leaves).Nodup) :
    gs = [] ∧ f.label = a ∧ (l = .up a ∧ f.other = r ∨ r = .up a ∧ f.other = l) ∨
      f.label ∈ l.nodes ++ r.nodes ∧ ¬(l = .up a ∨ r = .up a) := by
  rcases eq_nil_or_concat' gs with rfl | ⟨hs, g, rfl⟩
  · unfold plug plug Frame.fill at h
    split_ifs at h
    · injection h with hlabel _ hl hr
      exact .inl ⟨rfl, hlabel.symm, .inr ⟨hr, hl.symm⟩⟩
    · injection h with hlabel _ hl hr
      exact .inl ⟨rfl, hlabel.symm, .inl ⟨hl, hr.symm⟩⟩
  · rw [← cons_append, plug_append] at h
    have hnode : f.label ∈ (plug (f :: hs) (.up a)).nodes :=
      (nodes_plug (f :: hs) (.up a)).mem_iff.mpr mem_cons_self
    have hleaf : a ∈ (plug (f :: hs) (.up a)).leaves :=
      (leaves_plug (f :: hs) (.up a)).mem_iff.mpr mem_cons_self
    generalize plug (f :: hs) (.up a) = x at *
    have hdisjoint := disjoint_of_nodup_append hnodup
    unfold plug plug Frame.fill at h
    split_ifs at h
    · injection h with _ _ _ hr
      subst hr
      refine .inr ⟨mem_append_right _ hnode, ?_⟩
      rintro (rfl | rfl)
      · exact hdisjoint mem_cons_self hleaf
      · cases hnode
    · injection h with _ _ hl
      subst hl
      refine .inr ⟨mem_append_left _ hnode, ?_⟩
      rintro (rfl | rfl)
      · cases hnode
      · exact hdisjoint hleaf mem_cons_self

/-! ## The loop -/

/-- One round, for the node at the top: it frees this node, or one further on. -/
theorem clearNode_spec {i : Nat} (h : Represents m 0 (.node a i l r)) :
    ∃ m', clearNode m a = .ok m' ∧
      ((l = .up a ∧ Represents m' 0 r ∨ r = .up a ∧ Represents m' 0 l) ∨
        (∃ p ∈ l.nodes ++ r.nodes, m'.cells p = none) ∧ ¬(l = .up a ∨ r = .up a)) := by
  have hmem : a ∈ 0 :: (Patricia.Tree.node a i l r).nodes := mem_cons_of_mem _ mem_cons_self
  have hne : a ≠ 0 := by
    rintro rfl
    exact (nodup_cons.mp h.wellFormed.nodup).1 mem_cons_self
  obtain ⟨cell, hcell⟩ := h.exists_cell hmem
  have hfind := h.find_eq hmem (keyData_eq hcell)
  obtain ⟨m', t', f, gs, hplug, ht', hok, hgone, hrep, -⟩ :=
    h.delete_of_mem (hfind.symm ▸ hcell) rfl (hfind.symm ▸ hne)
  rw [hfind] at hplug ht'
  refine ⟨m', ?_, ?_⟩
  · unfold clearNode
    rw [read_eq hcell, ok_bind, hok]
    rfl
  · rcases plug_eq_node hplug h.wellFormed.nodup_leaves with ⟨rfl, hlabel, hside⟩ | ⟨hlater, hnot⟩
    · have hother : t' = f.other := by
        rw [ht', hlabel]
        refine Patricia.Tree.mapLeaves_eq_self fun b _ => ?_
        unfold WellFormed.redirect
        split_ifs with heq
        · exact heq.symm
        · rfl
      rw [hother] at hrep
      rcases hside with ⟨hl, hr⟩ | ⟨hr, hl⟩
      · exact .inl (.inl ⟨hl, hr ▸ hrep⟩)
      · exact .inl (.inr ⟨hr, hl ▸ hrep⟩)
    · exact .inr ⟨⟨f.label, hlater, hgone⟩, hnot⟩

theorem clear_of_ownEnds {t : Patricia.Tree Nat} (h : Represents m 0 t) (hown : OwnEnds t) :
    ∃ m' b, t.nodes.foldlM clearNode m = .ok m' ∧ Represents m' 0 (.up b) := by
  induction t generalizing m with
  | up b => exact ⟨m, b, rfl, h⟩
  | node a i l r ihl ihr =>
    obtain ⟨hside, hl, hr⟩ := hown
    obtain ⟨m₁, hround, (⟨rfl, h₁⟩ | ⟨rfl, h₁⟩) | ⟨-, hnot⟩⟩ := clearNode_spec h
    · obtain ⟨m', b, hok, h'⟩ := ihr h₁ hr
      exact ⟨m', b, foldlM_cons_eq_ok.mpr ⟨m₁, hround, hok⟩, h'⟩
    · obtain ⟨m', b, hok, h'⟩ := ihl h₁ hl
      refine ⟨m', b, foldlM_cons_eq_ok.mpr ⟨m₁, hround, ?_⟩, h'⟩
      exact (append_nil l.nodes).symm ▸ hok
    · exact absurd hside hnot

theorem ownEnds_of_clear {t : Patricia.Tree Nat} (h : Represents m 0 t)
    (hok : t.nodes.foldlM clearNode m = .ok m') : OwnEnds t := by
  induction t generalizing m with
  | up b => trivial
  | node a i l r ihl ihr =>
    obtain ⟨m₁, hround, hrest⟩ := foldlM_cons_eq_ok.mp hok
    obtain ⟨m₂, hround₂, hcases⟩ := clearNode_spec h
    obtain rfl := Except.ok.inj (hround.symm.trans hround₂)
    rcases hcases with (⟨rfl, h₁⟩ | ⟨rfl, h₁⟩) | ⟨⟨p, hp, hgone⟩, -⟩
    · exact ⟨.inl rfl, trivial, ihr h₁ hrest⟩
    · exact ⟨.inr rfl, ihl h₁ ((append_nil l.nodes) ▸ hrest), trivial⟩
    · exact absurd hp (not_mem_of_clear hrest hgone)

/-! ## Trees of subnets -/

variable {t : Patricia.Tree Nat}

theorem addSubnet_holds {s : Contents 4 (AddrCounter c)} (h : Holds m 0 defaultAddr s t)
    (addr mask : IpAddr) :
    ∃ m' s' t', addSubnet m addr mask = .ok m' ∧ Holds m' 0 defaultAddr s' t' := by
  by_cases hold : andAddr addr mask = defaultAddr ∨ s (andAddr addr mask) ≠ none
  · refine ⟨m, s, t, ?_, h⟩
    change (m.existsKey 0 (andAddr addr mask) >>= _) = _
    rw [(h.existsKey_iff _).mpr hold]
    rfl
  · obtain ⟨hdefault, hnew⟩ := not_or.mp hold
    have hnone := not_not.mp hnew
    obtain ⟨m', t', hok, -, h'⟩ := h.insert_of_none hdefault hnone ⟨0, 0⟩
    refine ⟨m', _, t', ?_, h'⟩
    change (m.existsKey 0 (andAddr addr mask) >>= _) = _
    rw [h.existsKey hdefault, hnone]
    rw [hok]
    rfl

theorem addSubnets_represents (calls : List (IpAddr × IpAddr)) :
    ∃ m s t, calls.foldlM (fun m call => addSubnet m call.1 call.2) (create c) = .ok m ∧
      Holds m 0 defaultAddr s t := by
  induction calls using reverseRecOn with
  | nil =>
    exact ⟨create c, _, _, rfl, holds_create defaultAddr (⟨0, 0⟩ : AddrCounter c)⟩
  | append_singleton calls call ih =>
    obtain ⟨m, s, t, hok, h⟩ := ih
    obtain ⟨m', s', t', hnext, h'⟩ := addSubnet_holds h call.1 call.2
    exact ⟨m', s', t', foldlM_concat_eq_ok.mpr ⟨m, hok, hnext⟩, h'⟩

/-- `clear` empties the tree exactly if each of its nodes links to itself; otherwise it reads
the key of a node that is gone. -/
theorem clear_empties_iff (c : Nat) (calls : List (IpAddr × IpAddr)) :
    ∃ (m : Memory 4 (AddrCounter c)) (nodes : List Nat),
      calls.foldlM (fun m call => addSubnet m call.1 call.2) (create c) = .ok m ∧
      m.getNodeList (bound 4) 0 = .ok nodes ∧
      ((∃ m', clear m = .ok m' ∧ getSubnets m' = .ok []) ↔ ∀ a ∈ nodes, LinksToItself m a) := by
  obtain ⟨m, s, t, hok, h⟩ := addSubnets_represents (c := c) calls
  have hlist := h.represents.hangs.getNodeList
  refine ⟨m, t.nodes, hok, hlist, ?_⟩
  rw [← ownEnds_iff h.represents.stored (nodup_cons.mp h.represents.wellFormed.nodup).2]
  have hclear : clear m = t.nodes.foldlM clearNode m := by
    unfold clear
    rw [hlist]
    rfl
  rw [hclear]
  constructor
  · rintro ⟨m', hall, -⟩
    exact ownEnds_of_clear h.represents hall
  · intro hown
    obtain ⟨m', b, hall, h'⟩ := clear_of_ownEnds h.represents hown
    refine ⟨m', hall, ?_⟩
    unfold getSubnets items
    rw [h'.hangs.getNodeList]
    rfl

theorem clear_reads_freed :
    ((do
      let m ← addSubnet (create 32) #v[128, 0, 0, 0] #v[255, 255, 255, 255]
      let m ← addSubnet m #v[192, 0, 0, 0] #v[255, 255, 255, 255] let m ← clear m
      getSubnets m) : Except Stop _) = .error .dangling := by
  decide +kernel

end WormsAttack.Distack.SubnetCounterTree
