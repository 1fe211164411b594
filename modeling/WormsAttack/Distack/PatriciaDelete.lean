/-
  What `Delete` does to the tree in memory.

  The key is at the end of a branch, as a link to `t` from the node `p`.  `Delete` frees `p` and
  not `t`: the key and the data of `p` go to `t`, the leaf that links to `p` is made to link to
  `t`, and the node before `p` gets the other side of `p`.
-/
import WormsAttack.Distack.PatriciaLinks

namespace WormsAttack.Distack.PatriciaTrie

open Foundation Foundation.Patricia List Function Memory

variable {w : Nat} {T : Type} {m : Memory w T} {head : Nat}

/-! ## The steps -/

variable {t : Patricia.Tree Nat} {tnode pnode : Node w T} {p : Nat} {k : Key w}

theorem Represents.descend_leaf (h : Represents m head t) (k : Key w)
    (hne : t.find (bitsOf k) ≠ head) :
    ∃ root f gs, m.cells head = some root ∧
      t = plug (f :: gs) (.up (t.find (bitsOf k))) ∧
      (∀ g ∈ f :: gs, g.right = bitsOf k g.bit) ∧
      m.descend k (fun _ => true) (bound w) none head root.right =
        .ok (some (parent head gs), f.label, t.find (bitsOf k)) := by
  obtain ⟨root, fs, x, hroot, hdescent, hok⟩ := h.hangs.descend k fun _ => true
  have hx := hdescent.eq_up
  have hplug := hdescent.plug_eq
  rw [hx] at hplug hok
  cases fs with
  | nil =>
    have hmem := h.find_mem k
    rw [show t = .up (t.find (bitsOf k)) from hplug.symm] at hmem
    exact absurd (mem_singleton.mp hmem) hne
  | cons f gs => exact ⟨root, f, gs, hroot, hplug.symm, fun g hg => (hdescent.frames g hg).1, hok⟩

/-- `key_copy`, unless source and destination are the same. -/
def Memory.copied (m : Memory w T) (p t : Nat) (pnode tnode : Node w T) : Memory w T :=
  if t ≠ p then m.write t (Memory.keyCopy pnode tnode) else m

theorem nodeCell_copied (p : Nat) {t : Nat} (pnode : Node w T) (ht : m.cells t = some tnode)
    {a : Nat} {bit : Int} {left right : Nat} (h : NodeCell m.cells a bit left right) :
    NodeCell (m.copied p t pnode tnode).cells a bit left right := by
  unfold copied
  split_ifs
  · by_cases ha : a = t
    · subst ha
      obtain ⟨node, hnode, hrest⟩ := h
      rw [ht] at hnode
      obtain rfl := Option.some.inj hnode
      exact ⟨_, update_self _ _ _, hrest⟩
    · exact h.update_of_ne ha _
  · exact h

theorem keyData_copied (t : Nat) (tnode : Node w T) (hp : m.cells p = some pnode) :
    keyData (m.copied p t pnode tnode).cells =
      update (keyData m.cells) t (keyData m.cells p) := by
  unfold copied
  split_ifs with hne
  · funext a
    by_cases ha : a = t
    · subst ha
      have hself : (m.write a (keyCopy pnode tnode)).cells a =
          some (keyCopy pnode tnode) := update_self _ _ _
      rw [update_self, keyData_eq hp, keyData_eq hself]
      rfl
    · rw [update_of_ne ha]
      exact keyData_update_of_ne ha _
  · obtain rfl := not_not.mp hne
    exact (update_eq_self t (keyData m.cells)).symm

theorem cells_copied {t : Nat} (hp : m.cells p = some pnode) :
    (m.copied p t pnode tnode).cells p = some pnode := by
  unfold copied
  split_ifs with hne
  · exact (update_of_ne (Ne.symm hne) _ _).trans hp
  · exact hp

theorem next_copied (m : Memory w T) (p t : Nat) (pnode tnode : Node w T) :
    (m.copied p t pnode tnode).next = m.next := by
  unfold copied
  split_ifs <;> rfl

/-- The way to `p` and its other side, as they are while `Delete` is at work. -/
structure Cut (m : Memory w T) (head : Nat) (f : Frame Nat) (gs : List (Frame Nat)) (t : Nat)
    (other : Patricia.Tree Nat) (pnode : Node w T) : Prop where
  ctx : CtxStored m.cells head (f.swap (.up t) :: gs) other.root
  stored : Stored m.cells other
  cell : m.cells f.label = some pnode

namespace Cut

variable {f : Frame Nat} {gs : List (Frame Nat)} {t : Nat} {other : Patricia.Tree Nat}
  {pnode : Node w T} (h : Cut m head f gs t other pnode)

include h

theorem links :
    pnode.bitIndex = f.bit ∧
      if f.right then pnode.left = other.root ∧ pnode.right = t
      else pnode.left = t ∧ pnode.right = other.root := by
  have hcell := h.ctx.1
  unfold Frame.swap at hcell
  cases hright : f.right with
  | false | true =>
    rw [hright] at hcell
    obtain ⟨node, hnode, hbit, hlinks⟩ := hcell
    obtain rfl := Option.some.inj (h.cell.symm.trans hnode)
    exact ⟨hbit, hlinks⟩

theorem link_key (hside : bitsOf pnode.key f.bit = !f.right) :
    link pnode pnode.key = other.root := by
  obtain ⟨hbit, hlinks⟩ := h.links
  rw [link_eq hbit, hside]
  cases hright : f.right with
  | false =>
    rw [hright] at hlinks
    exact hlinks.2
  | true =>
    rw [hright] at hlinks
    exact hlinks.1

omit h in
theorem rewireLeaf_eval {gnode : Node w T} {g : Nat} {pp : Option Nat}
    (hp : m.cells f.label = some pnode)
    (hdescend : m.descend pnode.key (fun _ => true) (bound w) none f.label
      (link pnode pnode.key) = .ok (pp, g, f.label))
    (hg : m.cells g = some gnode) :
    m.rewireLeaf f.label t =
      .ok (true, m.write g (setLink gnode pnode.key t)) := by
  unfold rewireLeaf
  rw [read_eq hp, ok_bind, hdescend]
  change (m.read f.label >>= _) = _
  rw [read_eq hp]
  change (if pnode.key = pnode.key then _ else _) = _
  rw [if_pos rfl]
  unfold rewire
  rw [read_eq hg]
  rfl

theorem rewireLeaf (hnodup : (head :: (plug (f.swap (.up t) :: gs) other).nodes).Nodup)
    (hleaves : other.leaves.Nodup) (hlinked : Linked m.cells f.bit other)
    (hdepth : other.depth < bound w) (hdown : ∀ c, other ≠ .up c)
    (hfind : other.find (bitsOf pnode.key) = f.label) (hside : bitsOf pnode.key f.bit = !f.right) :
    ∃ m', m.rewireLeaf f.label t = .ok (true, m') ∧
      Cut m' head f gs t (other.mapLeaves (WellFormed.redirect f.label t)) pnode ∧
      m'.next = m.next ∧ keyData m'.cells = keyData m.cells := by
  obtain ⟨hs, y, hdescent, hok⟩ :=
    descend_spec pnode.key (fun _ => true) none h.cell (h.links.1 ▸ hlinked) hdepth
  have hy := hdescent.eq_up
  rw [hfind] at hy
  subst hy
  have hplug := hdescent.plug_eq
  cases hs with
  | nil => exact absurd hplug.symm (hdown _)
  | cons g hs =>
    have hall : plug (g :: hs ++ f.swap (.up t) :: gs) (.up f.label) =
        plug (f.swap (.up t) :: gs) other := by
      rw [plug_append, hplug]
    have hwhole := ctxStored_plug.mpr ⟨h.ctx, h.stored⟩
    rw [← hall] at hwhole hnodup
    obtain ⟨hctx, -⟩ := ctxStored_plug.mp hwhole
    obtain ⟨gnode, hgnode, hrewired⟩ := hctx.rewire (nodup_ctx hnodup).1
      (fun g' gs' heq => by
        obtain rfl := head_eq_of_cons_eq heq
        exact (hdescent.frames g mem_cons_self).1) t
    have hlabel : f.label ≠ g.label := by
      intro heq
      obtain ⟨-, hrest⟩ := nodup_cons.mp (nodup_ctx hnodup).1
      refine (nodup_cons.mp hrest).1 ?_
      rw [← heq]
      exact mem_append_right _ (mem_flatMap.mpr
        ⟨f.swap (.up t), mem_append_right _ mem_cons_self, mem_cons_self⟩)
    obtain ⟨hctx', hstored'⟩ := (ctxStored_plug (t := .up t)).mpr ⟨hrewired, trivial⟩
    rw [plug_append] at hctx' hstored'
    obtain ⟨hctx', hstored'⟩ := ctxStored_plug.mp ⟨hctx', hstored'⟩
    rw [← h.link_key hside] at hok
    refine ⟨_, rewireLeaf_eval h.cell hok hgnode, ?_, rfl, ?_⟩
    · rw [← hplug, WellFormed.mapLeaves_redirect (hplug ▸ hleaves)]
      exact ⟨hctx', hstored', (update_of_ne hlabel _ _).trans h.cell⟩
    · funext a
      exact keyData_setLink hgnode pnode.key t a

theorem replacement_down {k : Key w} (hside : f.right = bitsOf k f.bit) (pp : Nat) :
    m.replacement k pp f.label true = .ok other.root := by
  obtain ⟨hbit, hlinks⟩ := h.links
  have hitem : (if bitGet k.toList pnode.bitIndex ≠ 0 then pnode.left else pnode.right) =
      if f.right then pnode.left else pnode.right := by
    rw [hside, hbit]
    unfold bitsOf
    simp
  unfold replacement
  rw [read_eq h.cell]
  change (.ok (if bitGet k.toList pnode.bitIndex ≠ 0 then pnode.left else pnode.right) : Except _ _)
    = _
  rw [hitem]
  cases hright : f.right with
  | false =>
    rw [hright] at hlinks
    exact congrArg Except.ok hlinks.2
  | true =>
    rw [hright] at hlinks
    exact congrArg Except.ok hlinks.1

omit h

theorem replacement_up {c : Nat} (h : Cut m head f gs t (.up c) pnode) (k : Key w) (pp : Nat)
    (hself : t = f.label ∧ c ≠ f.label ∨ t ≠ f.label ∧ c = f.label) :
    m.replacement k pp f.label false = .ok (WellFormed.redirect f.label t c) := by
  obtain ⟨-, hlinks⟩ := h.links
  unfold replacement WellFormed.redirect
  rw [read_eq h.cell]
  change (if pnode.left = pnode.right ∧ pnode.left = f.label then (.ok pp : Except Stop Nat)
    else .ok (if pnode.left = f.label then pnode.right else pnode.left)) = _
  change if f.right then pnode.left = c ∧ pnode.right = t
    else pnode.left = t ∧ pnode.right = c at hlinks
  rcases hself with ⟨rfl, hc⟩ | ⟨ht, rfl⟩
  · rw [if_neg hc]
    split_ifs at hlinks
    · rw [hlinks.1, hlinks.2, if_neg fun hboth => hc hboth.1, if_neg hc]
    · rw [hlinks.1, hlinks.2, if_neg fun hboth => hc hboth.1.symm, if_pos rfl]
  · rw [if_pos rfl]
    split_ifs at hlinks
    · rw [hlinks.1, hlinks.2, if_neg fun hboth => ht hboth.1.symm, if_pos rfl]
    · rw [hlinks.1, hlinks.2, if_neg fun hboth => ht hboth.1, if_neg ht]

end Cut

theorem detach {gs : List (Frame Nat)} {other : Patricia.Tree Nat}
    (hctx : CtxStored m.cells head gs p) (hstored : Stored m.cells other)
    (hnodup : (head :: ctxNodes gs).Nodup) (hp : p ∉ head :: ctxNodes gs) (hp' : p ∉ other.nodes)
    (hdisjoint : ∀ a ∈ other.nodes, a ∉ head :: ctxNodes gs)
    (hside : ∀ g ∈ gs, g.right = bitsOf k g.bit) :
    ∃ m', m.rewire k (parent head gs) other.root = .ok m' ∧
      CtxStored (m'.free p).cells head gs other.root ∧ Stored (m'.free p).cells other ∧
      m'.next = m.next ∧ ∀ a, a ≠ p → keyData (m'.free p).cells a = keyData m.cells a := by
  obtain ⟨node, hnode, hrewired⟩ := hctx.rewire hnodup
    (fun g gs' heq => hside g (heq ▸ mem_cons_self)) other.root
  refine ⟨m.write (parent head gs) (setLink node k other.root), ?_, ?_, ?_, rfl, ?_⟩
  · unfold rewire
    rw [read_eq hnode]
    rfl
  · exact hrewired.update hp _
  · refine (hstored.update ?_ _).update hp' _
    exact fun hmem => hdisjoint _ hmem (parent_mem gs)
  · intro a ha
    exact (keyData_update_of_ne ha _).trans (keyData_setLink hnode k other.root a)

theorem delete_eval {root lnode rnode : Node w T} {pp t item : Nat} {m₂ m₃ : Memory w T}
    {down : Bool} (hroot : m.cells head = some root)
    (hdescend : m.descend k (fun _ => true) (bound w) none head root.right =
      .ok (some pp, p, t)) (ht : m.cells t = some tnode) (hk : k = tnode.key)
    (hp : m.cells p = some pnode) (hl : (m.copied p t pnode tnode).cells pnode.left = some lnode)
    (hr : (m.copied p t pnode tnode).cells pnode.right = some rnode)
    (hdown : down = decide (pnode.bitIndex < lnode.bitIndex ∨ pnode.bitIndex < rnode.bitIndex))
    (hleaf : (m.copied p t pnode tnode).rewireDown p t down = .ok (true, m₂)) (hpp : pp ≠ p)
    (hitem : m₂.replacement k pp p down = .ok item) (hrewire : m₂.rewire k pp item = .ok m₃) :
    m.delete head k = .ok (true, m₃.free p) := by
  have hparent : m₂.rewireParent k (some pp) p down = .ok m₃ := by
    change (if pp ≠ p then (m₂.replacement k pp p down >>= fun item => m₂.rewire k pp item)
      else .ok m₂) = _
    rw [if_pos hpp, hitem]
    exact hrewire
  unfold delete
  rw [read_eq hroot, ok_bind, hdescend]
  change (m.read t >>= _) = _
  rw [read_eq ht, ok_bind, if_neg (not_not.mpr hk), read_eq hp]
  change ((m.copied p t pnode tnode).read p >>= _) = _
  rw [read_eq (cells_copied hp)]
  change ((m.copied p t pnode tnode).read pnode.left >>= _) = _
  rw [read_eq hl]
  change ((m.copied p t pnode tnode).read pnode.right >>= _) = _
  rw [read_eq hr]
  subst hdown
  change ((m.copied p t pnode tnode).rewireDown p t _ >>= _) = _
  rw [hleaf]
  change (m₂.rewireParent k (some pp) p _ >>= _) = _
  rw [hparent]
  rfl

/-! ## Delete -/

variable {cells : Nat → Option (Node w T)} {x : Patricia.Tree Nat}

theorem Linked.of_plug (fs : List (Frame Nat))
    {b : Int} (h : Linked cells b (plug fs x)) : ∃ b', Linked cells b' x := by
  induction fs generalizing x with
  | nil => exact ⟨b, h⟩
  | cons f fs ih =>
    obtain ⟨b', h⟩ := ih h
    unfold Frame.fill at h
    split_ifs at h
    · exact ⟨f.bit, h.2.2.2⟩
    · exact ⟨f.bit, h.2.2.1⟩

variable {found : Node w T}

theorem Represents.delete_of_not_mem (h : Represents m head t)
    (hfound : m.cells (t.find (bitsOf k)) = some found) (hk : k ≠ found.key) :
    m.delete head k = .ok (false, m) := by
  obtain ⟨root, fs, x, hroot, hdescent, hok⟩ := h.hangs.descend k fun _ => true
  rw [hdescent.eq_up] at hok
  unfold delete
  rw [read_eq hroot, ok_bind, hok]
  change (m.read (t.find (bitsOf k)) >>= _) = _
  rw [read_eq hfound]
  exact if_pos hk

theorem Linked.other {f : Frame Nat} {gs : List (Frame Nat)} {b : Int}
    (h : Linked cells b (plug (f :: gs) x)) :
    Linked cells f.bit x ∧ Linked cells f.bit f.other := by
  obtain ⟨b', h⟩ := Linked.of_plug gs h
  unfold Frame.fill at h
  split_ifs at h
  · exact ⟨h.2.2.2, h.2.2.1⟩
  · exact ⟨h.2.2.1, h.2.2.2⟩

section Delete

variable {f : Frame Nat} {gs : List (Frame Nat)} {leaf : Nat} {pnode tnode : Node w T}
  (h : Represents m head (plug (f :: gs) (.up leaf))) (hp : m.cells f.label = some pnode)
  (ht : m.cells leaf = some tnode)

include h hp ht

theorem Represents.cut : Cut (m.copied f.label leaf pnode tnode) head f gs leaf f.other pnode := by
  have hwhole : CtxStored m.cells head [] (plug (f.swap (.up leaf) :: gs) f.other).root ∧
      Stored m.cells (plug (f.swap (.up leaf) :: gs) f.other) := by
    rw [plug_swap]
    exact ⟨h.headCell, h.stored⟩
  obtain ⟨hctx, hstored⟩ := ctxStored_plug.mp hwhole
  exact ⟨hctx.congr fun _ _ _ _ _ => nodeCell_copied _ _ ht,
    hstored.congr fun _ _ _ _ _ => nodeCell_copied _ _ ht, cells_copied hp⟩

omit ht hp h in
theorem Linked.exists_cell {cells : Nat → Option (Node w T)} {b : Int} {t : Patricia.Tree Nat}
    (h : Linked cells b t) :
    ∃ node, cells t.root = some node ∧ (b < node.bitIndex ↔ ∀ c, t ≠ .up c) := by
  cases t with
  | up c =>
    obtain ⟨node, hnode, hle⟩ := h
    exact ⟨node, hnode, iff_of_false (Int.not_lt.mpr hle) fun hall => hall c rfl⟩
  | node a i l r =>
    obtain ⟨hlt, ⟨node, hnode, hbit, -⟩, -⟩ := h
    exact ⟨node, hnode, iff_of_true (hbit ▸ hlt) nofun⟩

omit h hp ht in
theorem Cut.exists_links {other : Patricia.Tree Nat} (h : Cut m head f gs leaf other pnode)
    (hup : Linked m.cells f.bit (.up leaf)) (hother : Linked m.cells f.bit other) :
    ∃ lnode rnode, m.cells pnode.left = some lnode ∧ m.cells pnode.right = some rnode ∧
      (pnode.bitIndex < lnode.bitIndex ∨ pnode.bitIndex < rnode.bitIndex ↔ ∀ c, other ≠ .up c) := by
  obtain ⟨hbit, hlinks⟩ := h.links
  obtain ⟨upnode, hupnode, hle⟩ := hup
  obtain ⟨onode, honode, hdown⟩ := hother.exists_cell
  have hnot := Int.not_lt.mpr hle
  rw [← hbit] at hdown hnot
  split_ifs at hlinks
  · refine ⟨onode, upnode, hlinks.1 ▸ honode, hlinks.2 ▸ hupnode, ?_⟩
    rw [or_iff_left hnot]
    exact hdown
  · refine ⟨upnode, onode, hlinks.1 ▸ hupnode, hlinks.2 ▸ honode, ?_⟩
    rw [or_iff_right hnot]
    exact hdown

/-- What the third step leaves behind in `m₂`; `m₁` is the memory before it. -/
structure Rewired (m m₁ m₂ : Memory w T) (head : Nat) (f : Frame Nat) (gs : List (Frame Nat))
    (leaf : Nat) (k : Key w) (down : Bool) : Prop where
  rewired : m₁.rewireDown f.label leaf down = .ok (true, m₂)
  item : m₂.replacement k (parent head gs) f.label down =
    .ok (f.other.mapLeaves (WellFormed.redirect f.label leaf)).root
  ctx : CtxStored m₂.cells head gs f.label
  stored : Stored m₂.cells (f.other.mapLeaves (WellFormed.redirect f.label leaf))
  next_eq : m₂.next = m.next
  keyData_eq : keyData m₂.cells = Function.update (keyData m.cells) leaf (keyData m.cells f.label)

theorem Represents.rewired_up (k : Key w) {c : Nat} (hother : f.other = .up c) :
    Rewired m (m.copied f.label leaf pnode tnode) (m.copied f.label leaf pnode tnode) head f gs
      leaf k false := by
  have hwell := h.wellFormed
  have hcut := h.cut hp ht
  have hself : leaf = f.label ∧ c ≠ f.label ∨ leaf ≠ f.label ∧ c = f.label := by
    by_cases heq : leaf = f.label
    · refine .inl ⟨heq, ?_⟩
      rintro rfl
      refine hwell.not_mem_leaves_of_delete ((leaves_plug gs f.other).mem_iff.mpr ?_)
      rw [hother, heq]
      exact mem_cons_self
    · have hmem := hwell.label_mem_other (Ne.symm heq)
      rw [hother] at hmem
      exact .inr ⟨heq, (mem_singleton.mp hmem).symm⟩
  refine ⟨rfl, ?_, hcut.ctx.2.2, ?_, next_copied m _ _ _ _, keyData_copied leaf tnode hp⟩
  · rw [hother] at hcut ⊢
    exact hcut.replacement_up k (parent head gs) hself
  · rw [hother]
    trivial

theorem Represents.rewired_down {k : Key w}
    (hside : f.right = bitsOf k f.bit) (hdown : ∀ c, f.other ≠ .up c) :
    ∃ m₂, Rewired m (m.copied f.label leaf pnode tnode) m₂ head f gs leaf k true := by
  have hwell := h.wellFormed
  have hcut := h.cut hp ht
  have hnext := next_copied m f.label leaf pnode tnode
  have hkeyData := keyData_copied leaf tnode hp
  by_cases hself : f.label = leaf
  · have hsame : f.other.mapLeaves (WellFormed.redirect f.label leaf) = f.other := by
      refine Patricia.Tree.mapLeaves_eq_self fun c _ => ?_
      unfold WellFormed.redirect
      split_ifs with heq
      · exact (heq.trans hself).symm
      · rfl
    refine ⟨_, ?_, ?_, hcut.ctx.2.2, ?_, hnext, hkeyData⟩
    · unfold rewireDown
      rw [if_neg (by simp [hself])]
    · rw [hsame]
      exact hcut.replacement_down hside _
    · rw [hsame]
      exact hcut.stored
  · have hother := h.linked.other.2.congr fun _ _ _ _ => nodeCell_copied f.label pnode ht
    obtain ⟨m₂, hrewired, hcut', hnext', hkeyData'⟩ := hcut.rewireLeaf
      (plug_swap f gs (.up leaf) ▸ hwell.nodup) hwell.nodup_other hother hwell.depth_other_lt hdown
      (bitsAt_eq hp ▸ hwell.find_other hself) (bitsAt_eq hp ▸ hwell.bit_other hself)
    refine ⟨m₂, ?_, hcut'.replacement_down hside _, hcut'.ctx.2.2, hcut'.stored,
      hnext'.trans hnext, hkeyData'.trans hkeyData⟩
    unfold rewireDown
    rw [if_pos (by simpa using hself), hrewired]

theorem Represents.rewireDown {k : Key w} (hside : f.right = bitsOf k f.bit) :
    ∃ lnode rnode m₂ down,
      (m.copied f.label leaf pnode tnode).cells pnode.left = some lnode ∧
      (m.copied f.label leaf pnode tnode).cells pnode.right = some rnode ∧
      down = decide (pnode.bitIndex < lnode.bitIndex ∨ pnode.bitIndex < rnode.bitIndex) ∧
      Rewired m (m.copied f.label leaf pnode tnode) m₂ head f gs leaf k down := by
  obtain ⟨hup, hother⟩ := h.linked.other
  obtain ⟨lnode, rnode, hl, hr, hiff⟩ := (h.cut hp ht).exists_links
    (hup.congr fun _ _ _ _ => nodeCell_copied f.label pnode ht)
    (hother.congr fun _ _ _ _ => nodeCell_copied f.label pnode ht)
  by_cases hdown : ∀ c, f.other ≠ .up c
  · obtain ⟨m₂, hrewired⟩ := h.rewired_down hp ht hside hdown
    exact ⟨lnode, rnode, m₂, true, hl, hr, (decide_eq_true (hiff.mpr hdown)).symm, hrewired⟩
  · have hfalse := decide_eq_false fun hor => hdown (hiff.mp hor)
    obtain ⟨c, hc⟩ := not_forall_not.mp hdown
    exact ⟨lnode, rnode, _, false, hl, hr, hfalse.symm, h.rewired_up hp ht k hc⟩

omit ht hp

theorem Represents.detached {m' : Memory w T} (hctx : CtxStored m'.cells head gs
      (f.other.mapLeaves (WellFormed.redirect f.label leaf)).root)
    (hstored : Stored m'.cells (f.other.mapLeaves (WellFormed.redirect f.label leaf)))
    (hnext : m'.next = m.next) (hfree : m'.cells f.label = none)
    (hkeyData : ∀ a, a ≠ f.label → keyData m'.cells a =
      update (keyData m.cells) leaf (keyData m.cells f.label) a) :
    Represents m' head (plug gs (f.other.mapLeaves (WellFormed.redirect f.label leaf))) := by
  have hwell := h.wellFormed
  have hnodes : f.label ∉
      head :: (plug gs (f.other.mapLeaves (WellFormed.redirect f.label leaf))).nodes := by
    rw [(WellFormed.nodes_redirect.cons head).mem_iff]
    exact hwell.nodup_of_delete.1
  obtain ⟨hhead, hall⟩ := ctxStored_plug.mpr ⟨hctx, hstored⟩
  refine ⟨hwell.delete.congr fun c hc => ?_, hhead, hall, fun a ha => ?_⟩
  · have hne : c ≠ f.label := by
      rintro rfl
      exact hnodes hc
    have hdata := hkeyData c hne
    by_cases hleaf : c = leaf
    · subst hleaf
      rw [update_self] at hdata ⊢
      exact bitsAt_congr hdata
    · rw [update_of_ne hleaf] at hdata ⊢
      exact bitsAt_congr hdata
  · by_cases heq : a = f.label
    · rw [heq]
      exact hfree
    · have hnone : m.cells a = none := h.fresh a (hnext ▸ ha)
      have hleaf : a ≠ leaf := by
        rintro rfl
        have hmem : a ∈ head :: (plug (f :: gs) (.up a)).nodes :=
          hwell.perm.mem_iff.mp ((WellFormed.leaves_delete f gs a).mem_iff.mpr mem_cons_self)
        obtain ⟨node, hnode⟩ := h.exists_cell hmem
        rw [hnone] at hnode
        cases hnode
      have hdata := hkeyData a heq
      rw [update_of_ne hleaf] at hdata
      unfold keyData at hdata
      rw [hnone] at hdata
      exact Option.map_eq_none_iff.mp hdata

end Delete

theorem Represents.delete_of_mem (h : Represents m head t)
    (hfound : m.cells (t.find (bitsOf k)) = some found) (hk : k = found.key)
    (hne : t.find (bitsOf k) ≠ head) :
    ∃ m' t' f gs, t = plug (f :: gs) (.up (t.find (bitsOf k))) ∧
      t' = plug gs (f.other.mapLeaves (WellFormed.redirect f.label (t.find (bitsOf k)))) ∧
      m.delete head k = .ok (true, m') ∧ m'.cells f.label = none ∧ Represents m' head t' ∧
      keyData m'.cells head = keyData m.cells head ∧
      ((head :: t.nodes).map (keyData m.cells)).Perm
        (keyData m.cells (t.find (bitsOf k)) :: (head :: t'.nodes).map (keyData m'.cells)) := by
  obtain ⟨root, f, gs, hroot, hplug, hframes, hdescend⟩ := h.descend_leaf k hne
  generalize t.find (bitsOf k) = leaf at *
  subst hplug
  have hwell := h.wellFormed
  have hlabel := hwell.nodup_of_delete.1
  have hnodes : ∀ c ∈ head :: (plug gs (f.other.mapLeaves
      (WellFormed.redirect f.label leaf))).nodes, c ≠ f.label := by
    rintro c hc rfl
    exact hlabel ((WellFormed.nodes_redirect.cons head).mem_iff.mp hc)
  obtain ⟨hctxnodup, hdisjoint⟩ := nodup_ctx
    ((nodup_cons.mp (((WellFormed.nodes_delete f gs leaf).cons head).trans
      (List.Perm.swap _ _ _) |>.nodup_iff.mp hwell.nodup)).2)
  obtain ⟨pnode, hp⟩ : ∃ pnode, m.cells f.label = some pnode :=
    h.exists_cell (mem_cons_of_mem _
      ((WellFormed.nodes_delete f gs leaf).mem_iff.mpr mem_cons_self))
  obtain ⟨lnode, rnode, m₂, down, hl, hr, hdown, hleaf, hitem, hctx, hstored, hnext, hkeyData⟩ :=
    h.rewireDown hp hfound (hframes f mem_cons_self)
  have hout : f.label ∉ head :: ctxNodes gs := fun hmem => hlabel (mem_of_mem_ctx hmem)
  obtain ⟨m₃, hrewire, hctx₃, hstored₃, hnext₃, hkeyData₃⟩ := detach hctx hstored hctxnodup hout
    (fun hmem => hnodes _ (mem_cons_of_mem _
      ((nodes_plug gs _).mem_iff.mpr (mem_append_left _ hmem))) rfl)
    (fun a ha => hdisjoint a (Patricia.Tree.nodes_mapLeaves _ f.other ▸ ha))
    (fun g hg => hframes g (mem_cons_of_mem _ hg))
  have hpp : parent head gs ≠ f.label := fun heq => hout (heq ▸ parent_mem gs)
  have hdata : ∀ a, a ≠ f.label → keyData (m₃.free f.label).cells a =
      update (keyData m.cells) leaf (keyData m.cells f.label) a :=
    fun a ha => (hkeyData₃ a ha).trans (congrFun hkeyData a)
  have hfree : (m₃.free f.label).cells f.label = none := update_self _ _ _
  refine ⟨m₃.free f.label, _, f, gs, rfl, rfl, delete_eval hroot hdescend hfound hk hp hl hr hdown
    hleaf hpp hitem hrewire, hfree, h.detached hctx₃ hstored₃ (hnext₃.trans hnext) hfree hdata,
    ?_, ?_⟩
  · rw [hdata head (hnodes head mem_cons_self)]
    exact update_of_ne hne.symm _ _
  · have hsame : (head :: (plug gs (f.other.mapLeaves
        (WellFormed.redirect f.label leaf))).nodes).map (keyData (m₃.free f.label).cells) =
        (head :: (plug gs (f.other.mapLeaves (WellFormed.redirect f.label leaf))).nodes).map
          (update (keyData m.cells) leaf (keyData m.cells f.label)) :=
      map_congr_left fun c hc => hdata c (hnodes c hc)
    rw [hsame]
    exact hwell.map_delete (keyData m.cells)

end WormsAttack.Distack.PatriciaTrie
