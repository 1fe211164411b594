/-
  A trie is a finite map.

  The default key is the key of the head.  It is always found and never listed.
-/
import WormsAttack.Distack.PatriciaDelete

namespace WormsAttack.Distack.PatriciaTrie

open Foundation Foundation.Patricia List Function Memory

variable {w : Nat} {T : Type}

/-! ## Operations -/

inductive Operation (w : Nat) (T : Type)
  | insert (k : Key w) (d : T)
  | delete (k : Key w)
  | existsKey (k : Key w)
  | lookup (k : Key w)
  | getNodeList

inductive Answer (w : Nat) (T : Type)
  | node (node : Option (Key w × T))
  | flag (b : Bool)
  | data (d : T)
  | nodes (nodes : List (Key w × T))

def Operation.key? : Operation w T → Option (Key w)
  | .insert k _ => some k
  | .delete k => some k
  | .existsKey k => some k
  | .lookup k => some k
  | .getNodeList => none

namespace Memory

def readAll (m : Memory w T) : List Nat → Except Stop (List (Key w × T))
  | [] => .ok []
  | a :: rest => do
      let node ← m.read a
      let items ← m.readAll rest
      .ok ((node.key, node.data) :: items)

def items (m : Memory w T) (head : Nat) : Except Stop (List (Key w × T)) := do
  let nodes ← m.getNodeList (bound w) head
  m.readAll nodes

def perform (m : Memory w T) (head : Nat) (defaultData : T) :
    Operation w T → Except Stop (Answer w T × Memory w T)
  | .insert k d => do
      let (node, m) ← m.insert head k d
      let items ← m.readAll node.toList
      .ok (.node items.head?, m)
  | .delete k => do
      let (found, m) ← m.delete head k
      .ok (.flag found, m)
  | .existsKey k => do
      let found ← m.existsKey head k
      .ok (.flag found, m)
  | .lookup k => do
      let d ← m.lookup head k defaultData
      .ok (.data d, m)
  | .getNodeList => do
      let items ← m.items head
      .ok (.nodes items, m)

def performAll (m : Memory w T) (head : Nat) (defaultData : T) :
    List (Operation w T) → Except Stop (List (Answer w T) × Memory w T)
  | [] => .ok ([], m)
  | op :: ops => do
      let (answer, m) ← m.perform head defaultData op
      let (answers, m) ← m.performAll head defaultData ops
      .ok (answer :: answers, m)

end Memory

/-! ## The map -/

abbrev Contents (w : Nat) (T : Type) := Key w → Option T

namespace Contents

def after (s : Contents w T) : Operation w T → Contents w T
  | .insert k d => if s k = none then Function.update s k (some d) else s
  | .delete k => Function.update s k none
  | _ => s

theorem after_insert_of_none {s : Contents w T} {k : Key w} (h : s k = none) (d : T) :
    s.after (.insert k d) = update s k (some d) :=
  if_pos h

theorem after_insert_of_some {s : Contents w T} {k : Key w} (h : s k ≠ none) (d : T) :
    s.after (.insert k d) = s :=
  if_neg h

theorem after_delete (s : Contents w T) (k : Key w) :
    s.after (.delete k) = update s k none := rfl

def Gives (defaultData : T) (s : Contents w T) : Operation w T → Answer w T → Prop
  | .insert k d, .node node => node = if s k = none then some (k, d) else none
  | .delete k, .flag b => b = (s k).isSome
  | .existsKey k, .flag b => b = (s k).isSome
  | .lookup k, .data d => d = (s k).getD defaultData
  | .getNodeList, .nodes items =>
      (items.map Prod.fst).Nodup ∧ ∀ k d, (k, d) ∈ items ↔ s k = some d
  | _, _ => False

def GivesAll (defaultData : T) : Contents w T → List (Operation w T) → List (Answer w T) → Prop
  | _, [], answers => answers = []
  | s, op :: ops, answers =>
      ∃ answer rest, answers = answer :: rest ∧ s.Gives defaultData op answer ∧
        (s.after op).GivesAll defaultData ops rest

end Contents

/-! ## Reading nodes -/

section Nodes

variable {m : Memory w T} {head : Nat} {t : Patricia.Tree Nat}

theorem getNodeList_linked {b : Int} (fuel : Nat) (h : Linked m.cells b t) (hb : -1 ≤ b)
    (hfuel : t.depth ≤ fuel) :
    ∃ node, m.cells t.root = some node ∧
      (if b < node.bitIndex then m.getNodeList fuel t.root else .ok []) = .ok t.nodes := by
  induction t generalizing fuel b with
  | up c =>
    obtain ⟨node, hnode, hle⟩ := h
    exact ⟨node, hnode, if_neg (Int.not_lt.mpr hle)⟩
  | node a i l r ihl ihr =>
    obtain ⟨hlt, ⟨node, hnode, hbit, hleft, hright⟩, hl, hr⟩ := h
    refine ⟨node, hnode, ?_⟩
    unfold Patricia.Tree.depth at hfuel
    obtain ⟨fuel, rfl⟩ := Nat.exists_eq_add_of_le' (Nat.one_le_of_lt hfuel)
    obtain ⟨lnode, hlnode, hlitems⟩ := ihl fuel hl (by omega) (by omega)
    obtain ⟨rnode, hrnode, hritems⟩ := ihr fuel hr (by omega) (by omega)
    rw [← hleft] at hlnode hlitems
    rw [← hright] at hrnode hritems
    rw [if_pos (hbit ▸ hlt)]
    unfold getNodeList
    rw [read_eq (show m.cells (Patricia.Tree.node a i l r).root = _ from hnode), ok_bind,
      read_eq hlnode]
    rw [read_eq hrnode]
    change ((if node.bitIndex < lnode.bitIndex then m.getNodeList fuel node.left
      else .ok []) >>= _) = _
    rw [hbit, hlitems]
    rw [hritems]
    rfl

theorem Hangs.getNodeList (h : Hangs m head t) :
    m.getNodeList (bound w) head = .ok t.nodes := by
  obtain ⟨root, hroot, hbit, hleft, hright⟩ := h.headCell
  obtain ⟨rnode, hrnode, hitems⟩ := getNodeList_linked (8 * w) h.linked (Int.le_refl _)
    (Nat.le_of_lt_succ h.depth_lt)
  rw [← hright] at hrnode hitems
  have hself : m.cells root.left = some root := by
    rw [hleft]
    exact hroot
  unfold Memory.bound Memory.getNodeList
  rw [read_eq hroot, ok_bind, read_eq hself]
  rw [read_eq hrnode]
  change ((if root.bitIndex < root.bitIndex then m.getNodeList _ root.left else .ok []) >>= _) = _
  rw [hbit, hitems]
  rfl

theorem readAll_eq {nodes : List Nat} (h : ∀ a ∈ nodes, ∃ node, m.cells a = some node) :
    ∃ items, m.readAll nodes = .ok items ∧ items.map some = nodes.map (keyData m.cells) := by
  induction nodes with
  | nil => exact ⟨[], rfl, rfl⟩
  | cons a rest ih =>
    obtain ⟨node, hnode⟩ := h a mem_cons_self
    obtain ⟨items, hok, hitems⟩ := ih fun c hc => h c (mem_cons_of_mem _ hc)
    refine ⟨(node.key, node.data) :: items, ?_, ?_⟩
    · unfold readAll
      rw [read_eq hnode]
      rw [hok]
      rfl
    · rw [map_cons, map_cons, hitems, keyData_eq hnode]

theorem Represents.find_eq (h : Represents m head t) {a : Nat} (ha : a ∈ head :: t.nodes)
    {k : Key w} {d : T} (hkey : keyData m.cells a = some (k, d)) : t.find (bitsOf k) = a := by
  obtain ⟨node, hnode, heq⟩ := Option.map_eq_some_iff.mp hkey
  have hbits : bitsAt m.cells a = bitsOf k := by
    rw [bitsAt_eq hnode]
    exact congrArg bitsOf (congrArg Prod.fst heq)
  rw [← hbits]
  exact h.wellFormed.sound.find_eq (h.wellFormed.perm.mem_iff.mpr ha)

theorem Represents.nodup_keys (h : Represents m head t) :
    (((head :: t.nodes).map (keyData m.cells)).map (Option.map Prod.fst)).Nodup := by
  rw [map_map]
  refine h.wellFormed.nodup.map_on fun a ha b hb heq => ?_
  obtain ⟨node, hnode⟩ := h.exists_cell ha
  obtain ⟨node', hnode'⟩ := h.exists_cell hb
  simp only [comp_apply, keyData_eq hnode, keyData_eq hnode', Option.map_some,
    Option.some.injEq] at heq
  rw [← h.find_eq ha (keyData_eq hnode), heq, h.find_eq hb (keyData_eq hnode')]

end Nodes

/-! ## The nodes hold the contents -/

/-- The head has the default key, and the other nodes have the keys of the map. -/
structure Holds (m : Memory w T) (head : Nat) (defaultKey : Key w) (s : Contents w T)
    (t : Patricia.Tree Nat) : Prop where
  represents : Represents m head t
  headKey : (keyData m.cells head).map Prod.fst = some defaultKey
  contents : ∀ k d, some (k, d) ∈ t.nodes.map (keyData m.cells) ↔ s k = some d

section Holds

variable {m : Memory w T} {head : Nat} {defaultKey : Key w} {s : Contents w T}
  {t : Patricia.Tree Nat} {k : Key w} (h : Holds m head defaultKey s t)

include h

theorem Holds.find (hk : k ≠ defaultKey) :
    ∃ found, m.cells (t.find (bitsOf k)) = some found ∧
      (k = found.key → t.find (bitsOf k) ≠ head) ∧
      s k = if k = found.key then some found.data else none := by
  have hmem := h.represents.find_mem k
  obtain ⟨found, hfound⟩ := h.represents.exists_cell hmem
  have hne : k = found.key → t.find (bitsOf k) ≠ head := by
    intro hkey heq
    have hhead := h.headKey
    rw [← heq, keyData_eq hfound, ← hkey] at hhead
    exact hk (Option.some.inj hhead)
  refine ⟨found, hfound, hne, ?_⟩
  split_ifs with hkey
  · refine (h.contents k found.data).mp (mem_map.mpr ⟨t.find (bitsOf k), ?_, ?_⟩)
    · exact (mem_cons.mp hmem).resolve_left (hne hkey)
    · rw [keyData_eq hfound, ← hkey]
  · refine Option.eq_none_iff_forall_ne_some.mpr fun d hd => ?_
    obtain ⟨a, ha, hdata⟩ := mem_map.mp ((h.contents k d).mpr hd)
    rw [h.represents.find_eq (mem_cons_of_mem _ ha) hdata] at hfound
    rw [keyData_eq hfound] at hdata
    exact hkey (congrArg Prod.fst (Option.some.inj hdata)).symm

theorem Holds.lookupNode (hk : k ≠ defaultKey) :
    (s k = none ∧ m.lookupNode head k = .ok none) ∨
      ∃ a node, s k = some node.data ∧ m.cells a = some node ∧
        m.lookupNode head k = .ok (some a) := by
  obtain ⟨found, hfound, -, hs⟩ := h.find hk
  have hok := h.represents.hangs.lookupNode hfound
  split_ifs at hs hok
  · exact .inr ⟨_, found, hs, hfound, hok⟩
  · exact .inl ⟨hs, hok⟩

theorem Holds.existsKey (hk : k ≠ defaultKey) : m.existsKey head k = .ok (s k).isSome := by
  unfold Memory.existsKey
  rcases h.lookupNode hk with ⟨hs, hok⟩ | ⟨a, node, hs, -, hok⟩
  · rw [hs, hok]
    rfl
  · rw [hs, hok]
    rfl

theorem Holds.lookup (hk : k ≠ defaultKey) (defaultData : T) :
    m.lookup head k defaultData = .ok ((s k).getD defaultData) := by
  unfold Memory.lookup
  rcases h.lookupNode hk with ⟨hs, hok⟩ | ⟨a, node, hs, hnode, hok⟩
  · rw [hs, hok]
    rfl
  · rw [hs, hok]
    change (m.read a >>= _) = _
    rw [read_eq hnode]
    rfl

theorem Holds.found_iff (k : Key w) :
    ∃ found, m.cells (t.find (bitsOf k)) = some found ∧
      (k = found.key ↔ k = defaultKey ∨ s k ≠ none) := by
  by_cases hk : k = defaultKey
  · subst hk
    obtain ⟨⟨key, d⟩, hdata, rfl⟩ := Option.map_eq_some_iff.mp h.headKey
    have hfind := h.represents.find_eq mem_cons_self hdata
    obtain ⟨node, hnode, heq⟩ := Option.map_eq_some_iff.mp hdata
    refine ⟨node, (congrArg m.cells hfind).trans hnode, iff_of_true ?_ (.inl rfl)⟩
    exact (congrArg Prod.fst heq).symm
  · obtain ⟨found, hfound, -, hs⟩ := h.find hk
    refine ⟨found, hfound, ?_⟩
    rw [hs, or_iff_right hk]
    split_ifs with hkey <;> simp [hkey]

theorem Holds.existsKey_iff (k : Key w) :
    m.existsKey head k = .ok true ↔ k = defaultKey ∨ s k ≠ none := by
  obtain ⟨found, hfound, hiff⟩ := h.found_iff k
  unfold Memory.existsKey
  rw [h.represents.hangs.lookupNode hfound, ← hiff]
  by_cases hkey : k = found.key
  · rw [if_pos hkey]
    exact iff_of_true rfl hkey
  · rw [if_neg hkey]
    exact iff_of_false (fun hok => Bool.false_ne_true (Except.ok.inj hok)) hkey

/-- What an operation does: it answers as the map does, and leaves the nodes with the contents
that the map then has. -/
def Performs (m : Memory w T) (head : Nat) (defaultKey : Key w) (defaultData : T)
    (s : Contents w T) (op : Operation w T) : Prop :=
  ∃ answer m' t', m.perform head defaultData op = .ok (answer, m') ∧
    s.Gives defaultData op answer ∧ Holds m' head defaultKey (s.after op) t'

theorem Holds.performs_existsKey (hk : k ≠ defaultKey)
    (defaultData : T) : Performs m head defaultKey defaultData s (.existsKey k) := by
  refine ⟨.flag (s k).isSome, m, t, ?_, rfl, h⟩
  change (m.existsKey head k >>= _) = _
  rw [h.existsKey hk]
  rfl

theorem Holds.performs_lookup (hk : k ≠ defaultKey)
    (defaultData : T) : Performs m head defaultKey defaultData s (.lookup k) := by
  refine ⟨.data ((s k).getD defaultData), m, t, ?_, rfl, h⟩
  change (m.lookup head k defaultData >>= _) = _
  rw [h.lookup hk]
  rfl

theorem Holds.items :
    ∃ items, m.items head = .ok items ∧ (items.map Prod.fst).Nodup ∧
      ∀ k d, (k, d) ∈ items ↔ s k = some d := by
  have hcells : ∀ a ∈ t.nodes, ∃ node, m.cells a = some node :=
    fun a ha => h.represents.exists_cell (mem_cons_of_mem _ ha)
  obtain ⟨items, hok, hitems⟩ := readAll_eq hcells
  refine ⟨items, ?_, ?_, fun k d => ?_⟩
  · unfold Memory.items
    rw [h.represents.hangs.getNodeList]
    exact hok
  · have hkeys := (nodup_cons.mp h.represents.nodup_keys).2
    rw [← hitems, map_map] at hkeys
    refine List.Nodup.of_map some ?_
    rw [map_map]
    exact hkeys
  · rw [← h.contents k d, ← hitems]
    exact (mem_map_of_injective (fun _ _ => Option.some.inj)).symm

theorem Holds.performs_getNodeList (defaultData : T) :
    Performs m head defaultKey defaultData s .getNodeList := by
  obtain ⟨items, hok, hitems⟩ := h.items
  refine ⟨.nodes items, m, t, ?_, hitems, h⟩
  change (m.items head >>= _) = _
  rw [hok]
  rfl

theorem Holds.insert_of_none (hk : k ≠ defaultKey) (hs : s k = none) (d : T) :
    ∃ m' t', m.insert head k d = .ok (some m.next, m') ∧
      keyData m'.cells = update (keyData m.cells) m.next (some (k, d)) ∧
      Holds m' head defaultKey (update s k (some d)) t' := by
  obtain ⟨found, hfound, -, hfind⟩ := h.find hk
  have hkey : k ≠ found.key := by
    intro heq
    rw [if_pos heq, hs] at hfind
    cases hfind
  obtain ⟨m', t', hok, hrep, hnodes, hkeyData⟩ := h.represents.insert_of_not_mem hfound hkey d
  have hnext := h.represents.next_not_mem
  have hnew : keyData m'.cells m.next = some (k, d) := by
    rw [hkeyData, update_self]
  refine ⟨m', t', hok, hkeyData, hrep, ?_, fun k' d' => ?_⟩
  · have hne : head ≠ m.next := fun heq => hnext (heq ▸ mem_cons_self)
    rw [hkeyData, update_of_ne hne]
    exact h.headKey
  · have hmap : (t'.nodes.map (keyData m'.cells)).Perm
        (some (k, d) :: t.nodes.map (keyData m.cells)) := by
      refine (hnodes.map _).trans ?_
      rw [map_cons, hnew]
      refine List.Perm.cons _ (List.Perm.of_eq (map_congr_left fun a ha => ?_))
      rw [hkeyData]
      refine update_of_ne ?_ _ _
      rintro rfl
      exact hnext (mem_cons_of_mem _ ha)
    rw [hmap.mem_iff, mem_cons, h.contents]
    by_cases hk' : k' = k
    · subst hk'
      rw [update_self, hs]
      simp [eq_comm]
    · simp [hk']

theorem Holds.insert_of_found (hk : k = defaultKey ∨ s k ≠ none)
    (d : T) : m.insert head k d = .ok (none, m) := by
  obtain ⟨found, hfound, hiff⟩ := h.found_iff k
  exact h.represents.insert_of_mem hfound (hiff.mpr hk) d

theorem Holds.performs_insert (hk : k ≠ defaultKey)
    (d defaultData : T) : Performs m head defaultKey defaultData s (.insert k d) := by
  by_cases hs : s k = none
  · obtain ⟨m', t', hok, hkeyData, h'⟩ := h.insert_of_none hk hs d
    have hnew : keyData m'.cells m.next = some (k, d) := by
      rw [hkeyData, update_self]
    obtain ⟨node, hnode, hdata⟩ := Option.map_eq_some_iff.mp hnew
    refine ⟨.node (some (k, d)), m', t', ?_, (if_pos hs).symm, ?_⟩
    · change (m.insert head k d >>= _) = _
      rw [hok]
      change (m'.readAll [m.next] >>= _) = _
      unfold readAll
      rw [read_eq hnode, ← hdata]
      rfl
    · rw [Contents.after_insert_of_none hs]
      exact h'
  · refine ⟨.node none, m, t, ?_, (if_neg hs).symm, ?_⟩
    · change (m.insert head k d >>= _) = _
      rw [h.insert_of_found (.inr hs) d]
      rfl
    · rw [Contents.after_insert_of_some hs]
      exact h

theorem Holds.performs_delete (hk : k ≠ defaultKey)
    (defaultData : T) : Performs m head defaultKey defaultData s (.delete k) := by
  obtain ⟨found, hfound, hne, hs⟩ := h.find hk
  by_cases hkey : k = found.key
  · rw [if_pos hkey] at hs
    obtain ⟨m', t', -, -, -, -, hok, -, hrep, hhead, hperm⟩ :=
      h.represents.delete_of_mem hfound hkey (hne hkey)
    rw [map_cons, map_cons, hhead, keyData_eq hfound, ← hkey] at hperm
    have hrest : (t.nodes.map (keyData m.cells)).Perm
        (some (k, found.data) :: t'.nodes.map (keyData m'.cells)) :=
      (hperm.trans (List.Perm.swap _ _ _)).cons_inv
    refine ⟨.flag true, m', t', ?_, ?_, hrep, ?_, fun k' d' => ?_⟩
    · change (m.delete head k >>= _) = _
      rw [hok]
      rfl
    · exact (congrArg Option.isSome hs).symm
    · rw [hhead]
      exact h.headKey
    · rw [Contents.after_delete]
      by_cases hk' : k' = k
      · -- the key was there once
        subst hk'
        have hkeys := (nodup_cons.mp h.represents.nodup_keys).2
        have hgone := (nodup_cons.mp ((hrest.map (Option.map Prod.fst)).nodup_iff.mp hkeys)).1
        rw [update_self]
        refine iff_of_false (fun hmem => hgone ?_) (Option.some_ne_none _).symm
        exact mem_map.mpr ⟨_, hmem, rfl⟩
      · rw [update_of_ne hk', ← h.contents, hrest.mem_iff, mem_cons]
        simp [hk']
  · rw [if_neg hkey] at hs
    refine ⟨.flag false, m, t, ?_, ?_, ?_⟩
    · change (m.delete head k >>= _) = _
      rw [h.represents.delete_of_not_mem hfound hkey]
      rfl
    · exact (congrArg Option.isSome hs).symm
    · rw [Contents.after_delete, ← hs, update_eq_self]
      exact h

/-- Every operation on a key other than the default key is that of a map. -/
theorem Holds.performs (defaultData : T) (op : Operation w T)
    (hop : op.key? ≠ some defaultKey) : Performs m head defaultKey defaultData s op := by
  cases op with
  | insert k d => exact h.performs_insert (fun heq => hop (congrArg some heq)) d defaultData
  | delete k => exact h.performs_delete (fun heq => hop (congrArg some heq)) defaultData
  | existsKey k => exact h.performs_existsKey (fun heq => hop (congrArg some heq)) defaultData
  | lookup k => exact h.performs_lookup (fun heq => hop (congrArg some heq)) defaultData
  | getNodeList => exact h.performs_getNodeList defaultData

theorem Holds.performAll (defaultData : T)
    (ops : List (Operation w T)) (hops : ∀ op ∈ ops, op.key? ≠ some defaultKey) :
    ∃ answers m', m.performAll head defaultData ops = .ok (answers, m') ∧
      s.GivesAll defaultData ops answers := by
  induction ops generalizing m s t with
  | nil => exact ⟨[], m, rfl, rfl⟩
  | cons op ops ih =>
    obtain ⟨answer, m₁, t₁, hok, hgives, h₁⟩ :=
      h.performs defaultData op (hops op mem_cons_self)
    obtain ⟨answers, m₂, hoks, hrest⟩ := ih h₁ fun op hop => hops op (mem_cons_of_mem _ hop)
    refine ⟨answer :: answers, m₂, ?_, answer, answers, rfl, hgives, hrest⟩
    unfold performAll
    rw [hok]
    change (m₁.performAll head defaultData ops >>= _) = _
    rw [hoks]
    rfl

end Holds

/-! ## New data -/

variable {a : Nat}

theorem Represents.setData {m : Memory w T} {head : Nat} {t : Patricia.Tree Nat}
    (h : Represents m head t) {node : Node w T} (hnode : m.cells a = some node) (d : T) :
    ∃ m', m.setData a d = .ok m' ∧ Represents m' head t ∧
      keyData m'.cells = update (keyData m.cells) a (some (node.key, d)) := by
  have hself : (m.write a { node with data := d }).cells a = some { node with data := d } :=
    update_self _ _ _
  have hcell : ∀ x bit left right, NodeCell m.cells x bit left right →
      NodeCell (m.write a { node with data := d }).cells x bit left right := by
    intro x bit left right hx
    by_cases hxa : x = a
    · subst hxa
      obtain ⟨node', hnode', hlinks⟩ := hx
      cases hnode.symm.trans hnode'
      exact ⟨_, hself, hlinks⟩
    · exact hx.update_of_ne hxa _
  have hdata : keyData (m.write a { node with data := d }).cells =
      update (keyData m.cells) a (some (node.key, d)) := by
    funext x
    by_cases hxa : x = a
    · subst hxa
      rw [update_self]
      exact keyData_eq hself
    · rw [update_of_ne hxa]
      exact keyData_update_of_ne hxa _
  refine ⟨m.write a { node with data := d }, ?_, ⟨?_, ?_, ?_, fun x hx => ?_⟩, hdata⟩
  · unfold Memory.setData
    rw [read_eq hnode]
    rfl
  · refine h.wellFormed.congr fun c _ => ?_
    by_cases hca : c = a
    · subst hca
      rw [bitsAt_eq hnode, bitsAt_eq hself]
    · unfold bitsAt
      rw [show (m.write a { node with data := d }).cells c = m.cells c from
        update_of_ne hca _ _]
  · exact hcell _ _ _ _ h.headCell
  · exact h.stored.congr fun x _ => hcell x
  · have hne : x ≠ a := by
      rintro rfl
      rw [h.fresh x hx] at hnode
      cases hnode
    exact (update_of_ne hne _ _).trans (h.fresh x hx)

theorem mem_map_update {nodes : List Nat} {f : Nat → Option (Key w × T)} {key : Key w} {d d₀ : T}
    (ha : a ∈ nodes) (hf : f a = some (key, d₀))
    (honly : ∀ x ∈ nodes, ∀ d', f x = some (key, d') → x = a) (k : Key w) (d' : T) :
    some (k, d') ∈ nodes.map (update f a (some (key, d))) ↔
      if k = key then d = d' else some (k, d') ∈ nodes.map f := by
  rw [mem_map, mem_map]
  split_ifs with hk
  · subst hk
    constructor
    · rintro ⟨x, hx, hdata⟩
      have hxa : x = a := by
        by_contra hne
        rw [update_of_ne hne] at hdata
        exact hne (honly x hx d' hdata)
      subst hxa
      rw [update_self] at hdata
      exact (Prod.mk.inj (Option.some.inj hdata)).2
    · rintro rfl
      exact ⟨a, ha, update_self _ _ _⟩
  · refine exists_congr fun x => and_congr_right fun _ => ?_
    by_cases hxa : x = a
    · subst hxa
      rw [update_self, hf]
      simp [Ne.symm hk]
    · rw [update_of_ne hxa]

theorem Holds.setData {m : Memory w T} {head : Nat} {defaultKey : Key w} {s : Contents w T}
    {t : Patricia.Tree Nat} (h : Holds m head defaultKey s t) (ha : a ∈ head :: t.nodes)
    {node : Node w T} (hnode : m.cells a = some node) (d : T) :
    ∃ m', m.setData a d = .ok m' ∧
      Holds m' head defaultKey
        (if a = head then s else update s node.key (some d)) t := by
  obtain ⟨m', hok, hrep, hdata⟩ := h.represents.setData hnode d
  have hhead := (nodup_cons.mp h.represents.wellFormed.nodup).1
  refine ⟨m', hok, hrep, ?_, fun k d' => ?_⟩
  · rw [hdata, ← h.headKey]
    by_cases heq : head = a
    · subst heq
      rw [update_self, keyData_eq hnode]
      rfl
    · rw [update_of_ne heq]
  · rw [hdata]
    split_ifs with heq
    · subst heq
      rw [← h.contents k d']
      refine iff_of_eq (congrArg (some (k, d') ∈ ·) (map_congr_left fun x hx => ?_))
      refine update_of_ne ?_ _ _
      rintro rfl
      exact hhead hx
    · have honly : ∀ x ∈ t.nodes, ∀ d', keyData m.cells x = some (node.key, d') → x = a := by
        intro x hx d' hxdata
        rw [← h.represents.find_eq ha (keyData_eq hnode)]
        exact (h.represents.find_eq (mem_cons_of_mem _ hx) hxdata).symm
      rw [mem_map_update ((mem_cons.mp ha).resolve_left heq) (keyData_eq hnode) honly,
        h.contents k d']
      split_ifs with hk
      · rw [hk, update_self, Option.some.injEq]
      · rw [update_of_ne hk]

/-! ## A new trie -/

theorem represents_create (defaultKey : Key w) (defaultData : T) :
    Represents (empty.create defaultKey defaultData).2 0 (.up 0) where
  wellFormed := WellFormed.empty _ _ _
  headCell := ⟨⟨-1, defaultKey, defaultData, 0, 0⟩, rfl, rfl, rfl, rfl⟩
  stored := trivial
  fresh a ha := by
    have hne : a ≠ 0 := Nat.ne_of_gt ha
    exact update_of_ne hne _ _

theorem holds_create (defaultKey : Key w) (defaultData : T) :
    Holds (empty.create defaultKey defaultData).2 0 defaultKey (fun _ => none) (.up 0) where
  represents := represents_create defaultKey defaultData
  headKey := rfl
  contents k d := by simp [Patricia.Tree.nodes]

/-- A new trie is an empty map, and stays a map. -/
theorem finite_map (defaultKey : Key w) (defaultData : T) (ops : List (Operation w T))
    (hops : ∀ op ∈ ops, op.key? ≠ some defaultKey) :
    ∃ answers m,
      (Memory.empty.create defaultKey defaultData).2.performAll
          (Memory.empty.create defaultKey defaultData).1 defaultData ops = .ok (answers, m) ∧
        Contents.GivesAll defaultData (fun _ => none) ops answers :=
  (holds_create defaultKey defaultData).performAll defaultData ops hops

theorem finite_map_one_key :
    ∃ answers m,
      (Memory.empty.create #v[(0 : UInt8)] 0).2.performAll 0 0
          [.insert #v[5] 7, .lookup #v[5], .delete #v[5], .getNodeList] = .ok (answers, m) ∧
        Contents.GivesAll 0 (fun _ => none)
          [.insert #v[(5 : UInt8)] 7, .lookup #v[5], .delete #v[5], .getNodeList] answers :=
  finite_map #v[0] 0 [.insert #v[5] 7, .lookup #v[5], .delete #v[5], .getNodeList] (by decide)

end WormsAttack.Distack.PatriciaTrie
