/-
  Modules, gates and the kernel's class cTopology.

  The kernel is not part of the repository; this is its documented behaviour as far as the
  network configurator uses it.

  PATHS.  Which shortest path `calculateUnweightedSingleShortestPathsTo` takes is not
  documented.  So the computation is a parameter that carries the documented behaviour
  (`PathFinder`); `breadthFirst` is one.
-/
import WormsAttack.Foundation.Paths

namespace WormsAttack.Omnet

open Foundation List

inductive Fault
  | error (message : String)
  | nullPointer
  /-- `gate` is called with an id that no gate has -/
  | noGate
  /-- a variable that was never set is used, or a number is not an `int` -/
  | undefined
  deriving DecidableEq

/-! ## Modules -/

/-- An output gate, and the modules that own the gates the connection passes through,
the next one first. -/
structure Gate where
  id : Int
  owners : List Nat
  deriving DecidableEq

structure Module where
  name : String
  index : Option Nat := none
  enclosing : List String
  properties : List (String × String)
  gates : List Gate
  gates_nodup : (gates.map Gate.id).Nodup := by decide
  name_nodot : '.' ∉ name.toList := by decide
  enclosing_nodot : ∀ part ∈ enclosing, '.' ∉ part.toList := by decide
  deriving DecidableEq

def Module.fullName (m : Module) : String :=
  match m.index with
  | none => m.name
  | some i => m.name ++ "[" ++ toString i ++ "]"

def Module.parts (m : Module) : List (List Char) :=
  m.enclosing.map String.toList ++ [m.fullName.toList]

def Module.fullPath (m : Module) : List Char := ['.'].intercalate m.parts

/-- The module has the property, and its value is not `false`. -/
def Module.hasProperty (m : Module) (property : String) : Bool :=
  match m.properties.lookup property with
  | none => false
  | some value => value != "false"

def selected (modules : List Module) (select : Module → Bool) (id : Nat) : Bool :=
  modules[id]?.any select

/-! ## Topologies -/

structure Link where
  src : Nat
  /-- `getLocalGate()->getId()` -/
  gate : Int
  dst : Nat
  enabled : Bool := true
  deriving DecidableEq

structure Topology where
  nodes : List Nat
  links : List Link
  deriving DecidableEq

def linksOf (modules : List Module) (select : Module → Bool) (id : Nat) : List Link :=
  match modules[id]? with
  | none => []
  | some m =>
      m.gates.filterMap fun g =>
        (g.owners.find? (selected modules select)).map fun d =>
          { src := id, gate := g.id, dst := d }

def extractFromNetwork (modules : List Module) (select : Module → Bool) : Topology :=
  let nodes := (List.range modules.length).filter (selected modules select)
  { nodes := nodes, links := nodes.flatMap (linksOf modules select) }

def extractByProperty (modules : List Module) (property : String) : Topology :=
  extractFromNetwork modules (·.hasProperty property)

def Topology.Adj (T : Topology) (a b : Nat) : Prop :=
  ∃ l ∈ T.links, l.enabled = true ∧ l.src = a ∧ l.dst = b

/-- The link is the first one of a shortest path to `t`. -/
def Topology.Closer (T : Topology) (t : Nat) (l : Link) : Prop :=
  l ∈ T.links ∧ l.enabled = true ∧ ∃ n, Dist T.Adj (n + 1) l.src t ∧ Dist T.Adj n l.dst t

section Extraction

variable {modules : List Module} {select : Module → Bool} {id : Nat}

theorem mem_nodes :
    id ∈ (extractFromNetwork modules select).nodes ↔ selected modules select id = true := by
  simp only [extractFromNetwork, mem_filter, mem_range, and_iff_right_iff_imp]
  intro h
  by_contra hlen
  simp [selected, getElem?_eq_none (Nat.le_of_not_lt hlen)] at h

theorem nodup_nodes : (extractFromNetwork modules select).nodes.Nodup :=
  nodup_range.filter _

variable {l : Link}

theorem mem_linksOf (h : l ∈ linksOf modules select id) :
    l.src = id ∧ l.enabled = true ∧ selected modules select l.dst = true := by
  unfold linksOf at h
  split at h
  · cases h
  · obtain ⟨g, -, hg⟩ := mem_filterMap.mp h
    obtain ⟨d, hfind, rfl⟩ := Option.map_eq_some_iff.mp hg
    exact ⟨rfl, rfl, find?_some hfind⟩

theorem mem_links (h : l ∈ (extractFromNetwork modules select).links) :
    l.src ∈ (extractFromNetwork modules select).nodes ∧ l.enabled = true ∧
      l.dst ∈ (extractFromNetwork modules select).nodes := by
  obtain ⟨id, hid, hl⟩ := mem_flatMap.mp h
  obtain ⟨rfl, henabled, hdst⟩ := mem_linksOf hl
  exact ⟨hid, henabled, mem_nodes.mpr hdst⟩

theorem link_unique {l' : Link} (h : l ∈ (extractFromNetwork modules select).links)
    (h' : l' ∈ (extractFromNetwork modules select).links) (hsrc : l.src = l'.src)
    (hgate : l.gate = l'.gate) : l = l' := by
  obtain ⟨id, -, hl⟩ := mem_flatMap.mp h
  obtain ⟨id', -, hl'⟩ := mem_flatMap.mp h'
  obtain rfl : id = id' := by rw [← (mem_linksOf hl).1, ← (mem_linksOf hl').1, hsrc]
  unfold linksOf at hl hl'
  cases hm : modules[id]? with
  | none =>
    rw [hm] at hl
    cases hl
  | some m =>
    rw [hm] at hl hl'
    obtain ⟨g, hg, hmap⟩ := mem_filterMap.mp hl
    obtain ⟨g', hg', hmap'⟩ := mem_filterMap.mp hl'
    obtain ⟨d, hd, rfl⟩ := Option.map_eq_some_iff.mp hmap
    obtain ⟨d', hd', rfl⟩ := Option.map_eq_some_iff.mp hmap'
    obtain rfl : g = g' := inj_on_of_nodup_map m.gates_nodup hg hg' hgate
    rw [Option.some.inj (hd.symm.trans hd')]

end Extraction

/-! ## Paths -/

/-- `calculateUnweightedSingleShortestPathsTo`, and `getPath(0)`: the first link of a shortest path,
if there is one. -/
structure PathFinder where
  firstLink : Topology → Nat → Nat → Option Link
  closer : ∀ {T : Topology} {t s : Nat} {l : Link}, firstLink T t s = some l →
    l.src = s ∧ T.Closer t l
  complete : ∀ {T : Topology} {t s n : Nat}, s ≠ t → Walk T.Adj n s t →
    (firstLink T t s).isSome = true

def Topology.reaches (T : Topology) (t : Nat) : Nat → Nat → Bool
  | 0, s => s == t
  | k + 1, s =>
      T.reaches t k s || T.links.any fun l => l.enabled && (l.src == s && T.reaches t k l.dst)

variable {T : Topology} {t : Nat}

theorem Topology.reaches_iff : ∀ {k s : Nat},
    T.reaches t k s = true ↔ ∃ n ≤ k, Walk T.Adj n s t := by
  intro k
  induction k with
  | zero =>
    intro s
    simp only [Topology.reaches, beq_iff_eq, Nat.le_zero]
    constructor
    · rintro rfl
      exact ⟨0, rfl, .here s⟩
    · rintro ⟨n, rfl, hwalk⟩
      cases hwalk
      rfl
  | succ k ih =>
    intro s
    simp only [Topology.reaches, Bool.or_eq_true, any_eq_true, Bool.and_eq_true, beq_iff_eq, ih]
    constructor
    · rintro (⟨n, hn, hwalk⟩ | ⟨l, hl, henabled, hsrc, n, hn, hwalk⟩)
      · exact ⟨n, Nat.le_succ_of_le hn, hwalk⟩
      · exact ⟨n + 1, Nat.succ_le_succ hn, .hop ⟨l, hl, henabled, hsrc, rfl⟩ hwalk⟩
    · rintro ⟨n, hn, hwalk⟩
      cases hwalk with
      | here => exact .inl ⟨0, Nat.zero_le k, .here _⟩
      | @hop n _ v _ edge rest =>
        obtain ⟨l, hl, henabled, hsrc, rfl⟩ := edge
        exact .inr ⟨l, hl, henabled, hsrc, n, Nat.le_of_succ_le_succ hn, rest⟩

def Topology.hopCount? (T : Topology) (t s : Nat) : Option Nat :=
  (List.range (T.links.length + 1)).find? fun k => T.reaches t k s

theorem Topology.hopCount?_eq_some {s n : Nat} : T.hopCount? t s = some n ↔ Dist T.Adj n s t := by
  have hsources : ∀ a b, T.Adj a b → a ∈ T.links.map Link.src := by
    rintro a b ⟨l, hl, -, rfl, -⟩
    exact mem_map_of_mem hl
  rw [hopCount?, find?_range_eq_some]
  constructor
  · rintro ⟨hreach, -, hless⟩
    obtain ⟨m, hm, hwalk⟩ := T.reaches_iff.mp hreach
    have hleast : ∀ {j : Nat}, Walk T.Adj j s t → n ≤ j := by
      intro j hj
      by_contra hlt
      have hnot := hless j (Nat.lt_of_not_le hlt)
      simp [T.reaches_iff.mpr ⟨j, le_rfl, hj⟩] at hnot
    obtain rfl : m = n := Nat.le_antisymm hm (hleast hwalk)
    exact ⟨hwalk, hleast⟩
  · intro hdist
    refine ⟨T.reaches_iff.mpr ⟨n, le_rfl, hdist.walk⟩, ?_, ?_⟩
    · have hle := hdist.le_length hsources
      rw [length_map] at hle
      exact mem_range.mpr (Nat.lt_succ_of_le hle)
    · intro j hj
      cases hreach : T.reaches t j s with
      | false => rfl
      | true =>
        obtain ⟨m, hm, hwalk⟩ := T.reaches_iff.mp hreach
        have hle := hdist.least hwalk
        omega

theorem Topology.closer_iff {l : Link} :
    T.Closer t l ↔ l ∈ T.links ∧ l.enabled = true ∧ ∃ n ∈ range (T.links.length + 1),
      T.hopCount? t l.src = some (n + 1) ∧ T.hopCount? t l.dst = some n := by
  simp only [Topology.Closer, Topology.hopCount?_eq_some]
  refine and_congr_right fun _ => and_congr_right fun _ => ⟨?_, ?_⟩
  · rintro ⟨n, hfar, hnear⟩
    have hfound := mem_of_find?_eq_some (Topology.hopCount?_eq_some.mpr hnear)
    exact ⟨n, hfound, hfar, hnear⟩
  · rintro ⟨n, -, hfar, hnear⟩
    exact ⟨n, hfar, hnear⟩

instance (T : Topology) (t : Nat) (l : Link) : Decidable (T.Closer t l) :=
  decidable_of_iff _ Topology.closer_iff.symm

/-- The first link, in the order of the links, to a node that is closer. -/
def Topology.nearestLink (T : Topology) (t s : Nat) : Option Link :=
  match T.hopCount? t s with
  | some (n + 1) =>
      T.links.find? fun l => l.enabled && (l.src == s && T.hopCount? t l.dst == some n)
  | _ => none

def breadthFirst : PathFinder where
  firstLink := Topology.nearestLink
  closer := by
    intro T t s l h
    unfold Topology.nearestLink at h
    split at h
    · rename_i n hcount
      have hl := List.find?_some h
      simp only [Bool.and_eq_true, beq_iff_eq] at hl
      obtain ⟨henabled, rfl, hdst⟩ := hl
      exact ⟨rfl, List.mem_of_find?_eq_some h, henabled, n, T.hopCount?_eq_some.mp hcount,
        T.hopCount?_eq_some.mp hdst⟩
    · cases h
  complete := by
    intro T t s n hne hwalk
    obtain ⟨k, hdist⟩ := exists_dist hwalk
    cases k with
    | zero => exact absurd hdist.eq_of_zero hne
    | succ k =>
      obtain ⟨v, ⟨l, hl, henabled, hsrc, rfl⟩, hv⟩ := hdist.exists_closer
      simp only [Topology.nearestLink, T.hopCount?_eq_some.mpr hdist, List.find?_isSome,
        Bool.and_eq_true, beq_iff_eq]
      exact ⟨l, hl, henabled, hsrc, T.hopCount?_eq_some.mpr hv⟩

theorem PathFinder.isSome_iff (f : PathFinder) {s : Nat} (hne : s ≠ t) :
    (f.firstLink T t s).isSome = true ↔ ∃ n, Walk T.Adj n s t := by
  constructor
  · intro h
    obtain ⟨l, hl⟩ := Option.isSome_iff_exists.mp h
    obtain ⟨rfl, -, -, n, hfar, -⟩ := f.closer hl
    exact ⟨n + 1, hfar.walk⟩
  · rintro ⟨n, hwalk⟩
    exact f.complete hne hwalk

theorem PathFinder.firstLink_eq
    (hunique : ∀ l l' : Link, T.Closer t l → T.Closer t l' → l.src = l'.src → l = l')
    (f f' : PathFinder) : f.firstLink T t = f'.firstLink T t := by
  have hsome : ∀ {g g' : PathFinder} {s : Nat} {l : Link}, g.firstLink T t s = some l →
      g'.firstLink T t s = some l := by
    intro g g' s l hl
    obtain ⟨rfl, hcloser⟩ := g.closer hl
    obtain ⟨-, -, n, hfar, -⟩ := hcloser
    have hne : l.src ≠ t := by
      intro heq
      rw [heq] at hfar
      exact absurd (hfar.least (.here t)) (Nat.not_succ_le_zero n)
    obtain ⟨l', hl'⟩ := Option.isSome_iff_exists.mp (g'.complete hne hfar.walk)
    obtain ⟨hsrc, hcloser'⟩ := g'.closer hl'
    rw [hl', hunique l' l hcloser' (g.closer hl).2 hsrc]
  funext s
  cases hl : f.firstLink T t s with
  | some l => exact (hsome hl).symm
  | none =>
    cases hl' : f'.firstLink T t s with
    | none => rfl
    | some l =>
      rw [hsome hl'] at hl
      cases hl

def PathFinder.choosing (f : PathFinder) (T : Topology) (t : Nat) (l : Link)
    (h : T.Closer t l) : PathFinder where
  firstLink T' t' s := if T' = T ∧ t' = t ∧ s = l.src then some l else f.firstLink T' t' s
  closer := by
    intro T' t' s l' hl'
    split at hl'
    · rename_i heq
      obtain ⟨rfl, rfl, rfl⟩ := heq
      cases hl'
      exact ⟨rfl, h⟩
    · exact f.closer hl'
  complete := by
    intro T' t' s n hne hwalk
    split
    · rfl
    · exact f.complete hne hwalk

end WormsAttack.Omnet
