/-
  Which subnet a packet is counted for.

  Source: distack-1.2.3-dev/src/base/common/SubnetCounterTree.cpp and SubnetCounterTree.h.

  Subnets are registered without their masks.

  THE DEFAULT ROUTE has the address 0.0.0.0, which is the key of the head.  `Exists` always
  finds it, so it is never inserted, and `getSubnets` does not give the head.

  COUNTERS are `unsigned long`, of `c` bits, and wrap around.
-/
import Mathlib.Data.BitVec
import WormsAttack.Distack.PatriciaMap
import WormsAttack.Foundation.Tally

namespace WormsAttack.Distack.SubnetCounterTree

open Foundation Foundation.Patricia Foundation.Tally PatriciaTrie List Function

/-! ## The tree -/

/-- `IP_ADDR`, in the order of the dotted notation. -/
abbrev IpAddr := Key 4

/-- `operator&`. -/
def andAddr (a b : IpAddr) : IpAddr := Vector.zipWith (· &&& ·) a b

/-- `IP_ADDR ()`. -/
def defaultAddr : IpAddr := Vector.replicate 4 0

structure AddrCounter (c : Nat) where
  srcCount : BitVec c
  dstCount : BitVec c
  deriving DecidableEq

inductive CountType
  | source
  | dest
  deriving DecidableEq

section Tree

variable {c : Nat}

def AddrCounter.get (counter : AddrCounter c) : CountType → BitVec c
  | .source => counter.srcCount
  | .dest => counter.dstCount

def AddrCounter.add (counter : AddrCounter c) (count : BitVec c) : CountType → AddrCounter c
  | .source => { counter with srcCount := counter.srcCount + count }
  | .dest => { counter with dstCount := counter.dstCount + count }

theorem AddrCounter.get_add (counter : AddrCounter c) (count : BitVec c) (type type' : CountType) :
    (counter.add count type).get type' =
      counter.get type' + if type = type' then count else 0 := by
  cases type <;> cases type' <;> simp [AddrCounter.add, AddrCounter.get]

def create (c : Nat) : Memory 4 (AddrCounter c) := (Memory.empty.create defaultAddr ⟨0, 0⟩).2

def addSubnet (m : Memory 4 (AddrCounter c)) (addr mask : IpAddr) :
    Except Stop (Memory 4 (AddrCounter c)) := do
  let subnet := andAddr addr mask
  let found ← m.existsKey 0 subnet
  if found then .ok m
  else do
    let (_, m) ← m.insert 0 subnet ⟨0, 0⟩
    .ok m

def addCount (m : Memory 4 (AddrCounter c)) (addr : IpAddr) (type : CountType)
    (count : BitVec c) : Except Stop (Memory 4 (AddrCounter c)) := do
  let node ← m.lookupGroup 0 addr
  let cell ← m.read node
  m.setData node (cell.data.add count type)

def getSubnets (m : Memory 4 (AddrCounter c)) : Except Stop (List (IpAddr × AddrCounter c)) :=
  m.items 0

end Tree

/-! ## Subnets -/

/-- A subnet with a contiguous mask: the first `length` bits of the mask are set. -/
structure Subnet where
  addr : IpAddr
  mask : IpAddr
  length : Nat
  length_le : length ≤ 32
  mask_bits : ∀ n < 32, bitsOf mask n = decide (n < length)

structure Call (c : Nat) where
  addr : IpAddr
  type : CountType
  count : BitVec c

namespace Subnet

def network (s : Subnet) : IpAddr := andAddr s.addr s.mask

def Contains (s : Subnet) (x : IpAddr) : Prop := andAddr x s.mask = s.network

instance (s : Subnet) (x : IpAddr) : Decidable (s.Contains x) :=
  inferInstanceAs (Decidable (_ = _))

end Subnet

section Runs

variable {c : Nat}

def addSubnets (m : Memory 4 (AddrCounter c)) :
    List Subnet → Except Stop (Memory 4 (AddrCounter c))
  | [] => .ok m
  | s :: rest => do
      let m ← addSubnet m s.addr s.mask
      addSubnets m rest

def addCounts (m : Memory 4 (AddrCounter c)) :
    List (Call c) → Except Stop (Memory 4 (AddrCounter c))
  | [] => .ok m
  | call :: rest => do
      let m ← addCount m call.addr call.type call.count
      addCounts m rest

/-- What `getSubnets` gives after the subnets have been registered and the calls made. -/
def counted (subnets : List Subnet) (calls : List (Call c)) :
    Except Stop (List (IpAddr × AddrCounter c)) := do
  let m ← addSubnets (create c) subnets
  let m ← addCounts m calls
  getSubnets m

end Runs

/-! ## What the counters should be -/

/-- `e` is the address of the subnet with the longest mask that has `x` in it. -/
def LongestMatch (subnets : List Subnet) (x e : IpAddr) : Prop :=
  ∃ s ∈ subnets, s.Contains x ∧ (∀ s' ∈ subnets, s'.Contains x → s'.length ≤ s.length) ∧
    s.network = e

instance (subnets : List Subnet) (x e : IpAddr) : Decidable (LongestMatch subnets x e) :=
  inferInstanceAs (Decidable (∃ s ∈ subnets, _ ∧ _ ∧ _))

section Counts

variable {c : Nat}

def amount (type : CountType) (call : Call c) : BitVec c :=
  if call.type = type then call.count else 0

def counterOf (items : List (IpAddr × AddrCounter c)) (e : IpAddr) (type : CountType) : BitVec c :=
  ((items.find? fun item => item.1 = e).map fun item => item.2.get type).getD 0

/-- Each entry has the counts of the addresses for which it is the longest match, and all
entries together have those of the addresses that are in a subnet. -/
structure Attributed (subnets : List Subnet) (calls : List (Call c))
    (items : List (IpAddr × AddrCounter c)) : Prop where
  registered : ∀ item ∈ items, ∃ s ∈ subnets, item.1 = s.network
  entries : ∀ s ∈ subnets, ∀ type, counterOf items s.network type =
    tally (fun call e => LongestMatch subnets call.addr e) (amount type) calls s.network
  total : ∀ type, (items.map fun item => item.2.get type).sum =
    (calls.map fun call =>
      if ∃ s ∈ subnets, s.Contains call.addr then amount type call else 0).sum

end Counts

/-- The address has the bit of `e` wherever `e` differs for the first time from a registered
address or from 0.0.0.0. -/
def Leads (subnets : List Subnet) (x e : IpAddr) : Prop :=
  ∀ d ∈ defaultAddr :: subnets.map Subnet.network, ∀ b,
    DifferAt b (bitsOf e) (bitsOf d) → bitsOf x b = bitsOf e b

/-- The bits that are tested lead to the longest match, which is not the default route; and to
0.0.0.0 if the address is in no subnet. -/
def WellPlaced (subnets : List Subnet) (x : IpAddr) : Prop :=
  (∀ e, LongestMatch subnets x e → e ≠ defaultAddr ∧ Leads subnets x e) ∧
    ((∀ s ∈ subnets, ¬ s.Contains x) → Leads subnets x defaultAddr)

/-! ## Addresses -/

section Addresses

variable {subnets : List Subnet} {x : IpAddr} {e : IpAddr}

theorem exists_longest (h : ∃ s ∈ subnets, s.Contains x) :
    ∃ s ∈ subnets, s.Contains x ∧ ∀ s' ∈ subnets, s'.Contains x → s'.length ≤ s.length := by
  induction subnets with
  | nil =>
    obtain ⟨s, hs, -⟩ := h
    cases hs
  | cons s rest ih =>
    by_cases hrest : ∃ s' ∈ rest, s'.Contains x
    · obtain ⟨best, hbest, hin, hmax⟩ := ih hrest
      by_cases hs : s.Contains x ∧ best.length ≤ s.length
      · refine ⟨s, mem_cons_self, hs.1, fun s' hs' hin' => ?_⟩
        rcases mem_cons.mp hs' with rfl | hs'
        · exact Nat.le_refl _
        · exact Nat.le_trans (hmax s' hs' hin') hs.2
      · refine ⟨best, mem_cons_of_mem _ hbest, hin, fun s' hs' hin' => ?_⟩
        rcases mem_cons.mp hs' with rfl | hs'
        · exact Nat.le_of_not_le fun hle => hs ⟨hin', hle⟩
        · exact hmax s' hs' hin'
    · obtain ⟨s', hs', hin⟩ := h
      obtain rfl := (mem_cons.mp hs').resolve_right fun hmem => hrest ⟨s', hmem, hin⟩
      refine ⟨s', mem_cons_self, hin, fun s'' hs'' hin'' => ?_⟩
      rcases mem_cons.mp hs'' with rfl | hs''
      · exact Nat.le_refl _
      · exact absurd ⟨s'', hs'', hin''⟩ hrest

theorem exists_longestMatch (h : ∃ s ∈ subnets, s.Contains x) : ∃ e, LongestMatch subnets x e := by
  obtain ⟨s, hs, hin, hmax⟩ := exists_longest h
  exact ⟨s.network, s, hs, hin, hmax, rfl⟩

theorem LongestMatch.mem (h : LongestMatch subnets x e) :
    e ∈ defaultAddr :: subnets.map Subnet.network := by
  obtain ⟨s, hs, -, -, rfl⟩ := h
  exact mem_cons_of_mem _ (mem_map_of_mem hs)

theorem Leads.unique {e' : IpAddr} (h : Leads subnets x e) (h' : Leads subnets x e')
    (he : e ∈ defaultAddr :: subnets.map Subnet.network)
    (he' : e' ∈ defaultAddr :: subnets.map Subnet.network) : e = e' := by
  by_contra hne
  obtain ⟨hdiffer, -⟩ := differAt_bitFirstDifferent hne
  have hbit := h e' he' _ hdiffer
  have hbit' := h' e he _ hdiffer.symm
  exact hdiffer.2 (hbit.symm.trans hbit')

/-- `r` is where the bits lead.  Whether the address is well placed is whether it is counted
where it should be. -/
theorem wellPlaced_iff {r : IpAddr} (hr : Leads subnets x r)
    (hmem : r ∈ defaultAddr :: subnets.map Subnet.network) :
    WellPlaced subnets x ↔
      ∀ s ∈ subnets, (r = s.network ∧ s.network ≠ defaultAddr ↔
        LongestMatch subnets x s.network) := by
  constructor
  · rintro ⟨hin, hout⟩ s hs
    constructor
    · rintro ⟨rfl, hne⟩
      by_cases hcontained : ∃ s ∈ subnets, s.Contains x
      · obtain ⟨e, he⟩ := exists_longestMatch hcontained
        rw [hr.unique (hin e he).2 hmem he.mem]
        exact he
      · have hdefault := hout fun s hs hx => hcontained ⟨s, hs, hx⟩
        exact absurd (hr.unique hdefault hmem mem_cons_self) hne
    · intro he
      exact ⟨hr.unique (hin _ he).2 hmem he.mem, (hin _ he).1⟩
  · intro hall
    refine ⟨fun e he => ?_, fun hnone => ?_⟩
    · have hmatch := he
      obtain ⟨s, hs, -, -, rfl⟩ := he
      obtain ⟨rfl, hne⟩ := (hall s hs).mpr hmatch
      exact ⟨hne, hr⟩
    · rcases mem_cons.mp hmem with rfl | hmem
      · exact hr
      obtain ⟨s, hs, rfl⟩ := mem_map.mp hmem
      by_cases hne : s.network = defaultAddr
      · rw [← hne]
        exact hr
      · obtain ⟨s', hs', hx, -⟩ := (hall s hs).mp ⟨rfl, hne⟩
        exact absurd hx (hnone s' hs')

end Addresses

/-! ## The counters in the trie -/

section State

variable {c : Nat} {m : Memory 4 (AddrCounter c)} {t : Patricia.Tree Nat} {subnets : List Subnet}
  {counters : IpAddr → AddrCounter c}

def contentsOf (subnets : List Subnet) (counters : IpAddr → AddrCounter c) :
    Contents 4 (AddrCounter c) :=
  fun e => if e ∈ subnets.map Subnet.network ∧ e ≠ defaultAddr then some (counters e) else none

theorem contentsOf_eq_some {e : IpAddr} {counter : AddrCounter c} :
    contentsOf subnets counters e = some counter ↔
      (e ∈ subnets.map Subnet.network ∧ e ≠ defaultAddr) ∧ counters e = counter := by
  unfold contentsOf
  split_ifs with h
  · rw [Option.some.injEq, and_iff_right h]
  · exact iff_of_false id fun hand => h hand.1

theorem holds_new : Holds (create c) 0 defaultAddr (contentsOf [] counters) (.up 0) := by
  exact holds_create defaultAddr (⟨0, 0⟩ : AddrCounter c)

variable {s : Subnet}

theorem contentsOf_concat_of_old
    (h : s.network ∈ subnets.map Subnet.network ∨ s.network = defaultAddr) :
    contentsOf (subnets ++ [s]) counters = contentsOf subnets counters := by
  funext e
  unfold contentsOf
  congr 1
  rw [map_append, mem_append]
  simp only [map_cons, map_nil, mem_singleton, eq_iff_iff]
  constructor
  · rintro ⟨hmem | rfl, hne⟩
    · exact ⟨hmem, hne⟩
    · exact ⟨h.resolve_right hne, hne⟩
  · rintro ⟨hmem, hne⟩
    exact ⟨.inl hmem, hne⟩

theorem contentsOf_concat_of_new (h : s.network ≠ defaultAddr) :
    contentsOf (subnets ++ [s]) counters =
      update (contentsOf subnets counters) s.network (some (counters s.network)) := by
  funext e
  by_cases he : e = s.network
  · subst he
    rw [update_self]
    exact if_pos ⟨by simp, h⟩
  · unfold contentsOf
    simp [he]

theorem addSubnet_eq {found : Bool} (h : m.existsKey 0 s.network = .ok found) :
    addSubnet m s.addr s.mask =
      if found then .ok m else (m.insert 0 s.network ⟨0, 0⟩ >>= fun p => .ok p.2) := by
  change (m.existsKey 0 s.network >>= _) = _
  rw [h]
  rfl

theorem addSubnet_spec (h : Holds m 0 defaultAddr (contentsOf subnets fun _ => ⟨0, 0⟩) t)
    (s : Subnet) :
    ∃ m' t', addSubnet m s.addr s.mask = .ok m' ∧
      Holds m' 0 defaultAddr (contentsOf (subnets ++ [s]) fun _ => ⟨0, 0⟩) t' := by
  by_cases hdefault : s.network = defaultAddr
  · have hfound := (h.existsKey_iff s.network).mpr (.inl hdefault)
    rw [addSubnet_eq hfound, contentsOf_concat_of_old (.inr hdefault)]
    exact ⟨m, t, rfl, h⟩
  have hexists := h.existsKey hdefault
  by_cases hold : s.network ∈ subnets.map Subnet.network
  · have hsome : contentsOf subnets (fun _ => (⟨0, 0⟩ : AddrCounter c)) s.network = some ⟨0, 0⟩ :=
      if_pos ⟨hold, hdefault⟩
    rw [hsome] at hexists
    rw [addSubnet_eq hexists, contentsOf_concat_of_old (.inl hold)]
    exact ⟨m, t, rfl, h⟩
  · have hnone : contentsOf subnets (fun _ => (⟨0, 0⟩ : AddrCounter c)) s.network = none :=
      if_neg fun hand => hold hand.1
    rw [hnone] at hexists
    obtain ⟨m', t', hok, -, h'⟩ := h.insert_of_none hdefault hnone ⟨0, 0⟩
    rw [addSubnet_eq hexists, contentsOf_concat_of_new hdefault]
    refine ⟨m', t', ?_, h'⟩
    rw [hok]
    rfl

theorem addSubnets_spec {registered : List Subnet}
    (h : Holds m 0 defaultAddr (contentsOf registered fun _ => ⟨0, 0⟩) t) (subnets : List Subnet) :
    ∃ m' t', addSubnets m subnets = .ok m' ∧
      Holds m' 0 defaultAddr (contentsOf (registered ++ subnets) fun _ => ⟨0, 0⟩) t' := by
  induction subnets generalizing m t registered with
  | nil =>
    rw [append_nil]
    exact ⟨m, t, rfl, h⟩
  | cons s rest ih =>
    obtain ⟨m₁, t₁, hok₁, h₁⟩ := addSubnet_spec h s
    obtain ⟨m', t', hok, h'⟩ := ih h₁
    rw [append_assoc] at h'
    refine ⟨m', t', ?_, h'⟩
    unfold addSubnets
    rw [hok₁]
    exact hok

variable (h : Holds m 0 defaultAddr (contentsOf subnets counters) t)

include h

variable {node : Node 4 (AddrCounter c)}

theorem key_mem {a : Nat} (ha : a ∈ 0 :: t.nodes) (hnode : m.cells a = some node) :
    node.key ∈ defaultAddr :: subnets.map Subnet.network := by
  rcases mem_cons.mp ha with rfl | ha
  · have hkey := h.headKey
    rw [keyData_eq hnode] at hkey
    exact Option.some.inj hkey ▸ mem_cons_self
  · have hin := (h.contents node.key node.data).mp
      (mem_map.mpr ⟨a, ha, keyData_eq hnode⟩)
    exact mem_cons_of_mem _ (contentsOf_eq_some.mp hin).1.1

theorem exists_key {e : IpAddr} (he : e ∈ defaultAddr :: subnets.map Subnet.network) :
    ∃ a ∈ 0 :: t.nodes, bitsAt m.cells a = bitsOf e := by
  by_cases hdefault : e = defaultAddr
  · subst hdefault
    obtain ⟨root, hroot⟩ := h.represents.exists_cell mem_cons_self
    have hkey := h.headKey
    rw [keyData_eq hroot] at hkey
    refine ⟨0, mem_cons_self, ?_⟩
    rw [bitsAt_eq hroot]
    exact congrArg bitsOf (Option.some.inj hkey)
  · have hmem := (mem_cons.mp he).resolve_left hdefault
    obtain ⟨a, ha, hdata⟩ := mem_map.mp
      ((h.contents e (counters e)).mpr (contentsOf_eq_some.mpr ⟨⟨hmem, hdefault⟩, rfl⟩))
    obtain ⟨node, hnode, heq⟩ := Option.map_eq_some_iff.mp hdata
    refine ⟨a, mem_cons_of_mem _ ha, ?_⟩
    rw [bitsAt_eq hnode]
    exact congrArg bitsOf (congrArg Prod.fst heq)

theorem leads_find (x : IpAddr) (hnode : m.cells (t.find (bitsOf x)) = some node) :
    Leads subnets x node.key := by
  intro d hd b hdiffer
  obtain ⟨a, ha, hbits⟩ := exists_key h hd
  rw [← bitsAt_eq hnode] at hdiffer ⊢
  rw [← hbits] at hdiffer
  exact (h.represents.wellFormed.sound.find_eq_iff (bitsOf x) (t.find_mem_leaves _)).mp rfl a
    (h.represents.wellFormed.perm.mem_iff.mpr ha) b hdiffer

theorem addCount_spec (x : IpAddr) (type : CountType) (count : BitVec c) :
    ∃ e m', Leads subnets x e ∧ e ∈ defaultAddr :: subnets.map Subnet.network ∧
      addCount m x type count = .ok m' ∧
      Holds m' 0 defaultAddr
        (contentsOf subnets (update counters e ((counters e).add count type))) t := by
  have hmem := h.represents.find_mem x
  obtain ⟨node, hnode⟩ := h.represents.exists_cell hmem
  obtain ⟨m', hok, h'⟩ := h.setData hmem hnode (node.data.add count type)
  refine ⟨node.key, m', leads_find h x hnode, key_mem h hmem hnode, ?_, ?_⟩
  · unfold addCount
    rw [h.represents.hangs.lookupGroup x, ok_bind, Memory.read_eq hnode]
    exact hok
  · have hcontents : contentsOf subnets
        (update counters node.key ((counters node.key).add count type)) =
        if t.find (bitsOf x) = 0 then contentsOf subnets counters
        else update (contentsOf subnets counters) node.key
          (some (node.data.add count type)) := by
      split_ifs with hhead
      · have hkey := h.headKey
        rw [← hhead, keyData_eq hnode] at hkey
        have hdefault : node.key = defaultAddr := Option.some.inj hkey
        funext e
        unfold contentsOf
        by_cases he : e = defaultAddr
        · rw [if_neg fun hand => hand.2 he, if_neg fun hand => hand.2 he]
        · rw [update_of_ne (hdefault ▸ he)]
      · have hin := (h.contents node.key node.data).mp (mem_map.mpr
          ⟨_, (mem_cons.mp hmem).resolve_left hhead, keyData_eq hnode⟩)
        obtain ⟨hentry, hcounter⟩ := contentsOf_eq_some.mp hin
        funext e
        by_cases he : e = node.key
        · subst he
          rw [update_self, ← hcounter]
          refine (if_pos hentry).trans ?_
          rw [update_self]
        · rw [update_of_ne he]
          unfold contentsOf
          rw [update_of_ne he]
    rw [hcontents]
    exact h'

omit h

/-- Each counter has what was counted where the bits lead to it. -/
theorem addCounts_spec {r : IpAddr → IpAddr} (hr : ∀ x, Leads subnets x (r x) ∧
      r x ∈ defaultAddr :: subnets.map Subnet.network)
    (h : Holds m 0 defaultAddr (contentsOf subnets counters) t) (calls : List (Call c)) :
    ∃ m' counters', addCounts m calls = .ok m' ∧
      Holds m' 0 defaultAddr (contentsOf subnets counters') t ∧
      ∀ e type, (counters' e).get type = (counters e).get type +
        tally (fun call e => r call.addr = e) (amount type) calls e := by
  induction calls generalizing m counters with
  | nil => exact ⟨m, counters, rfl, h, fun e type => (BitVec.add_zero _).symm⟩
  | cons call rest ih =>
    obtain ⟨e₀, m₁, hleads, hmem, hok₁, h₁⟩ := addCount_spec h call.addr call.type call.count
    obtain rfl := hleads.unique (hr call.addr).1 hmem (hr call.addr).2
    obtain ⟨m', counters', hok, h', hcounters⟩ := ih h₁
    refine ⟨m', counters', ?_, h', fun e type => ?_⟩
    · unfold addCounts
      rw [hok₁]
      exact hok
    · rw [hcounters e type, tally_cons, ← add_assoc]
      congr 1
      by_cases he : e = r call.addr
      · subst he
        rw [update_self, AddrCounter.get_add, if_pos rfl]
        rfl
      · rw [update_of_ne he, if_neg (Ne.symm he), add_zero]

end State

/-! ## What is counted -/

section Counted

variable {c : Nat} {subnets : List Subnet} {counters : IpAddr → AddrCounter c}
  {items : List (IpAddr × AddrCounter c)} {r : IpAddr → IpAddr} {calls : List (Call c)}

/-- Where the code counts a call, as far as `getSubnets` shows it. -/
def CountedAt (r : IpAddr → IpAddr) (call : Call c) (e : IpAddr) : Prop :=
  r call.addr = e ∧ e ≠ defaultAddr

instance (r : IpAddr → IpAddr) (call : Call c) (e : IpAddr) : Decidable (CountedAt r call e) :=
  inferInstanceAs (Decidable (_ ∧ _))

/-- The list that `getSubnets` gives if the bits of each address lead where `r` says. -/
structure Listed (subnets : List Subnet) (r : IpAddr → IpAddr) (calls : List (Call c))
    (items : List (IpAddr × AddrCounter c)) : Prop where
  nodup : (items.map Prod.fst).Nodup
  mem_iff : ∀ e, e ∈ items.map Prod.fst ↔
    e ∈ subnets.map Subnet.network ∧ e ≠ defaultAddr
  get_eq : ∀ item ∈ items, ∀ type, item.2.get type =
    tally (fun call e => r call.addr = e) (amount type) calls item.1

theorem counted_eq (subnets : List Subnet) (c : Nat) :
    ∃ r : IpAddr → IpAddr,
      (∀ x, Leads subnets x (r x) ∧ r x ∈ defaultAddr :: subnets.map Subnet.network) ∧
      ∀ calls : List (Call c), ∃ items, counted subnets calls = .ok items ∧
        Listed subnets r calls items := by
  have hnew : Holds (create c) 0 defaultAddr (contentsOf [] fun _ => ⟨0, 0⟩) (.up 0) := holds_new
  obtain ⟨m, t, hok, h⟩ := addSubnets_spec hnew subnets
  have hr : ∀ x, ∃ e, Leads subnets x e ∧ e ∈ defaultAddr :: subnets.map Subnet.network := by
    intro x
    obtain ⟨node, hnode⟩ := h.represents.exists_cell (h.represents.find_mem x)
    exact ⟨node.key, leads_find h x hnode, key_mem h (h.represents.find_mem x) hnode⟩
  choose r hr using hr
  refine ⟨r, hr, fun calls => ?_⟩
  obtain ⟨m', counters, hcounts, h', hcounters⟩ := addCounts_spec hr h calls
  obtain ⟨items, hitems, hnodup, hmem⟩ := h'.items
  refine ⟨items, ?_, hnodup, fun e => ?_, fun item hitem type => ?_⟩
  · unfold counted
    rw [hok, ok_bind, hcounts]
    exact hitems
  · constructor
    · intro he
      obtain ⟨⟨e, counter⟩, hitem, rfl⟩ := mem_map.mp he
      exact (contentsOf_eq_some.mp ((hmem e counter).mp hitem)).1
    · intro he
      have hitem := (hmem e (counters e)).mpr (contentsOf_eq_some.mpr ⟨he, rfl⟩)
      exact mem_map.mpr ⟨(e, counters e), hitem, rfl⟩
  · obtain ⟨e, counter⟩ := item
    obtain ⟨-, rfl⟩ := contentsOf_eq_some.mp ((hmem e counter).mp hitem)
    rw [hcounters e type]
    cases type <;> exact BitVec.zero_add _

theorem Listed.counterOf_eq (h : Listed subnets r calls items) {e : IpAddr}
    (he : e ∈ subnets.map Subnet.network) (type : CountType) :
    counterOf items e type = tally (CountedAt r) (amount type) calls e := by
  unfold counterOf
  cases hfind : items.find? fun item => item.1 = e with
  | none =>
    -- there is no entry for the default route only
    have hdefault : e = defaultAddr := by
      by_contra hne
      obtain ⟨item, hitem, heq⟩ := mem_map.mp ((h.mem_iff e).mpr ⟨he, hne⟩)
      have hnot := find?_eq_none.mp hfind item hitem
      simp [heq] at hnot
    have hzero : tally (CountedAt r) (amount type) calls e = 0 := by
      refine sum_eq_zero fun n hn => ?_
      obtain ⟨call, -, rfl⟩ := mem_map.mp hn
      exact if_neg fun hcounted => hcounted.2 hdefault
    rw [hzero]
    rfl
  | some item =>
    have heq : item.1 = e := by simpa using find?_some hfind
    have hitem := mem_of_find?_eq_some hfind
    have hne := ((h.mem_iff item.1).mp (mem_map_of_mem hitem)).2
    subst heq
    refine (h.get_eq item hitem type).trans (tally_congr fun call _ => .inr ?_)
    exact (and_iff_left hne).symm

theorem WellPlaced.mem_iff {x : IpAddr} (h : WellPlaced subnets x) (hr : Leads subnets x (r x))
    (hmem : r x ∈ defaultAddr :: subnets.map Subnet.network) :
    (r x ∈ subnets.map Subnet.network ∧ r x ≠ defaultAddr) ↔ ∃ s ∈ subnets, s.Contains x := by
  have hall := (wellPlaced_iff hr hmem).mp h
  constructor
  · rintro ⟨hin, hne⟩
    obtain ⟨s, hs, heq⟩ := mem_map.mp hin
    obtain ⟨s', hs', hx, -⟩ := (hall s hs).mp ⟨heq.symm, heq ▸ hne⟩
    exact ⟨s', hs', hx⟩
  · intro hx
    obtain ⟨s, hs, hin, hmax⟩ := exists_longest hx
    obtain ⟨heq, hne⟩ := (hall s hs).mpr ⟨s, hs, hin, hmax, rfl⟩
    rw [heq]
    exact ⟨mem_map_of_mem hs, hne⟩

theorem amount_eq_zero {call : Call c} (h : call.count = 0) (type : CountType) :
    amount type call = 0 := by
  unfold amount
  rw [h, ite_self]

theorem Listed.total_eq (h : Listed subnets r calls items)
    (hr : ∀ x, Leads subnets x (r x) ∧ r x ∈ defaultAddr :: subnets.map Subnet.network)
    (hplaced : ∀ call ∈ calls, call.count = 0 ∨ WellPlaced subnets call.addr) (type : CountType) :
    (items.map fun item => item.2.get type).sum =
      (calls.map fun call =>
        if ∃ s ∈ subnets, s.Contains call.addr then amount type call else 0).sum := by
  have hkeys : items.map (fun item => item.2.get type) = (items.map Prod.fst).map
      fun e => tally (fun call e => r call.addr = e) (amount type) calls e := by
    rw [map_map]
    exact map_congr_left fun item hitem => h.get_eq item hitem type
  rw [hkeys, sum_tally h.nodup (fun call : Call c => r call.addr) (amount type) calls]
  refine congrArg sum (map_congr_left fun call hcall => ?_)
  rcases hplaced call hcall with hzero | hplaced
  · rw [amount_eq_zero hzero, ite_self, ite_self]
  · have hiff := (h.mem_iff (r call.addr)).trans
      (hplaced.mem_iff (hr call.addr).1 (hr call.addr).2)
    simp only [hiff]

theorem counterOf_take_iff
    (hr : ∀ x, Leads subnets x (r x) ∧ r x ∈ defaultAddr :: subnets.map Subnet.network) :
    (∀ type n, ∀ e ∈ subnets.map Subnet.network,
        tally (CountedAt r) (amount type) (calls.take n) e =
          tally (fun call e => LongestMatch subnets call.addr e) (amount type) (calls.take n) e) ↔
      ∀ call ∈ calls, call.count = 0 ∨ WellPlaced subnets call.addr := by
  have hplaced : ∀ call : Call c, WellPlaced subnets call.addr ↔
      ∀ e ∈ subnets.map Subnet.network,
        (CountedAt r call e ↔ LongestMatch subnets call.addr e) := by
    intro call
    rw [wellPlaced_iff (hr call.addr).1 (hr call.addr).2, forall_mem_map]
    exact Iff.rfl
  constructor
  · intro h call hcall
    rcases tally_take_iff.mp (h call.type) call hcall with hzero | hsame
    · exact .inl ((if_pos rfl).symm.trans hzero)
    · exact .inr ((hplaced call).mpr hsame)
  · intro h type
    refine tally_take_iff.mpr fun call hcall => ?_
    exact (h call hcall).imp (fun hzero => amount_eq_zero hzero type) (hplaced call).mp

/-- The counts are right after every call exactly if every call that counts something has an
address that is well placed. -/
theorem attributed_iff (subnets : List Subnet) (calls : List (Call c)) :
    (∀ n, ∃ items, counted subnets (calls.take n) = .ok items ∧
        Attributed subnets (calls.take n) items) ↔
      ∀ call ∈ calls, call.count = 0 ∨ WellPlaced subnets call.addr := by
  obtain ⟨r, hr, hrun⟩ := counted_eq subnets c
  rw [← counterOf_take_iff hr]
  constructor
  · intro h type n e he
    obtain ⟨items, hok, hattributed⟩ := h n
    obtain ⟨items', hok', hlisted⟩ := hrun (calls.take n)
    cases hok.symm.trans hok'
    obtain ⟨s, hs, rfl⟩ := mem_map.mp he
    rw [← hlisted.counterOf_eq he type]
    exact hattributed.entries s hs type
  · intro h n
    obtain ⟨items, hok, hlisted⟩ := hrun (calls.take n)
    refine ⟨items, hok, fun item hitem => ?_, fun s hs type => ?_, ?_⟩
    · obtain ⟨s, hs, heq⟩ := mem_map.mp
        ((hlisted.mem_iff item.1).mp (mem_map_of_mem hitem)).1
      exact ⟨s, hs, heq.symm⟩
    · have he : s.network ∈ subnets.map Subnet.network := mem_map_of_mem hs
      rw [hlisted.counterOf_eq he type]
      exact h type n s.network he
    · refine hlisted.total_eq hr fun call hcall => ?_
      exact (counterOf_take_iff hr).mp h call (mem_of_mem_take hcall)

end Counted

/-! ## Nested subnets -/

def wide : Subnet where
  addr := #v[10, 0, 0, 0]
  mask := #v[255, 0, 0, 0]
  length := 8
  length_le := by decide
  mask_bits := by decide

def narrow : Subnet where
  addr := #v[10, 128, 0, 0]
  mask := #v[255, 255, 0, 0]
  length := 16
  length_le := by decide
  mask_bits := by decide

/-- A packet from 10.200.0.1, which is in the first subnet only, is counted for the second. -/
theorem not_attributed_nested :
    ¬ ∀ (subnets : List Subnet) (calls : List (Call 32)),
      ∃ items, counted subnets calls = .ok items ∧ Attributed subnets calls items := by
  intro hall
  obtain ⟨items, hok, hattributed⟩ := hall [wide, narrow] [⟨#v[10, 200, 0, 1], .source, 1⟩]
  have hrun : counted [wide, narrow] [⟨#v[10, 200, 0, 1], .source, 1⟩] =
      .ok [(#v[10, 0, 0, 0], (⟨0, 0⟩ : AddrCounter 32)), (#v[10, 128, 0, 0], ⟨1, 0⟩)] := by
    decide +kernel
  cases hok.symm.trans hrun
  have hwide := hattributed.entries wide mem_cons_self .source
  revert hwide
  decide +kernel

end WormsAttack.Distack.SubnetCounterTree
