/-
  The addresses are distinct.

  AS number `i` gets the prefix `65536 * (i + 1)`, and its `k`-th node the address
  `65536 * (i + 1) + 1 + k`.  There are at most 65534 ASes and 65535 nodes in an AS.
-/
import WormsAttack.Configurator.Transition

namespace WormsAttack.Configurator

open Foundation Inet Omnet List NodeInfoAS UInt32

/-! ## Counting -/

theorem toNat_add_of_lt {a b : UInt32} (h : a.toNat + b.toNat < 4294967296) :
    (a + b).toNat = a.toNat + b.toNat := by
  exact Nat.mod_eq_of_lt h

theorem prefixes_get : ∀ {n : Nat} {netIP : UInt32}, netIP.toNat + 65536 * n < 4294967296 →
    ∀ {i : Nat} {a : IPAddress}, (prefixes netIP n)[i]? = some a →
      i < n ∧ a.addr.toNat = netIP.toNat + 65536 * i := by
  intro n
  induction n with
  | zero =>
    intro netIP _ i a h
    cases h
  | succ n ih =>
    intro netIP hlt i a h
    have hone : 65536 ≤ 65536 * (n + 1) := Nat.le_mul_of_pos_right _ (Nat.succ_pos n)
    have hnext : (netIP + 65536).toNat = netIP.toNat + 65536 := by
      rw [toNat_add_of_lt] <;> simp only [reduceToNat]
      exact (Nat.add_le_add_left hone _).trans_lt hlt
    cases i with
    | zero =>
      cases h
      exact ⟨Nat.succ_pos n, rfl⟩
    | succ i =>
      rw [prefixes, getElem?_cons_succ] at h
      obtain ⟨hi, ha⟩ := ih (by omega) h
      exact ⟨Nat.succ_lt_succ hi, by omega⟩

theorem numbered_get : ∀ {nodes : List NodeInfoRL} {ip : UInt32},
    ip.toNat + nodes.length < 4294967296 →
    ∀ {k : Nat} {node : NodeInfoRL}, (numbered ip nodes)[k]? = some node →
      k < nodes.length ∧ node.addr.addr.toNat = ip.toNat + k := by
  intro nodes
  induction nodes with
  | nil =>
    intro ip _ k node h
    cases h
  | cons first nodes ih =>
    intro ip hlt k node h
    rw [length_cons] at hlt ⊢
    cases k with
    | zero =>
      cases h
      exact ⟨Nat.succ_pos _, rfl⟩
    | succ k =>
      have hnext : (ip + 1).toNat = ip.toNat + 1 := by
        rw [toNat_add_of_lt] <;> simp only [reduceToNat]
        omega
      obtain ⟨hk, hnode⟩ := ih (by omega) h
      exact ⟨Nat.succ_lt_succ hk, by omega⟩

theorem toNat_prefixOf (a : IPAddress) :
    (prefixOf a).addr.toNat = a.addr.toNat / 65536 * 65536 := by
  have hlt := a.addr.toNat_lt
  simp only [prefixOf, UInt32.toNat_shiftLeft, UInt32.toNat_shiftRight, Nat.shiftLeft_eq,
    Nat.shiftRight_eq_div_pow, UInt32.reduceToNat, Nat.reduceMod, Nat.reducePow]
  omega

namespace Phases

variable {f : PathFinder} {net : Network} {noAS : Int} {r : Configured}

theorem addr_toNat (p : Phases f net noAS r) {i : Nat} {as : NodeInfoAS}
    (h : p.ases[i]? = some as) : i < 65534 ∧ as.addr.addr.toNat = 65536 * (i + 1) := by
  have hcount := length_extractAS p.extracted p.few
  have hget : (prefixes 65536 p.ids.length)[i]? = some as.addr := by
    rw [← p.addrs, getElem?_map, h, Option.map_some]
  obtain ⟨hi, ha⟩ := prefixes_get (by simp only [reduceToNat]; omega) hget
  simp only [reduceToNat] at ha
  exact ⟨by omega, by omega⟩

theorem node_toNat (p : Phases f net noAS r) {i k : Nat} {as : NodeInfoAS} {node : NodeInfoRL}
    (h : p.ases[i]? = some as) (hnode : as.nodeMap[k]? = some node) :
    k < 65535 ∧ node.addr.addr.toNat = 65536 * (i + 1) + 1 + k := by
  obtain ⟨hi, haddr⟩ := p.addr_toNat h
  have hnumbered := p.numbered as (mem_of_getElem? h)
  obtain ⟨nodes, hnodes⟩ := hnumbered.consecutive
  have hlength : nodes.length ≤ 65535 := by
    have hids := congrArg length hnumbered.ids
    rw [hnodes, map_moduleId_numbered, length_map] at hids
    rw [hids]
    exact hnumbered.count
  have hfirst : (as.addr.addr + 1).toNat = as.addr.addr.toNat + 1 := by
    rw [toNat_add_of_lt] <;> simp only [reduceToNat]
    omega
  rw [hnodes] at hnode
  obtain ⟨hk, hk'⟩ := numbered_get (by omega) hnode
  exact ⟨by omega, by omega⟩

end Phases

/-! ## The assignment -/

def Separate (net : Network) (noAS : Int) : Prop :=
  (rlTopologies net noAS).Pairwise fun T T' => ∀ id ∈ T.nodes, id ∉ T'.nodes

instance (net : Network) (noAS : Int) : Decidable (Separate net noAS) :=
  inferInstanceAs (Decidable (List.Pairwise _ _))

/-- Every router-level node is in the router-level topology of exactly one AS. -/
structure Partitioned (net : Network) (noAS : Int) : Prop where
  covers : ∀ id, selected net.modules (·.hasProperty "RL") id = true →
    ∃ T ∈ rlTopologies net noAS, id ∈ T.nodes
  disjoint : Separate net noAS

structure AddressesExact (net : Network) (r : Configured) : Prop where
  given : ∀ id, selected net.modules (·.hasProperty "RL") id = true →
    ∃ as ∈ r.ases, ∃ node ∈ as.nodeMap, node.moduleId = id
  carried : ∀ as ∈ r.ases, ∀ node ∈ as.nodeMap, ∀ k,
    (net.ift node.moduleId)[k]?.any (!·.isLoopback) = true →
    r.st.address node.moduleId k = node.addr
  distinct : ∀ as ∈ r.ases, ∀ node ∈ as.nodeMap, ∀ as' ∈ r.ases, ∀ node' ∈ as'.nodeMap,
    node.addr = node'.addr → node.moduleId = node'.moduleId
  inPrefix : ∀ as ∈ r.ases, ∀ node ∈ as.nodeMap,
    prefixOf node.addr = as.addr ∧ node.addr ≠ as.addr
  prefixes : (r.ases.map NodeInfoAS.addr).Nodup
  unwrapped : ∀ sum ∈ r.st.additions, sum.1.toNat + sum.2.toNat < 4294967296

namespace Phases

variable {f : PathFinder} {net : Network} {noAS : Int} {r : Configured} (p : Phases f net noAS r)

include p

theorem addr_injective {as as' : NodeInfoAS} {node node' : NodeInfoRL}
    (has : as ∈ p.ases) (hnode : node ∈ as.nodeMap) (has' : as' ∈ p.ases)
    (hnode' : node' ∈ as'.nodeMap) (heq : node.addr = node'.addr) : as = as' ∧ node = node' := by
  obtain ⟨i, hi⟩ := mem_iff_getElem?.mp has
  obtain ⟨i', hi'⟩ := mem_iff_getElem?.mp has'
  obtain ⟨k, hk⟩ := mem_iff_getElem?.mp hnode
  obtain ⟨k', hk'⟩ := mem_iff_getElem?.mp hnode'
  have hvalue := p.node_toNat hi hk
  have hvalue' := p.node_toNat hi' hk'
  rw [← heq] at hvalue'
  obtain rfl : i = i' := by omega
  obtain rfl : k = k' := by omega
  obtain rfl : as = as' := Option.some.inj (hi.symm.trans hi')
  exact ⟨rfl, Option.some.inj (hk.symm.trans hk')⟩

theorem prefix_of_mem {as : NodeInfoAS} {node : NodeInfoRL}
    (has : as ∈ p.ases) (hnode : node ∈ as.nodeMap) :
    prefixOf node.addr = as.addr ∧ node.addr ≠ as.addr := by
  obtain ⟨i, hi⟩ := mem_iff_getElem?.mp has
  obtain ⟨k, hk⟩ := mem_iff_getElem?.mp hnode
  have hprefix := p.addr_toNat hi
  have hvalue := p.node_toNat hi hk
  constructor
  · apply IPAddress.ext_toNat
    rw [toNat_prefixOf]
    omega
  · intro heq
    rw [heq] at hvalue
    omega

theorem map_moduleId : (p.ases.flatMap nodeMap).map NodeInfoRL.moduleId =
      (rlTopologies net noAS).flatMap Topology.nodes := by
  rw [map_flatMap, ← p.topologies, flatMap_map]
  exact flatMap_congr fun as has => (p.numbered as has).ids

theorem nodup_moduleId (hdisjoint : Separate net noAS) :
    ((p.ases.flatMap nodeMap).map NodeInfoRL.moduleId).Nodup := by
  rw [p.map_moduleId, nodup_flatMap]
  refine ⟨fun T hT => ?_, hdisjoint.imp fun h id hid hid' => h id hid hid'⟩
  obtain ⟨m, rfl⟩ := exists_routerLevel hT
  exact nodup_nodes

theorem unwrapped : ∀ sum ∈ p.assigned.additions, sum.1.toNat + sum.2.toNat < 4294967296 := by
  have hcount := length_extractAS p.extracted p.few
  intro sum hsum
  rw [p.additions, mem_append] at hsum
  rcases hsum with hsum | hsum
  · -- the next prefix
    obtain ⟨a, ha, rfl⟩ := mem_map.mp hsum
    obtain ⟨i, hi⟩ := mem_iff_getElem?.mp ha
    obtain ⟨hlt, hvalue⟩ := prefixes_get (by simp only [reduceToNat]; omega) hi
    simp only [reduceToNat] at hvalue ⊢
    omega
  · obtain ⟨as, has, hsum⟩ := mem_flatMap.mp hsum
    obtain ⟨i, hi⟩ := mem_iff_getElem?.mp has
    obtain ⟨hlt, hvalue⟩ := p.addr_toNat hi
    rcases mem_cons.mp hsum with rfl | hsum
    · -- the first address of an AS
      simp only [reduceToNat]
      omega
    · -- the next address
      obtain ⟨node, hnode, rfl⟩ := mem_map.mp hsum
      obtain ⟨k, hk⟩ := mem_iff_getElem?.mp hnode
      obtain ⟨hless, hvalue'⟩ := p.node_toNat hi hk
      simp only [reduceToNat]
      omega

theorem nodup_addr : (p.ases.map addr).Nodup := by
  rw [nodup_iff_getElem?_ne_getElem?]
  intro i j hij hj heq
  rw [length_map] at hj
  have hi : i < p.ases.length := hij.trans hj
  have haddr := p.addr_toNat (getElem?_eq_getElem hi)
  have haddr' := p.addr_toNat (getElem?_eq_getElem hj)
  rw [getElem?_map, getElem?_map, getElem?_eq_getElem hi,
    getElem?_eq_getElem hj, Option.map_some, Option.map_some] at heq
  rw [Option.some.inj heq] at haddr
  omega

end Phases

/-- The addresses are pairwise distinct, each in the prefix of its AS and not the prefix itself,
the prefixes are distinct, and no addition wraps. -/
theorem addresses_exact {f : PathFinder} {net : Network} {noAS : Int} {r : Configured}
    (h : initializeNetwork f net noAS = .ok r) (hpart : Partitioned net noAS) :
    AddressesExact net r := by
  obtain ⟨p⟩ := phases_of_ok h
  have hases := p.ases_eq
  refine ⟨?_, ?_, ?_, ?_, ?_, ?_⟩
  · intro id hid
    obtain ⟨T, hT, hmem⟩ := hpart.covers id hid
    have hall : id ∈ (p.ases.flatMap nodeMap).map NodeInfoRL.moduleId := by
      rw [p.map_moduleId]
      exact mem_flatMap.mpr ⟨T, hT, hmem⟩
    obtain ⟨node, hnode, hid⟩ := mem_map.mp hall
    obtain ⟨as, has, hnode⟩ := mem_flatMap.mp hnode
    exact ⟨as, hases ▸ has, node, hnode, hid⟩
  · intro as has node hnode k hk
    have hmem : node ∈ p.ases.flatMap nodeMap :=
      mem_flatMap.mpr ⟨as, hases ▸ has, hnode⟩
    rw [p.keeps.1]
    refine p.assigns.address node hmem (fun node' hmem' hid => ?_) k hk
    rw [inj_on_of_nodup_map (p.nodup_moduleId hpart.disjoint) hmem' hmem hid]
  · intro as has node hnode as' has' node' hnode' heq
    rw [(p.addr_injective (hases ▸ has) hnode (hases ▸ has') hnode' heq).2]
  · intro as has node hnode
    exact p.prefix_of_mem (hases ▸ has) hnode
  · rw [hases]
    exact p.nodup_addr
  · rw [p.keeps.2]
    exact p.unwrapped

theorem partitioned_threeASes : Partitioned threeASes 3 := by
  refine ⟨fun id hid => ?_, ?_⟩
  · have hmem : id ∈ (extractFromNetwork threeASes.modules (·.hasProperty "RL")).nodes :=
      mem_nodes.mpr hid
    have hall : ∀ id ∈ (extractFromNetwork threeASes.modules (·.hasProperty "RL")).nodes,
        ∃ T ∈ rlTopologies threeASes 3, id ∈ T.nodes := by decide +kernel
    exact hall id hmem
  · decide +kernel

theorem threeASes_configured :
    ∃ r, initializeNetwork breadthFirst threeASes 3 = .ok r := by
  have hok : (initializeNetwork breadthFirst threeASes 3).isOk = true := by decide +kernel
  cases h : initializeNetwork breadthFirst threeASes 3 with
  | ok r => exact ⟨r, rfl⟩
  | error fault => simp [h, Except.isOk, Except.toBool] at hok

def configuredASes : Except Fault Configured → List NodeInfoAS
  | .ok r => r.ases
  | .error _ => []

theorem addresses_threeASes :
    ∃ r, initializeNetwork breadthFirst threeASes 3 = .ok r ∧ AddressesExact threeASes r := by
  obtain ⟨r, hr⟩ := threeASes_configured
  exact ⟨r, hr, addresses_exact hr partitioned_threeASes⟩

end WormsAttack.Configurator
