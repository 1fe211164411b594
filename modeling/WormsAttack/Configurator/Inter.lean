/-
  Forwarding between ASes.

  The routes of a core router to the core routers of one other AS have the same prefix, so the
  one that was installed first is used.
-/
import Mathlib.Data.List.Pairwise
import WormsAttack.Configurator.Intra
import WormsAttack.Configurator.Membership

namespace WormsAttack.Configurator

open Foundation Inet Omnet List Option

/-! ## Core routers -/

def asNumber (net : Network) (id : Nat) : Option Nat := net.modules[id]?.bind asIdOf

variable {net : Network} {address : Nat → Nat → IPAddress}

theorem asNumber_eq {id : Nat} {node : NodeInfoRL} (h : nodeInfoRL net address id = .ok node) :
    node.asId = asNumber net id := by
  obtain ⟨m, hm, hid⟩ := asId_of_nodeInfoRL h
  rw [asNumber, hm, bind_some, hid]

/-- Every core router is in an AS, and core routers of different ASes have different AS
numbers. -/
structure Identified (net : Network) (noAS : Int) : Prop where
  covered : ∀ c ∈ (asTopology net).nodes, ∃ T ∈ rlTopologies net noAS, c ∈ T.nodes
  distinct : (rlTopologies net noAS).Pairwise fun T T' =>
    ∀ c ∈ (asTopology net).nodes, c ∈ T.nodes → ∀ c' ∈ (asTopology net).nodes, c' ∈ T'.nodes →
      asNumber net c ≠ asNumber net c'

/-! ### The address of a core router -/

theorem addr_of_nodeInfoRL {id : Nat} {node : NodeInfoRL} (h : nodeInfoRL net address id = .ok node)
    {a : IPAddress} (hall : ∀ k, (net.ift id)[k]?.any (!·.isLoopback) = true → address id k = a) :
    node.addr = a ∨ node.addr = ⟨0⟩ := by
  obtain ⟨m, -, -, -, hinterfaces, -⟩ := nodeInfoRL_eq_ok.mp h
  rcases (readInterfaces_ok hinterfaces).2.2.1 with hzero | ⟨k, entry, hk, hloop, haddr⟩
  · exact .inr hzero
  · refine .inl (haddr.trans (hall k ?_))
    rw [hk, any_some, hloop]
    rfl

namespace Phases

variable {f : PathFinder} {net : Network} {noAS : Int} {r : Configured} {as as' : NodeInfoAS}
  {c : Nat} {node : NodeInfoRL} (p : Phases f net noAS r) (hid : Identified net noAS)
  (has : as ∈ p.ases)

include p hid has

theorem asNumber_ne
    (has' : as' ∈ p.ases) (hne : as ≠ as') {c' : Nat} (hc : c ∈ (asTopology net).nodes)
    (hmem : c ∈ as.rlTopology.nodes) (hc' : c' ∈ (asTopology net).nodes)
    (hmem' : c' ∈ as'.rlTopology.nodes) : asNumber net c ≠ asNumber net c' := by
  have hpairs := hid.distinct
  rw [← p.topologies, pairwise_map] at hpairs
  have hsymm : Std.Symm fun as as' : NodeInfoAS => ∀ c ∈ (asTopology net).nodes,
      c ∈ as.rlTopology.nodes → ∀ c' ∈ (asTopology net).nodes, c' ∈ as'.rlTopology.nodes →
      asNumber net c ≠ asNumber net c' :=
    ⟨fun _ _ h a ha hain b hb hbin => (h b hb hbin a ha hain).symm⟩
  exact hpairs.forall has has' hne c hc hmem c' hc' hmem'

theorem as_unique
    (has' : as' ∈ p.ases) (hc : c ∈ (asTopology net).nodes) (hmem : c ∈ as.rlTopology.nodes)
    (hmem' : c ∈ as'.rlTopology.nodes) : as = as' := by
  by_contra hne
  exact p.asNumber_ne hid has has' hne hc hmem hc hmem' rfl

omit has in
theorem exists_as
    (hc : c ∈ (asTopology net).nodes) : ∃ as ∈ p.ases, ∃ node ∈ as.nodeMap, node.moduleId = c := by
  obtain ⟨T, hT, hmem⟩ := hid.covered c hc
  rw [← p.topologies] at hT
  obtain ⟨as, has, rfl⟩ := mem_map.mp hT
  rw [← (p.numbered as has).ids] at hmem
  obtain ⟨node, hnode, rfl⟩ := mem_map.mp hmem
  exact ⟨as, has, node, hnode, rfl⟩

theorem core_address
    (hnode : node ∈ as.nodeMap) (hcore : node.moduleId ∈ (asTopology net).nodes) {k : Nat}
    (hk : (net.ift node.moduleId)[k]?.any (!·.isLoopback) = true) :
    p.routed.address node.moduleId k = node.addr := by
  rw [p.keeps_intra.1]
  have hmem : node ∈ p.ases.flatMap NodeInfoAS.nodeMap := mem_flatMap.mpr ⟨as, has, hnode⟩
  refine p.assigns.address node hmem (fun node' hmem' hsame => ?_) k hk
  obtain ⟨as', has', hnode'⟩ := mem_flatMap.mp hmem'
  have hin := p.mem_nodes_of_mem has' hnode'
  rw [hsame] at hin
  obtain rfl := p.as_unique hid has has' hcore (p.mem_nodes_of_mem has hnode) hin
  have hfind := p.find?_nodeMap has hnode'
  rw [hsame, p.find?_nodeMap has hnode] at hfind
  rw [some.inj hfind]

theorem host_of_interEntry
    (hnode : node ∈ as.nodeMap) (hcore : node.moduleId ∈ (asTopology net).nodes) {s : Nat}
    {e : IPRoute} (he : interEntry f net p.routed.address node.moduleId s = some e) :
    e.netmask = netMask ∧ (e.host = as.addr ∨ e.host = ⟨0⟩) := by
  obtain ⟨dest, -, -, hdest, -, -, -, -, hhost, hmask⟩ := interEntry_eq_some he
  refine ⟨hmask, ?_⟩
  rw [hhost]
  rcases addr_of_nodeInfoRL hdest fun k hk => p.core_address hid has hnode hcore hk with
    haddr | haddr
  · rw [haddr]
    exact .inl (p.prefix_of_mem has hnode).1
  · rw [haddr]
    exact .inr (by decide)

omit hid in
theorem addr_ne_zero : as.addr ≠ ⟨0⟩ := by
  intro hzero
  obtain ⟨i, hi⟩ := mem_iff_getElem?.mp has
  have haddr := (p.addr_toNat hi).2
  rw [hzero] at haddr
  exact absurd haddr (Nat.ne_of_lt (Nat.mul_pos (by decide) (Nat.succ_pos i)))

omit hid in
theorem pos_of_ne (has' : as' ∈ p.ases) (hne : as ≠ as') : noAS > 0 := by
  by_contra hpos
  have hfew : p.ids.length ≤ 1 := by
    have hextracted := p.extracted
    simp only [extractAS, if_neg hpos] at hextracted
    split at hextracted
    · split at hextracted
      · cases hextracted
      · rw [← Except.ok.inj hextracted]
        omega
    · rw [← Except.ok.inj hextracted]
      exact Nat.zero_le 1
  have hlength : p.ases.length = p.ids.length := by
    have haddrs := congrArg length p.addrs
    rw [length_map] at haddrs
    rw [haddrs]
    exact length_prefixes
  obtain ⟨i, hi⟩ := mem_iff_getElem?.mp has
  obtain ⟨j, hj⟩ := mem_iff_getElem?.mp has'
  obtain ⟨hi', -⟩ := List.getElem?_eq_some_iff.mp hi
  obtain ⟨hj', -⟩ := List.getElem?_eq_some_iff.mp hj
  obtain rfl : i = j := by omega
  exact hne (some.inj (hi.symm.trans hj))

omit hid has in
theorem served (hpos : noAS > 0) :
    ∀ i ∈ (asTopology net).nodes, ∀ j ∈ (asTopology net).nodes,
      Served f net p.routed.address i j := by
  rcases p.inter with ⟨-, x, hx, -⟩ | ⟨hnot, -⟩
  · exact (createInterASPaths_ok hx).2.2.2
  · exact absurd hpos hnot

theorem exists_interEntry
    (has' : as' ∈ p.ases) (hne : as ≠ as') {src : NodeInfoRL} (hnode : node ∈ as.nodeMap)
    (hsrc : src ∈ as'.nodeMap) (hcore : node.moduleId ∈ (asTopology net).nodes)
    (hs : src.moduleId ∈ (asTopology net).nodes) :
    ∃ e, interEntry f net p.routed.address node.moduleId src.moduleId = some e ∧
      e.host = as.addr ∧ e.netmask = netMask := by
  have hin := p.mem_nodes_of_mem has hnode
  have hin' := p.mem_nodes_of_mem has' hsrc
  have hother : src.moduleId ≠ node.moduleId := by
    intro heq
    rw [heq] at hin'
    exact hne (p.as_unique hid has has' hcore hin hin')
  obtain ⟨dest, source, hdest, hsource, hroute⟩ :=
    p.served (p.pos_of_ne has has' hne) node.moduleId hcore src.moduleId hs hother
  have hnumber : dest.asId ≠ source.asId := by
    rw [asNumber_eq hdest, asNumber_eq hsource]
    exact p.asNumber_ne hid has has' hne hcore hin hs hin'
  obtain ⟨e, he, hspecified⟩ := hroute hnumber
  obtain ⟨hmask, hhost | hhost⟩ := p.host_of_interEntry hid has hnode hcore he
  · exact ⟨e, he, hhost, hmask⟩
  · rw [hhost] at hspecified
    cases hspecified

theorem prefixRoute
    {d : Nat} (hd : (asTopology net).nodes.find? (· ∈ as.rlTopology.nodes) = some d) {s : Nat}
    (hs : s ∈ (asTopology net).nodes) (hout : s ∉ as.rlTopology.nodes) :
    ∃ e, interEntry f net p.routed.address d s = some e ∧
      (r.st.rt s).prefixRoute as.addr netMask = some e := by
  obtain ⟨hdin, before, later, hsplit, hbefore⟩ := find?_eq_some_iff_append.mp hd
  have hdcore : d ∈ (asTopology net).nodes := mem_of_find?_eq_some hd
  obtain ⟨node, hnode, rfl⟩ :=
    mem_map.mp ((p.numbered as has).ids ▸ of_decide_eq_true hdin)
  obtain ⟨as', has', src, hsrc, rfl⟩ := p.exists_as hid hs
  have hne : as ≠ as' := fun heq => hout (heq ▸ p.mem_nodes_of_mem has' hsrc)
  have hpos := p.pos_of_ne has has' hne
  obtain ⟨e, he, hhost, hmask⟩ := p.exists_interEntry hid has has' hne hnode hsrc hdcore hs
  refine ⟨e, he, ?_⟩
  -- earlier routes have another netmask, or are to core routers of other ASes
  have hdefault : (src.defaultRoutes.find? fun e => e.host = as.addr ∧ e.netmask = netMask) =
      none := by
    refine find?_eq_none.mpr fun e' he' => ?_
    rw [netmask_of_mem_defaultRoutes he']
    simp [netMask]
  have hintra : ((intraEntries f net p.ases src.moduleId).find? fun e =>
      e.host = as.addr ∧ e.netmask = netMask) = none := by
    refine find?_eq_none.mpr fun e' he' => ?_
    rw [netmask_of_mem_intraEntries he']
    simp [netMask, IPAddress.allOnes]
  have hother : ((before.filterMap (interEntry f net p.routed.address · src.moduleId)).find?
      fun e => e.host = as.addr ∧ e.netmask = netMask) = none := by
    refine find?_eq_none.mpr fun e' he' => ?_
    obtain ⟨c, hc, hc'⟩ := mem_filterMap.mp he'
    have hcore : c ∈ (asTopology net).nodes := by
      rw [hsplit]
      exact mem_append_left _ hc
    have hcout : c ∉ as.rlTopology.nodes := by simpa using hbefore c hc
    obtain ⟨b, hb, other, hother, rfl⟩ := p.exists_as hid hcore
    have hdiffer : e'.host ≠ as.addr := by
      rcases (p.host_of_interEntry hid hb hother hcore hc').2 with heq | heq
      · intro hsame
        obtain rfl := inj_on_of_nodup_map p.nodup_addr hb has (heq.symm.trans hsame)
        exact hcout (p.mem_nodes_of_mem hb hother)
      · rw [heq]
        exact (p.addr_ne_zero has).symm
    simp [hdiffer]
  rw [p.table has' hsrc, RoutingTable.prefixRoute, find?_append, hdefault, none_or,
    find?_append, hintra, none_or, interEntries, if_pos ⟨hpos, hs⟩, hsplit,
    filterMap_append, find?_append, hother, none_or, filterMap_cons, he]
  exact find?_cons_of_pos (by simp [hhost, hmask])

end Phases

/-! ## Forwarding -/

theorem outLink_of_interEntry {f : PathFinder} {i j : Nat} {e : IPRoute}
    (h : interEntry f net address i j = some e) :
    ∃ l, f.firstLink (asTopology net) i j = some l ∧
      outLink net (asTopology net) j e.interface = some l := by
  obtain ⟨-, -, l, -, -, -, hl, hinterface, -, -⟩ := interEntry_eq_some h
  obtain ⟨hsrc, hmem, -⟩ := f.closer hl
  obtain ⟨ie, hie, hgate⟩ := gate_of_getInterface hinterface
  rw [← hsrc] at hie
  refine ⟨l, hl, ?_⟩
  rw [← hsrc]
  exact outLink_eq hmem hie hgate

/-- The core router that gets a packet for an AS, along the first route for its prefix. -/
def forwardInter (net : Network) (st : State) (as : NodeInfoAS) (s : Nat) : Option Nat :=
  if s ∈ as.rlTopology.nodes then none
  else ((st.rt s).prefixRoute as.addr netMask).bind fun e =>
    (outLink net (asTopology net) s e.interface).map Link.dst

/-- Each hop from a core router outside an AS leads one hop nearer to the first core router of the
AS, so forwarding gets there and passes no router twice. -/
theorem inter_loop_free {f : PathFinder} {net : Network} {noAS : Int} {r : Configured}
    (h : initializeNetwork f net noAS = .ok r) (hid : Identified net noAS)
    (hreach : ∀ s ∈ (asTopology net).nodes, ∀ t ∈ (asTopology net).nodes,
      ∃ n, Walk (asTopology net).Adj n s t)
    {as : NodeInfoAS} (has : as ∈ r.ases) {d : Nat}
    (hd : (asTopology net).nodes.find? (· ∈ as.rlTopology.nodes) = some d) :
    (∀ s ∈ (asTopology net).nodes, s ∉ as.rlTopology.nodes →
      ∃ n v, forwardInter net r.st as s = some v ∧ v ∈ (asTopology net).nodes ∧
        Dist (asTopology net).Adj (n + 1) s d ∧ Dist (asTopology net).Adj n v d) ∧
    ∀ s ∈ (asTopology net).nodes, ∃ path last, Leads (forwardInter net r.st as) s path last ∧
      (last ∈ (asTopology net).nodes ∧ last ∈ as.rlTopology.nodes) ∧ (s :: path).Nodup := by
  obtain ⟨p⟩ := phases_of_ok h
  rw [p.ases_eq] at has
  have hdcore : d ∈ (asTopology net).nodes := mem_of_find?_eq_some hd
  have hdin : d ∈ as.rlTopology.nodes := by
    have hfound := find?_some hd
    exact of_decide_eq_true hfound
  have hcloser : ∀ s ∈ (asTopology net).nodes, s ∉ as.rlTopology.nodes →
      ∃ n v, forwardInter net r.st as s = some v ∧ v ∈ (asTopology net).nodes ∧
        Dist (asTopology net).Adj (n + 1) s d ∧ Dist (asTopology net).Adj n v d := by
    intro s hs hout
    obtain ⟨e, he, hroute⟩ := p.prefixRoute hid has hd hs hout
    obtain ⟨l, hl, hlink⟩ := outLink_of_interEntry he
    obtain ⟨hsrc, hmem, -, n, hfar, hnear⟩ := f.closer hl
    rw [hsrc] at hfar
    refine ⟨n, l.dst, ?_, (mem_links hmem).2.2, hfar, hnear⟩
    rw [forwardInter, if_neg hout, hroute, bind_some, hlink, map_some]
  refine ⟨hcloser, fun s hs => ?_⟩
  obtain ⟨n, hwalk⟩ := hreach s hs d hdcore
  obtain ⟨k, hdist⟩ := exists_dist hwalk
  refine enters_of_closer (D := (· ∈ (asTopology net).nodes)) ⟨hdcore, hdin⟩
    (fun {x} hx hout => ?_) hs hdist
  obtain ⟨m, v, hnext, hv, hfar, hnear⟩ := hcloser x hx fun hin => hout ⟨hx, hin⟩
  exact ⟨m, v, hnext, hv, hfar, hnear⟩

theorem inter_loop_free_threeASes :
    ∃ r, initializeNetwork breadthFirst threeASes 3 = .ok r ∧ ∃ as ∈ r.ases,
      (asTopology threeASes).nodes.find? (· ∈ as.rlTopology.nodes) = some 8 ∧
      ∃ path last, Leads (forwardInter threeASes r.st as) 1 path last ∧
        (last ∈ (asTopology threeASes).nodes ∧ last ∈ as.rlTopology.nodes) ∧
        (1 :: path).Nodup := by
  obtain ⟨r, hr⟩ := threeASes_configured
  have hsome : ∃ as ∈ configuredASes (initializeNetwork breadthFirst threeASes 3),
      (asTopology threeASes).nodes.find? (· ∈ as.rlTopology.nodes) = some 8 := by decide +kernel
  rw [hr] at hsome
  obtain ⟨as, has, hfirst⟩ := hsome
  have hreach : ∀ s ∈ (asTopology threeASes).nodes, ∀ t ∈ (asTopology threeASes).nodes,
      (asTopology threeASes).reaches t 2 s = true := by decide +kernel
  have hconnected : ∀ s ∈ (asTopology threeASes).nodes, ∀ t ∈ (asTopology threeASes).nodes,
      ∃ n, Walk (asTopology threeASes).Adj n s t := by
    intro s hs t ht
    obtain ⟨n, -, hwalk⟩ := Topology.reaches_iff.mp (hreach s hs t ht)
    exact ⟨n, hwalk⟩
  have hid : Identified threeASes 3 := ⟨by decide +kernel, by decide +kernel⟩
  exact ⟨r, hr, as, has, hfirst,
    (inter_loop_free hr hid hconnected has hfirst).2 1 (by decide +kernel)⟩

end WormsAttack.Configurator
