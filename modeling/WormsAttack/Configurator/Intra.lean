/-
  Forwarding inside an AS.
-/
import WormsAttack.Configurator.Addresses

namespace WormsAttack.Configurator

open Foundation Inet Omnet List Option

/-! ## Forwarding -/

def outLink (net : Network) (T : Topology) (s k : Nat) : Option Link :=
  (net.ift s)[k]?.bind fun ie =>
    T.links.find? fun l => l.src == s && l.gate == ie.nodeOutputGateId

/-- The next node for a packet to `dest`: by the /32 route if there is one, and else by the default
route. -/
def forward (net : Network) (T : Topology) (st : State) (dest : IPAddress) (s : Nat) :
    Option Nat :=
  (((st.rt s).specificRoute dest).or (st.rt s).getDefaultRoute).bind fun e =>
    (outLink net T s e.interface).map Link.dst

def IsEndSystem (net : Network) (id : Nat) : Prop :=
  net.modules[id]?.map (fun m => readRouterType m.fullPath) = some (.ok .endsys)

/-- The node has exactly one link, and all its interfaces except loopback are on it. -/
def OneLink (net : Network) (T : Topology) (s : Nat) : Prop :=
  ∃ l ∈ T.links, l.src = s ∧ (∀ l' ∈ T.links, l'.src = s → l' = l) ∧
    ∀ ie ∈ net.ift s, ie.isLoopback = false → ie.nodeOutputGateId = l.gate

def Wired (net : Network) (T : Topology) : Prop :=
  ∀ l ∈ T.links, (getInterfaceByNodeOutputGateId (net.ift l.src) l.gate).isSome = true

instance (net : Network) (id : Nat) : Decidable (IsEndSystem net id) :=
  inferInstanceAs (Decidable (_ = _))

instance (net : Network) (T : Topology) (s : Nat) : Decidable (OneLink net T s) :=
  inferInstanceAs (Decidable (∃ l ∈ T.links, _))

instance (net : Network) (T : Topology) : Decidable (Wired net T) :=
  inferInstanceAs (Decidable (∀ l ∈ T.links, _))

variable {net : Network} {e : IPRoute} {f : PathFinder}

theorem outLink_eq {modules : List Module} {select : Module → Bool} {l : Link}
    (hl : l ∈ (extractFromNetwork modules select).links) {k : Nat} {ie : InterfaceEntry}
    (hk : (net.ift l.src)[k]? = some ie) (hgate : ie.nodeOutputGateId = l.gate) :
    outLink net (extractFromNetwork modules select) l.src k = some l := by
  rw [outLink, hk, bind_some, hgate]
  have hsome : ((extractFromNetwork modules select).links.find? fun l' =>
      l'.src == l.src && l'.gate == l.gate).isSome = true :=
    find?_isSome.mpr ⟨l, hl, by simp⟩
  obtain ⟨l', hl'⟩ := isSome_iff_exists.mp hsome
  have hsame := find?_some hl'
  simp only [Bool.and_eq_true, beq_iff_eq] at hsame
  rw [hl', link_unique (mem_of_find?_eq_some hl') hl hsame.1 hsame.2]

/-! ## Tables -/

def intraEntries (f : PathFinder) (net : Network) (ases : List NodeInfoAS) (n : Nat) :
    RoutingTable :=
  ases.flatMap fun as =>
    if n ∈ as.rlTopology.nodes then as.rlTopology.nodes.filterMap (intraEntry f net as · n)
    else []

def interEntries (f : PathFinder) (net : Network) (noAS : Int)
    (address : Nat → Nat → IPAddress) (n : Nat) : RoutingTable :=
  if noAS > 0 ∧ n ∈ (asTopology net).nodes then
    (asTopology net).nodes.filterMap (interEntry f net address · n)
  else []

theorem intraEntry_eq_some {as : NodeInfoAS} {i j : Nat} (h : intraEntry f net as i j = some e) :
    e.netmask = .allOnes ∧ ∃ dest ∈ as.nodeMap, dest.moduleId = i ∧ e.host = dest.addr := by
  obtain ⟨-, h⟩ := ite_none_left_eq_some.mp h
  split at h
  · rename_i dest src l hdest hsrc hl
    obtain ⟨-, h⟩ := ite_none_left_eq_some.mp h
    obtain ⟨k, -, rfl⟩ := map_eq_some_iff.mp h
    refine ⟨rfl, dest, mem_of_find?_eq_some hdest, ?_, rfl⟩
    simpa using find?_some hdest
  · cases h

theorem netmask_of_mem_intraEntries {ases : List NodeInfoAS} {n : Nat}
    (h : e ∈ intraEntries f net ases n) : e.netmask = .allOnes := by
  obtain ⟨as, -, he⟩ := mem_flatMap.mp h
  split at he
  · obtain ⟨i, -, hi⟩ := mem_filterMap.mp he
    exact (intraEntry_eq_some hi).1
  · cases he

theorem netmask_of_mem_interEntries {noAS : Int} {address : Nat → Nat → IPAddress} {n : Nat}
    (h : e ∈ interEntries f net noAS address n) : e.netmask = netMask := by
  unfold interEntries at h
  split at h
  · obtain ⟨i, -, hi⟩ := mem_filterMap.mp h
    obtain ⟨-, -, -, -, -, -, -, -, -, hmask⟩ := interEntry_eq_some hi
    exact hmask
  · cases h

theorem netmask_of_mem_defaultRoutes {node : NodeInfoRL} (h : e ∈ node.defaultRoutes) :
    e.netmask = ⟨0⟩ := by
  unfold NodeInfoRL.defaultRoutes at h
  split at h
  · cases h
  · obtain ⟨k, -, rfl⟩ := mem_map.mp h
    rfl

namespace Phases

variable {f : PathFinder} {net : Network} {noAS : Int} {r : Configured} {node : NodeInfoRL}
  {as : NodeInfoAS} {src : NodeInfoRL} (p : Phases f net noAS r)

include p

theorem info_eq {node' : NodeInfoRL} (hnode : node ∈ p.ases.flatMap NodeInfoAS.nodeMap)
    (hnode' : node' ∈ p.ases.flatMap NodeInfoAS.nodeMap) (hid : node'.moduleId = node.moduleId) :
    node'.routerType = node.routerType ∧ node'.defaultRouteIE = node.defaultRouteIE := by
  obtain ⟨as, has, hmem⟩ := mem_flatMap.mp hnode
  obtain ⟨as', has', hmem'⟩ := mem_flatMap.mp hnode'
  obtain ⟨addr, hinfo⟩ := (p.numbered as has).info node hmem blank.address
  obtain ⟨addr', hinfo'⟩ := (p.numbered as' has').info node' hmem' blank.address
  rw [hid, hinfo] at hinfo'
  have heq := Except.ok.inj hinfo'
  exact ⟨(congrArg NodeInfoRL.routerType heq).symm, (congrArg NodeInfoRL.defaultRouteIE heq).symm⟩

variable (has : as ∈ p.ases)

include has

theorem assigned_rt (hnode : node ∈ as.nodeMap) :
    p.assigned.rt node.moduleId = node.defaultRoutes := by
  have hmem : node ∈ p.ases.flatMap NodeInfoAS.nodeMap := mem_flatMap.mpr ⟨as, has, hnode⟩
  refine p.assigns.rt node hmem (fun node' hmem' hid => ?_) (.inl rfl)
  obtain ⟨htype, hdefault⟩ := p.info_eq hmem hmem' hid
  rw [NodeInfoRL.defaultRoutes, htype, hdefault, NodeInfoRL.defaultRoutes]

omit has in
theorem routed_rt (n : Nat) : p.routed.rt n = p.assigned.rt n ++ intraEntries f net p.ases n := by
  obtain ⟨-, hrows⟩ := foldlM_rows (I := KeepsAddresses p.assigned) State.rt
    (fun (as : NodeInfoAS) n => if n ∈ as.rlTopology.nodes then
      as.rlTopology.nodes.filterMap (intraEntry f net as · n) else [])
    (fun _ has _ _ hx hy =>
      have hround := setIntraASRoutes_ok (p.nodup has) hy
      ⟨hx.trans hround.1, hround.2⟩)
    ⟨rfl, rfl⟩ p.intra
  exact hrows n

omit has in
theorem final_rt (n : Nat) :
    r.st.rt n = p.routed.rt n ++ interEntries f net noAS p.routed.address n := by
  rcases p.inter with ⟨hpos, x, hx, hr⟩ | ⟨hpos, hr⟩
  · rw [congrArg Configured.st hr, (createInterASPaths_ok hx).2.1 n, interEntries]
    simp only [hpos, true_and]
  · rw [congrArg Configured.st hr, interEntries, if_neg fun hn => hpos hn.1, append_nil]

theorem table (hnode : node ∈ as.nodeMap) :
    r.st.rt node.moduleId = node.defaultRoutes ++ (intraEntries f net p.ases node.moduleId ++
      interEntries f net noAS p.routed.address node.moduleId) := by
  rw [p.final_rt, p.routed_rt, p.assigned_rt has hnode, append_assoc]

theorem mem_nodes_of_mem (hnode : node ∈ as.nodeMap) : node.moduleId ∈ as.rlTopology.nodes := by
  rw [← (p.numbered as has).ids]
  exact mem_map_of_mem hnode

theorem find?_nodeMap (hnode : node ∈ as.nodeMap) :
    as.nodeMap.find? (·.moduleId == node.moduleId) = some node := by
  have hnodup : (as.nodeMap.map NodeInfoRL.moduleId).Nodup := by
    rw [(p.numbered as has).ids]
    exact p.nodup has
  have hsome : (as.nodeMap.find? (·.moduleId == node.moduleId)).isSome = true :=
    find?_isSome.mpr ⟨node, hnode, beq_self_eq_true _⟩
  obtain ⟨node', hfind⟩ := isSome_iff_exists.mp hsome
  have hid : node'.moduleId = node.moduleId := by simpa using find?_some hfind
  rw [hfind, inj_on_of_nodup_map hnodup (mem_of_find?_eq_some hfind) hnode hid]

theorem specificRoute {dest : NodeInfoRL} (hsrc : src ∈ as.nodeMap) (hdest : dest ∈ as.nodeMap) :
    (r.st.rt src.moduleId).specificRoute dest.addr =
      intraEntry f net as dest.moduleId src.moduleId := by
  rw [p.table has hsrc]
  refine RoutingTable.specificRoute_eq fun e => ⟨?_, fun he => ?_⟩
  · rintro ⟨he, hhost, hmask⟩
    rcases mem_append.mp he with he | he
    · rw [netmask_of_mem_defaultRoutes he] at hmask
      exact absurd hmask (by decide)
    · rcases mem_append.mp he with he | he
      · -- addresses are given once, so the route is of this AS and for this node
        obtain ⟨as', has', he⟩ := mem_flatMap.mp he
        split at he
        · obtain ⟨i, -, hi⟩ := mem_filterMap.mp he
          obtain ⟨-, dest', hdest', rfl, hhost'⟩ := intraEntry_eq_some hi
          obtain ⟨rfl, rfl⟩ := p.addr_injective has' hdest' has hdest (hhost'.symm.trans hhost)
          exact hi
        · cases he
      · rw [netmask_of_mem_interEntries he] at hmask
        exact absurd hmask (by decide)
  · obtain ⟨hmask, dest', hdest', hid, hhost⟩ := intraEntry_eq_some he
    have hsame : dest' = dest := by
      have hfind := p.find?_nodeMap has hdest'
      rw [hid, p.find?_nodeMap has hdest] at hfind
      exact (some.inj hfind).symm
    refine ⟨mem_append_right _ (mem_append_left _ ?_), by rw [hhost, hsame], hmask⟩
    refine mem_flatMap.mpr ⟨as, has, ?_⟩
    rw [if_pos (p.mem_nodes_of_mem has hsrc)]
    exact mem_filterMap.mpr ⟨dest.moduleId, p.mem_nodes_of_mem has hdest, he⟩

theorem defaultRoute (hsrc : src ∈ as.nodeMap) (hcore : src.routerType ≠ .core) :
    ∃ k, src.defaultRouteIE = some k ∧
      (r.st.rt src.moduleId).getDefaultRoute = some ⟨⟨0⟩, ⟨0⟩, k⟩ := by
  have hmem : src ∈ p.ases.flatMap NodeInfoAS.nodeMap := mem_flatMap.mpr ⟨as, has, hsrc⟩
  obtain ⟨k, hk⟩ := isSome_iff_exists.mp (p.assigns.defaults src hmem hcore)
  refine ⟨k, hk, ?_⟩
  rw [p.table has hsrc, NodeInfoRL.defaultRoutes, if_neg hcore, hk]
  exact RoutingTable.getDefaultRoute_cons

theorem forward_firstLink
    (hends : ∀ id ∈ as.rlTopology.nodes, IsEndSystem net id → OneLink net as.rlTopology id)
    (hwired : Wired net as.rlTopology) {dest : NodeInfoRL} (hsrc : src ∈ as.nodeMap)
    (hdest : dest ∈ as.nodeMap) (hne : src.moduleId ≠ dest.moduleId) {l : Link}
    (hl : f.firstLink as.rlTopology dest.moduleId src.moduleId = some l) :
    forward net as.rlTopology r.st dest.addr src.moduleId = some l.dst := by
  obtain ⟨hlsrc, hmem, -⟩ := f.closer hl
  obtain ⟨addr, hinfo⟩ := (p.numbered as has).info src hsrc blank.address
  obtain ⟨m, hm, -, htype, hinterfaces, -⟩ := nodeInfoRL_eq_ok.mp hinfo
  obtain ⟨hnodefault, hloopback, -⟩ := readInterfaces_ok hinterfaces
  obtain ⟨k, hk⟩ := isSome_iff_exists.mp (hwired l hmem)
  rw [hlsrc] at hk
  -- an interface on the gate of the link sends on the link
  have hout : ∀ {j : Nat} {ie : InterfaceEntry}, (net.ift src.moduleId)[j]? = some ie →
      ie.nodeOutputGateId = l.gate → outLink net as.rlTopology src.moduleId j = some l := by
    intro j ie hj hgate
    obtain ⟨a, ha⟩ := exists_routerLevel (p.mem_rlTopologies has)
    rw [ha] at hmem ⊢
    rw [← hlsrc] at hj ⊢
    exact outLink_eq hmem hj hgate
  obtain ⟨entry, hentry, hgate⟩ := gate_of_getInterface hk
  have hroute : intraEntry f net as dest.moduleId src.moduleId =
      if src.routerType = .endsys ∨ some k = src.defaultRouteIE then none
      else some ⟨dest.addr, .allOnes, k⟩ := by
    simp only [intraEntry, if_neg hne, p.find?_nodeMap has hdest, p.find?_nodeMap has hsrc, hl, hk,
      map_some]
  rw [forward, p.specificRoute has hsrc hdest, hroute]
  by_cases hskip : src.routerType = .endsys ∨ some k = src.defaultRouteIE
  · have hcore : src.routerType ≠ .core := by
      intro hcore
      rcases hskip with hend | hsame
      · rw [hcore] at hend
        cases hend
      · rw [hnodefault hcore] at hsame
        cases hsame
    obtain ⟨j, hj, hdefault⟩ := p.defaultRoute has hsrc hcore
    have hlink : outLink net as.rlTopology src.moduleId j = some l := by
      rcases hskip with hend | hsame
      · obtain ⟨ie, hie, hloop⟩ := hloopback j hj
        have hendsys : IsEndSystem net src.moduleId := by
          have hreads : readRouterType m.fullPath = .ok src.routerType := htype
          rw [IsEndSystem, hm, map_some, hreads, hend]
        obtain ⟨only, -, -, honly, hon⟩ :=
          hends src.moduleId (p.mem_nodes_of_mem has hsrc) hendsys
        rw [honly l hmem hlsrc] at hout ⊢
        exact hout hie (hon ie (mem_of_getElem? hie) hloop)
      · rw [hj] at hsame
        cases hsame
        exact hout hentry hgate
    rw [if_pos hskip, hdefault, none_or, bind_some, hlink, map_some]
  · rw [if_neg hskip, some_or, bind_some, hout hentry hgate, map_some]

end Phases

/-- Forwarding by the /32 and default routes takes a packet from every node of the AS to every
other, on a shortest path. -/
theorem intra_delivers {f : PathFinder} {net : Network} {noAS : Int} {r : Configured}
    (h : initializeNetwork f net noAS = .ok r) {as : NodeInfoAS} (has : as ∈ r.ases)
    (hconnected : ∀ s ∈ as.rlTopology.nodes, ∀ t ∈ as.rlTopology.nodes,
      ∃ n, Walk as.rlTopology.Adj n s t)
    (hends : ∀ id ∈ as.rlTopology.nodes, IsEndSystem net id → OneLink net as.rlTopology id)
    (hwired : Wired net as.rlTopology) {src dest : NodeInfoRL} (hsrc : src ∈ as.nodeMap)
    (hdest : dest ∈ as.nodeMap) :
    ∃ path, Leads (forward net as.rlTopology r.st dest.addr) src.moduleId path dest.moduleId ∧
      Dist as.rlTopology.Adj path.length src.moduleId dest.moduleId := by
  obtain ⟨p⟩ := phases_of_ok h
  rw [p.ases_eq] at has
  have hids := (p.numbered as has).ids
  obtain ⟨n, hwalk⟩ := hconnected src.moduleId (p.mem_nodes_of_mem has hsrc) dest.moduleId
    (p.mem_nodes_of_mem has hdest)
  obtain ⟨d, hdist⟩ := exists_dist hwalk
  have hcloser : ∀ {n s : Nat}, s ∈ as.rlTopology.nodes →
      Dist as.rlTopology.Adj (n + 1) s dest.moduleId →
      ∃ v, forward net as.rlTopology r.st dest.addr s = some v ∧ v ∈ as.rlTopology.nodes ∧
        Dist as.rlTopology.Adj n v dest.moduleId := by
    intro n s hs hfar
    obtain ⟨node, hnode, rfl⟩ := mem_map.mp (hids ▸ hs)
    have hne : node.moduleId ≠ dest.moduleId := by
      intro heq
      rw [heq] at hfar
      exact absurd (hfar.least (.here _)) (Nat.not_succ_le_zero n)
    obtain ⟨l, hl⟩ := isSome_iff_exists.mp (f.complete hne hfar.walk)
    obtain ⟨hlsrc, hmem, -, m, hfrom, hto⟩ := f.closer hl
    rw [hlsrc] at hfrom
    obtain rfl : m = n := Nat.succ.inj (hfrom.unique hfar)
    refine ⟨l.dst, p.forward_firstLink has hends hwired hnode hdest hne hl, ?_, hto⟩
    obtain ⟨a, ha⟩ := Phases.exists_routerLevel (p.mem_rlTopologies has)
    rw [ha] at hmem ⊢
    exact (mem_links hmem).2.2
  obtain ⟨path, hleads, rfl⟩ := leads_of_closer hcloser (p.mem_nodes_of_mem has hsrc) hdist
  exact ⟨path, hleads, hdist⟩

theorem intra_delivers_threeASes :
    ∃ r, initializeNetwork breadthFirst threeASes 3 = .ok r ∧
      ∃ as ∈ r.ases, ∃ src ∈ as.nodeMap, ∃ dest ∈ as.nodeMap,
        src.moduleId = 4 ∧ dest.moduleId = 1 ∧
        ∃ path, Leads (forward threeASes as.rlTopology r.st dest.addr) src.moduleId path
            dest.moduleId ∧
          Dist as.rlTopology.Adj path.length src.moduleId dest.moduleId := by
  obtain ⟨r, hr⟩ := threeASes_configured
  have hsome : ∃ as ∈ configuredASes (initializeNetwork breadthFirst threeASes 3),
      ∃ src ∈ as.nodeMap, ∃ dest ∈ as.nodeMap, src.moduleId = 4 ∧ dest.moduleId = 1 ∧
        (∀ s ∈ as.rlTopology.nodes, ∀ t ∈ as.rlTopology.nodes,
          as.rlTopology.reaches t as.rlTopology.nodes.length s = true) ∧
        (∀ id ∈ as.rlTopology.nodes, IsEndSystem threeASes id →
          OneLink threeASes as.rlTopology id) ∧
        Wired threeASes as.rlTopology := by decide +kernel
  rw [hr] at hsome
  obtain ⟨as, has, src, hsrc, dest, hdest, hfrom, hto, hreach, hends, hwired⟩ := hsome
  have hconnected : ∀ s ∈ as.rlTopology.nodes, ∀ t ∈ as.rlTopology.nodes,
      ∃ n, Walk as.rlTopology.Adj n s t := by
    intro s hs t ht
    obtain ⟨n, -, hwalk⟩ := Topology.reaches_iff.mp (hreach s hs t ht)
    exact ⟨n, hwalk⟩
  exact ⟨r, hr, as, has, src, hsrc, dest, hdest, hfrom, hto,
    intra_delivers hr has hconnected hends hwired hsrc hdest⟩

end WormsAttack.Configurator
