/-
  The addresses and default routes of an AS.
-/
import WormsAttack.Configurator.Handlers

namespace WormsAttack.Configurator

open Foundation Inet Omnet List NodeInfoAS

/-! ## Node information -/

variable {net : Network} {id : Nat} {address : Nat → Nat → IPAddress} {node : NodeInfoRL}
  {st st' : State}

/-- What the loop finds from interface `j` on: an interface other than loopback, and the address of
one unless there is none. -/
theorem findDefault_ok {m : Module} {word : String} :
    ∀ {ift : List InterfaceEntry} {j : Nat} {a addr : IPAddress} {ie : Option Nat},
      findDefault net address id m word j ift a = .ok (ie, addr) →
      (∀ k, ie = some k → ∃ n entry, k = j + n ∧ ift[n]? = some entry ∧ entry.isLoopback = false) ∧
      (addr = a ∨ ∃ n entry, ift[n]? = some entry ∧ entry.isLoopback = false ∧
        addr = address id (j + n)) ∧
      ∀ (address' : Nat → Nat → IPAddress) (a' : IPAddress), ∃ addr',
        findDefault net address' id m word j ift a' = .ok (ie, addr') := by
  intro ift
  induction ift with
  | nil =>
    intro j a addr ie h
    cases h
    exact ⟨fun _ hk => (nomatch hk), .inl rfl, fun _ a' => ⟨a', rfl⟩⟩
  | cons entry rest ih =>
    intro j a addr ie h
    rw [findDefault] at h
    cases hloop : entry.isLoopback with
    | true =>
      rw [hloop, if_pos rfl] at h
      obtain ⟨hinterface, haddr, hstatic⟩ := ih h
      refine ⟨fun k hk => ?_, haddr.imp_right ?_, fun address' a' => ?_⟩
      · obtain ⟨n, found, rfl, hget, hfound⟩ := hinterface k hk
        exact ⟨n + 1, found, by omega, hget, hfound⟩
      · rintro ⟨n, found, hget, hfound, rfl⟩
        exact ⟨n + 1, found, hget, hfound, by rw [Nat.add_assoc, Nat.add_comm 1 n]⟩
      · rw [findDefault, hloop, if_pos rfl]
        exact hstatic address' a'
    | false =>
      rw [hloop, if_neg Bool.false_ne_true] at h
      obtain ⟨owner, howner, h⟩ := bind_eq_ok.mp h
      split_ifs at h with hword
      · cases h
        refine ⟨fun k hk => ⟨0, entry, (Option.some.inj hk).symm, rfl, hloop⟩,
          .inr ⟨0, entry, rfl, hloop, rfl⟩, fun address' a' => ⟨address' id j, ?_⟩⟩
        rw [findDefault, hloop, if_neg Bool.false_ne_true, howner]
        exact if_pos hword
      · obtain ⟨hinterface, haddr, hstatic⟩ := ih h
        refine ⟨fun k hk => ?_, .inr ?_, fun address' a' => ?_⟩
        · obtain ⟨n, found, rfl, hget, hfound⟩ := hinterface k hk
          exact ⟨n + 1, found, by omega, hget, hfound⟩
        · rcases haddr with rfl | ⟨n, found, hget, hfound, rfl⟩
          · exact ⟨0, entry, rfl, hloop, rfl⟩
          · exact ⟨n + 1, found, hget, hfound, by rw [Nat.add_assoc, Nat.add_comm 1 n]⟩
        · obtain ⟨addr', h'⟩ := hstatic address' (address' id j)
          refine ⟨addr', ?_⟩
          rw [findDefault, hloop, if_neg Bool.false_ne_true, howner]
          exact (if_neg hword).trans h'

theorem lastAddress_cases (address : Nat → Nat → IPAddress) (id : Nat) :
    ∀ (ift : List InterfaceEntry) (j : Nat) (a : IPAddress),
      lastAddress address id j ift a = a ∨ ∃ n entry, ift[n]? = some entry ∧
        entry.isLoopback = false ∧ lastAddress address id j ift a = address id (j + n) := by
  intro ift
  induction ift with
  | nil =>
    intro j a
    exact .inl rfl
  | cons entry rest ih =>
    intro j a
    rw [lastAddress]
    rcases ih (j + 1) (if entry.isLoopback then a else address id j) with
      heq | ⟨n, found, hget, hfound, heq⟩
    · cases hloop : entry.isLoopback with
      | true =>
        rw [hloop, if_pos rfl] at heq
        exact .inl heq
      | false =>
        rw [hloop, if_neg Bool.false_ne_true] at heq
        exact .inr ⟨0, entry, rfl, hloop, heq⟩
    · refine .inr ⟨n + 1, found, hget, hfound, heq.trans ?_⟩
      rw [Nat.add_assoc, Nat.add_comm 1 n]

theorem readInterfaces_ok {m : Module} {routerType : RouterType} {ie : Option Nat}
    {addr : IPAddress} (h : readInterfaces net address id m routerType = .ok (ie, addr)) :
    (routerType = .core → ie = none) ∧
      (∀ k, ie = some k → ∃ entry, (net.ift id)[k]? = some entry ∧ entry.isLoopback = false) ∧
      (addr = ⟨0⟩ ∨ ∃ k entry, (net.ift id)[k]? = some entry ∧ entry.isLoopback = false ∧
        addr = address id k) ∧
      ∀ address', ∃ addr', readInterfaces net address' id m routerType = .ok (ie, addr') := by
  have hother : ∀ {word : String},
      findDefault net address id m word 0 (net.ift id) ⟨0⟩ = .ok (ie, addr) →
      (∀ k, ie = some k → ∃ entry, (net.ift id)[k]? = some entry ∧ entry.isLoopback = false) ∧
      (addr = ⟨0⟩ ∨ ∃ k entry, (net.ift id)[k]? = some entry ∧ entry.isLoopback = false ∧
        addr = address id k) ∧
      ∀ address', ∃ addr',
        findDefault net address' id m word 0 (net.ift id) ⟨0⟩ = .ok (ie, addr') := by
    intro word hfind
    obtain ⟨hinterface, haddr, hstatic⟩ := findDefault_ok hfind
    simp only [Nat.zero_add] at hinterface haddr
    refine ⟨fun k hk => ?_, haddr, fun address' => hstatic address' ⟨0⟩⟩
    obtain ⟨n, entry, rfl, hget, hloop⟩ := hinterface k hk
    exact ⟨entry, hget, hloop⟩
  cases routerType with
  | core =>
    cases h
    have hlast := lastAddress_cases address id (net.ift id) 0 ⟨0⟩
    simp only [Nat.zero_add] at hlast
    exact ⟨fun _ => rfl, fun _ hk => (nomatch hk), hlast, fun _ => ⟨_, rfl⟩⟩
  | gw | edge | endsys => exact ⟨fun hcore => (nomatch hcore), hother h⟩

theorem nodeInfoRL_static (h : nodeInfoRL net address id = .ok node)
    (address' : Nat → Nat → IPAddress) :
    node.moduleId = id ∧ ∃ addr, nodeInfoRL net address' id = .ok { node with addr := addr } := by
  obtain ⟨m, hm, hread, htype, hinterfaces, hid⟩ := nodeInfoRL_eq_ok.mp h
  obtain ⟨addr', hinterfaces'⟩ := (readInterfaces_ok hinterfaces).2.2.2 address'
  exact ⟨hid, addr', nodeInfoRL_eq_ok.mpr ⟨m, hm, hread, htype, hinterfaces', hid⟩⟩

theorem map_moduleId_of_mapM :
    ∀ {ids : List Nat} {nodes : List NodeInfoRL}, ids.mapM (nodeInfoRL net address) = .ok nodes →
      nodes.map NodeInfoRL.moduleId = ids ∧
        ∀ node ∈ nodes, nodeInfoRL net address node.moduleId = .ok node := by
  intro ids
  induction ids with
  | nil =>
    intro nodes h
    cases h
    simp
  | cons id ids ih =>
    intro nodes h
    rw [mapM_cons] at h
    simp only [bind_eq_ok] at h
    obtain ⟨node, hnode, rest, hrest, h⟩ := h
    cases h
    obtain ⟨hid, -⟩ := nodeInfoRL_static hnode address
    obtain ⟨hids, hall⟩ := ih hrest
    refine ⟨by rw [map_cons, hid, hids], forall_mem_cons.mpr ⟨?_, hall⟩⟩
    rw [hid]
    exact hnode

/-! ## Extraction -/

def rlTopologies (net : Network) (noAS : Int) : List Topology :=
  match extractAS net noAS with
  | .ok ids => ids.filterMap fun id => net.modules[id]?.map (routerLevel net)
  | .error _ => []

theorem length_extractAS {noAS : Int} {ids : List Nat} (h : extractAS net noAS = .ok ids)
    (hfew : ¬ noAS ≥ 65535) : ids.length < 65535 := by
  simp only [extractAS] at h
  split at h
  · split at h
    · cases h
    · cases h
      omega
  · split at h
    · split at h
      · cases h
      · cases h
        omega
    · cases h
      simp

def prefixes (netIP : UInt32) : Nat → List IPAddress
  | 0 => []
  | n + 1 => ⟨netIP⟩ :: prefixes (netIP + 65536) n

theorem length_prefixes : ∀ {n : Nat} {netIP : UInt32}, (prefixes netIP n).length = n := by
  intro n
  induction n with
  | zero => intro netIP; rfl
  | succ n ih =>
    intro netIP
    rw [prefixes, length_cons, ih]

theorem extractLoop_ok :
    ∀ {ids : List Nat} {netIP : UInt32} {st st' : State} {ases : List NodeInfoAS},
      extractLoop net ids netIP st = .ok (st', ases) →
      ases.map addr = prefixes netIP ids.length ∧
      ases.map rlTopology =
        ids.filterMap (fun id => net.modules[id]?.map (routerLevel net)) ∧
      st' = { st with additions := st.additions ++
        (prefixes netIP ids.length).map fun a => (a.addr, 65536) } := by
  intro ids
  induction ids with
  | nil =>
    intro netIP st st' ases h
    cases h
    simp [prefixes]
  | cons id ids ih =>
    intro netIP st st' ases h
    rw [extractLoop] at h
    split at h
    · cases h
    rename_i m hm
    simp only [bind_eq_ok, Prod.exists] at h
    obtain ⟨asType, asId, -, st₁, rest, hrest, h⟩ := h
    cases h
    obtain ⟨haddr, htopology, hst⟩ := ih hrest
    refine ⟨?_, ?_, ?_⟩
    · rw [map_cons, haddr]
      rfl
    · simp [hm, htopology]
    · rw [hst]
      simp [State.adds, prefixes, append_assoc]

/-! ## Assignment -/

def numbered (ip : UInt32) : List NodeInfoRL → List NodeInfoRL
  | [] => []
  | node :: rest => { node with addr := ⟨ip⟩ } :: numbered (ip + 1) rest

def NodeInfoRL.defaultRoutes (node : NodeInfoRL) : RoutingTable :=
  if node.routerType = .core then []
  else node.defaultRouteIE.toList.map (⟨⟨0⟩, ⟨0⟩, ·⟩)

structure Assigns (net : Network) (st : State) (nodes : List NodeInfoRL) (st' : State) : Prop where
  address_other : ∀ id ∉ nodes.map NodeInfoRL.moduleId, st'.address id = st.address id
  rt_other : ∀ id ∉ nodes.map NodeInfoRL.moduleId, st'.rt id = st.rt id
  defaults : ∀ node ∈ nodes, node.routerType ≠ .core → node.defaultRouteIE.isSome = true
  address : ∀ node ∈ nodes,
    (∀ node' ∈ nodes, node'.moduleId = node.moduleId → node'.addr = node.addr) →
    ∀ k, (net.ift node.moduleId)[k]?.any (!·.isLoopback) = true →
    st'.address node.moduleId k = node.addr
  rt : ∀ node ∈ nodes,
    (∀ node' ∈ nodes, node'.moduleId = node.moduleId →
      node'.defaultRoutes = node.defaultRoutes) →
    (st.rt node.moduleId = [] ∨ st.rt node.moduleId = node.defaultRoutes) →
    st'.rt node.moduleId = node.defaultRoutes

theorem assigns_nil (net : Network) (st : State) : Assigns net st [] st :=
  ⟨fun _ _ => rfl, fun _ _ => rfl, fun _ h => (nomatch h), fun _ h => (nomatch h),
    fun _ h => (nomatch h)⟩

theorem Assigns.append {st₁ : State} {nodes nodes' : List NodeInfoRL} (h : Assigns net st nodes st₁)
    (h' : Assigns net st₁ nodes' st') : Assigns net st (nodes ++ nodes') st' := by
  have hsplit : ∀ {id : Nat}, id ∉ (nodes ++ nodes').map NodeInfoRL.moduleId →
      id ∉ nodes.map NodeInfoRL.moduleId ∧ id ∉ nodes'.map NodeInfoRL.moduleId := by
    intro id hid
    rwa [map_append, mem_append, not_or] at hid
  refine ⟨?_, ?_, ?_, ?_, ?_⟩
  · intro id hid
    rw [h'.address_other id (hsplit hid).2, h.address_other id (hsplit hid).1]
  · intro id hid
    rw [h'.rt_other id (hsplit hid).2, h.rt_other id (hsplit hid).1]
  · intro node hnode
    rcases mem_append.mp hnode with hnode | hnode
    · exact h.defaults node hnode
    · exact h'.defaults node hnode
  · intro node hnode hagree k hk
    -- the later assignment decides
    by_cases hlater : node.moduleId ∈ nodes'.map NodeInfoRL.moduleId
    · obtain ⟨last, hlast, hid⟩ := mem_map.mp hlater
      have haddr := hagree last (mem_append_right nodes hlast) hid
      rw [← hid, ← haddr]
      refine h'.address last hlast (fun node' hnode' hid' => ?_) k (by rw [hid]; exact hk)
      rw [haddr]
      exact hagree node' (mem_append_right nodes hnode') (hid'.trans hid)
    · rcases mem_append.mp hnode with hnode | hnode
      · rw [h'.address_other _ hlater]
        exact h.address node hnode
          (fun node' hnode' => hagree node' (mem_append_left nodes' hnode')) k hk
      · exact absurd (mem_map_of_mem hnode) hlater
  · intro node hnode hagree hrt
    have hmiddle : st₁.rt node.moduleId = [] ∨ st₁.rt node.moduleId = node.defaultRoutes := by
      by_cases hearlier : node.moduleId ∈ nodes.map NodeInfoRL.moduleId
      · obtain ⟨first, hfirst, hid⟩ := mem_map.mp hearlier
        have hsame := hagree first (mem_append_left nodes' hfirst) hid
        rw [← hid, ← hsame] at hrt ⊢
        refine .inr (h.rt first hfirst (fun node' hnode' hid' => ?_) hrt)
        rw [hsame]
        exact hagree node' (mem_append_left nodes' hnode') (hid'.trans hid)
      · rw [h.rt_other _ hearlier]
        exact hrt
    by_cases hlater : node.moduleId ∈ nodes'.map NodeInfoRL.moduleId
    · obtain ⟨last, hlast, hid⟩ := mem_map.mp hlater
      have hsame := hagree last (mem_append_right nodes hlast) hid
      rw [← hid, ← hsame] at hmiddle ⊢
      refine h'.rt last hlast (fun node' hnode' hid' => ?_) hmiddle
      rw [hsame]
      exact hagree node' (mem_append_right nodes hnode') (hid'.trans hid)
    · rcases mem_append.mp hnode with hnode | hnode
      · rw [h'.rt_other _ hlater]
        exact h.rt node hnode
          (fun node' hnode' => hagree node' (mem_append_left nodes' hnode')) hrt
      · exact absurd (mem_map_of_mem hnode) hlater

theorem placeNode_ok {coreNode coreNode' : List NodeInfoRL}
    (h : placeNode st coreNode node = .ok (st', coreNode')) :
    st'.address = st.address ∧ st'.additions = st.additions ∧
    (∀ id ≠ node.moduleId, st'.rt id = st.rt id) ∧
    (node.routerType ≠ .core → node.defaultRouteIE.isSome = true) ∧
    (st.rt node.moduleId = [] ∨ st.rt node.moduleId = node.defaultRoutes →
      st'.rt node.moduleId = node.defaultRoutes) := by
  unfold placeNode at h
  split_ifs at h with hcore
  · cases h
    have hnone : node.defaultRoutes = [] := if_pos hcore
    refine ⟨rfl, rfl, fun _ _ => rfl, fun hne => absurd hcore hne, fun hrt => ?_⟩
    rcases hrt with hrt | hrt
    · exact hrt.trans hnone.symm
    · exact hrt
  · obtain ⟨t, ht, h⟩ := bind_eq_ok.mp h
    cases h
    have hsome := RoutingTable.isSome_of_addRoute ht
    refine ⟨rfl, rfl, fun id hne => Function.update_of_ne hne _ _, fun _ => hsome, fun hrt => ?_⟩
    obtain ⟨k, hk⟩ := Option.isSome_iff_exists.mp hsome
    have hdefault : node.defaultRoutes = [⟨⟨0⟩, ⟨0⟩, k⟩] := by
      rw [NodeInfoRL.defaultRoutes, if_neg hcore, hk]
      rfl
    rw [hdefault] at hrt ⊢
    rw [hk] at ht
    exact (Function.update_self _ _ _).trans (RoutingTable.addRoute_default hrt ht)

theorem assignNode_ok {x y : Assignment} (h : assignNode net x node = .ok y) :
    y.currentIP = x.currentIP + 1 ∧
    y.nodeMap = x.nodeMap ++ [{ node with addr := ⟨x.currentIP⟩ }] ∧
    y.st.additions = x.st.additions ++ [(x.currentIP, 1)] ∧
    Assigns net x.st [{ node with addr := ⟨x.currentIP⟩ }] y.st := by
  unfold assignNode at h
  simp only [bind_eq_ok, Prod.exists] at h
  obtain ⟨st, coreNode, hst, h⟩ := h
  cases h
  obtain ⟨haddress, hadditions, hother, hdefault, hrt⟩ := placeNode_ok hst
  refine ⟨rfl, rfl, congrArg (· ++ [(x.currentIP, 1)]) hadditions, ?_, ?_, ?_, ?_, ?_⟩
  · intro id hid
    have hne : id ≠ node.moduleId := by simpa using hid
    exact (congrFun haddress id).trans (Function.update_of_ne hne _ _)
  · intro id hid
    have hne : id ≠ node.moduleId := by simpa using hid
    exact hother id hne
  · intro n hn
    cases mem_singleton.mp hn
    exact hdefault
  · intro n hn _ k hk
    cases mem_singleton.mp hn
    change st.address node.moduleId k = _
    rw [haddress]
    simp only [State.setAddress, Function.update_self, hk, if_true]
  · intro n hn _
    cases mem_singleton.mp hn
    exact hrt

theorem assignLoop_ok :
    ∀ {nodes : List NodeInfoRL} {x y : Assignment}, nodes.foldlM (assignNode net) x = .ok y →
      y.nodeMap = x.nodeMap ++ numbered x.currentIP nodes ∧
      y.st.additions =
        x.st.additions ++ (numbered x.currentIP nodes).map (fun node => (node.addr.addr, 1)) ∧
      Assigns net x.st (numbered x.currentIP nodes) y.st := by
  intro nodes
  induction nodes with
  | nil =>
    intro x y h
    cases h
    exact ⟨by simp [numbered], by simp [numbered], assigns_nil net x.st⟩
  | cons node nodes ih =>
    intro x y h
    obtain ⟨z, hz, hrest⟩ := foldlM_cons_eq_ok.mp h
    obtain ⟨hip, hmap, hadditions, hassigns⟩ := assignNode_ok hz
    obtain ⟨hmap', hadditions', hassigns'⟩ := ih hrest
    rw [hip] at hmap' hadditions' hassigns'
    refine ⟨?_, ?_, hassigns.append hassigns'⟩
    · rw [hmap', hmap, numbered, append_assoc, singleton_append]
    · rw [hadditions', hadditions, numbered, append_assoc, singleton_append, map_cons]

structure Numbered (net : Network) (as : NodeInfoAS) : Prop where
  count : as.rlTopology.nodes.length ≤ 65535
  ids : as.nodeMap.map NodeInfoRL.moduleId = as.rlTopology.nodes
  consecutive : ∃ nodes, as.nodeMap = numbered (as.addr.addr + 1) nodes
  info : ∀ node ∈ as.nodeMap, ∀ address, ∃ addr,
    nodeInfoRL net address node.moduleId = .ok { node with addr := addr }

theorem mem_numbered : ∀ {nodes : List NodeInfoRL} {ip : UInt32},
    node ∈ numbered ip nodes → ∃ node' ∈ nodes, ∃ addr, node' = { node with addr := addr } := by
  intro nodes
  induction nodes with
  | nil =>
    intro ip h
    cases h
  | cons first nodes ih =>
    intro ip h
    rcases mem_cons.mp h with rfl | h
    · exact ⟨first, mem_cons_self, first.addr, rfl⟩
    · obtain ⟨node', hmem, hnode'⟩ := ih h
      exact ⟨node', mem_cons_of_mem _ hmem, hnode'⟩

theorem map_moduleId_numbered : ∀ {nodes : List NodeInfoRL} {ip : UInt32},
    (numbered ip nodes).map NodeInfoRL.moduleId = nodes.map NodeInfoRL.moduleId := by
  intro nodes
  induction nodes with
  | nil => intro ip; rfl
  | cons first nodes ih =>
    intro ip
    rw [numbered, map_cons, map_cons, ih]

def additionsFor (as : NodeInfoAS) : List (UInt32 × UInt32) :=
  (as.addr.addr, 1) :: as.nodeMap.map fun node => (node.addr.addr, 1)

theorem configureAS_ok {as as' : NodeInfoAS} (h : configureAS net st as = .ok (st', as')) :
    as'.addr = as.addr ∧ as'.rlTopology = as.rlTopology ∧ Numbered net as' ∧
    st'.additions = st.additions ++ additionsFor as' ∧ Assigns net st as'.nodeMap st' := by
  obtain ⟨hcount, h⟩ := unless_eq_ok.mp h
  obtain ⟨nodes, hnodes, h⟩ := bind_eq_ok.mp h
  obtain ⟨x, hx, h⟩ := bind_eq_ok.mp h
  cases h
  obtain ⟨hids, hinfo⟩ := map_moduleId_of_mapM hnodes
  obtain ⟨hmap, hadditions, hassigns⟩ := assignLoop_ok hx
  rw [nil_append] at hmap
  rw [← hmap] at hassigns hadditions
  have hmap' : x.nodeMap = numbered (as.addr.addr + 1) nodes := hmap
  refine ⟨rfl, rfl, ⟨Nat.le_of_not_lt hcount, ?_, ⟨nodes, hmap⟩, ?_⟩, ?_,
    ⟨hassigns.address_other, hassigns.rt_other, hassigns.defaults, hassigns.address, hassigns.rt⟩⟩
  · exact (congrArg _ hmap').trans (map_moduleId_numbered.trans hids)
  · intro node hnode address
    rw [hmap] at hnode
    obtain ⟨node', hmem, addr, rfl⟩ := mem_numbered hnode
    obtain ⟨-, addr', hstatic⟩ := nodeInfoRL_static (hinfo _ hmem) address
    exact ⟨addr', hstatic⟩
  · rw [hadditions]
    simp [State.adds, additionsFor]

theorem configureLoop_ok :
    ∀ {ases ases' : List NodeInfoAS} {st st' : State},
      configureLoop net st ases = .ok (st', ases') →
      ases'.map addr = ases.map addr ∧
      ases'.map rlTopology = ases.map rlTopology ∧
      (∀ as ∈ ases', Numbered net as) ∧
      st'.additions = st.additions ++ ases'.flatMap additionsFor ∧
      Assigns net st (ases'.flatMap nodeMap) st' := by
  intro ases
  induction ases with
  | nil =>
    intro ases' st st' h
    cases h
    exact ⟨rfl, rfl, by simp, by simp, assigns_nil net st⟩
  | cons as ases ih =>
    intro ases' st st' h
    rw [configureLoop] at h
    simp only [bind_eq_ok, Prod.exists] at h
    obtain ⟨st₁, as', has, st₂, rest, hrest, h⟩ := h
    cases h
    obtain ⟨haddr, htopology, hnumbered, hadditions, hassigns⟩ := configureAS_ok has
    obtain ⟨haddr', htopology', hnumbered', hadditions', hassigns'⟩ := ih hrest
    refine ⟨?_, ?_, forall_mem_cons.mpr ⟨hnumbered, hnumbered'⟩, ?_, ?_⟩
    · rw [map_cons, map_cons, haddr, haddr']
    · rw [map_cons, map_cons, htopology, htopology']
    · rw [hadditions', hadditions, flatMap_cons, append_assoc]
    · exact hassigns.append hassigns'

end WormsAttack.Configurator
