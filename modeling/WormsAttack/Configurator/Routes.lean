/-
  The routes that the two routing phases install.
-/
import WormsAttack.Configurator.Assignment

namespace WormsAttack.Configurator

open Foundation Inet Omnet

/-! ## Routes inside an AS -/

def intraEntry (f : PathFinder) (net : Network) (as : NodeInfoAS) (i j : Nat) : Option IPRoute :=
  if j = i then none
  else
    match as.nodeMap.find? (·.moduleId == i), as.nodeMap.find? (·.moduleId == j),
        f.firstLink as.rlTopology i j with
    | some dest, some src, some l =>
        let ie := getInterfaceByNodeOutputGateId (net.ift j) l.gate
        if src.routerType = .endsys ∨ ie = src.defaultRouteIE then none
        else ie.map (⟨dest.addr, .allOnes, ·⟩)
    | _, _, _ => none

def KeepsAddresses (st st' : State) : Prop :=
  st'.address = st.address ∧ st'.additions = st.additions

variable {j : Nat} {st : State} {net : Network} {as : NodeInfoAS} {f : PathFinder} {i : Nat}
  {dest : NodeInfoRL} {st' : State} {address : Nat → Nat → IPAddress} {x y : Inter}
  {ases : List NodeInfoAS}

theorem setTable_row {e : IPRoute} (n : Nat) :
    (st.setTable j (st.rt j ++ [e])).rt n = st.rt n ++ if j = n then [e] else [] := by
  unfold State.setTable
  by_cases hn : j = n
  · subst hn
    simp
  · simp [hn, Function.update_of_ne (Ne.symm hn)]

theorem find?_of_nodeOf (h : as.nodeOf i = .ok dest) :
    as.nodeMap.find? (·.moduleId == i) = some dest := by
  unfold NodeInfoAS.nodeOf at h
  split at h
  · cases h
  · rename_i node hnode
    cases h
    exact hnode

theorem setIntraRoute_ok (hdest : as.nodeMap.find? (·.moduleId == i) = some dest)
    (h : setIntraRoute net as (f.firstLink as.rlTopology i) dest st j = .ok st') :
    KeepsAddresses st st' ∧
      ∀ n, st'.rt n = st.rt n ++ if j = n then (intraEntry f net as i j).toList else [] := by
  have hid : dest.moduleId = i := by simpa using List.find?_some hdest
  unfold setIntraRoute at h
  rw [hid] at h
  split_ifs at h with hself
  · cases h
    exact ⟨⟨rfl, rfl⟩, fun n => by simp [intraEntry, hself]⟩
  · obtain ⟨src, hsrc, h⟩ := bind_eq_ok.mp h
    have hsrc' := find?_of_nodeOf hsrc
    split at h
    · rename_i hpath
      cases h
      exact ⟨⟨rfl, rfl⟩, fun n => by simp [intraEntry, hself, hdest, hsrc', hpath]⟩
    · rename_i l hpath
      split_ifs at h with htype
      · cases h
        exact ⟨⟨rfl, rfl⟩, fun n => by simp [intraEntry, hself, hdest, hsrc', hpath, htype]⟩
      · dsimp only at h
        split_ifs at h with hdefault
        · cases h
          exact ⟨⟨rfl, rfl⟩, fun n => by simp [intraEntry, hself, hdest, hsrc', hpath, hdefault]⟩
        · obtain ⟨t, ht, h⟩ := bind_eq_ok.mp h
          cases h
          obtain ⟨k, hk, rfl⟩ := RoutingTable.addRoute_eq_ok rfl ht
          refine ⟨⟨rfl, rfl⟩, fun n => ?_⟩
          have hentry : intraEntry f net as i j = some ⟨dest.addr, .allOnes, k⟩ := by
            rw [hk] at hdefault
            simp [intraEntry, hself, hdest, hsrc', hpath, htype, hk, hdefault]
          rw [setTable_row, hentry]
          rfl

theorem KeepsAddresses.trans {st st₁ st' : State} (h : KeepsAddresses st st₁)
    (h' : KeepsAddresses st₁ st') : KeepsAddresses st st' :=
  ⟨h'.1.trans h.1, h'.2.trans h.2⟩

theorem setIntraRoutesTo_ok (hnodup : as.rlTopology.nodes.Nodup)
    (h : setIntraRoutesTo f net as st i = .ok st') :
    KeepsAddresses st st' ∧ ∀ n, st'.rt n =
      st.rt n ++ if n ∈ as.rlTopology.nodes then (intraEntry f net as i n).toList else [] := by
  obtain ⟨dest, hdest, h⟩ := bind_eq_ok.mp h
  obtain ⟨hkeeps, hrows⟩ := foldlM_rows (I := KeepsAddresses st) State.rt
    (fun j n => if j = n then (intraEntry f net as i j).toList else [])
    (fun j _ x y hx hy =>
      have hround := setIntraRoute_ok (find?_of_nodeOf hdest) hy
      ⟨hx.trans hround.1, hround.2⟩)
    ⟨rfl, rfl⟩ h
  refine ⟨hkeeps, fun n => ?_⟩
  rw [hrows, flatMap_own hnodup]

theorem setIntraASRoutes_ok (hnodup : as.rlTopology.nodes.Nodup)
    (h : setIntraASRoutes f net st as = .ok st') :
    KeepsAddresses st st' ∧ ∀ n, st'.rt n = st.rt n ++
      if n ∈ as.rlTopology.nodes then as.rlTopology.nodes.filterMap (intraEntry f net as · n)
      else [] := by
  obtain ⟨hkeeps, hrows⟩ := foldlM_rows (I := KeepsAddresses st) State.rt
    (fun i n => if n ∈ as.rlTopology.nodes then (intraEntry f net as i n).toList else [])
    (fun i _ x y hx hy =>
      have hround := setIntraRoutesTo_ok hnodup hy
      ⟨hx.trans hround.1, hround.2⟩)
    ⟨rfl, rfl⟩ h
  refine ⟨hkeeps, fun n => ?_⟩
  rw [hrows]
  by_cases hn : n ∈ as.rlTopology.nodes
  · simp only [hn, if_true, List.filterMap_eq_flatMap_toList]
  · simp [hn]

/-! ## Routes between ASes -/

theorem nodup_asTopology (net : Network) : (asTopology net).nodes.Nodup := nodup_nodes

def interEntry (f : PathFinder) (net : Network) (address : Nat → Nat → IPAddress) (i j : Nat) :
    Option IPRoute :=
  if j = i then none
  else
    match nodeInfoRL net address i, nodeInfoRL net address j,
        f.firstLink (asTopology net) i j with
    | .ok dest, .ok src, some l =>
        if dest.asId = src.asId then none
        else (getInterfaceByNodeOutputGateId (net.ift j) l.gate).map
          (⟨prefixOf dest.addr, netMask, ·⟩)
    | _, _, _ => none

theorem interEntry_eq_some {e : IPRoute} (h : interEntry f net address i j = some e) :
    ∃ dest src l, nodeInfoRL net address i = .ok dest ∧ nodeInfoRL net address j = .ok src ∧
      dest.asId ≠ src.asId ∧ f.firstLink (asTopology net) i j = some l ∧
      getInterfaceByNodeOutputGateId (net.ift j) l.gate = some e.interface ∧
      e.host = prefixOf dest.addr ∧ e.netmask = netMask := by
  obtain ⟨-, h⟩ := Option.ite_none_left_eq_some.mp h
  split at h
  · rename_i dest src l hdest hsrc hl
    obtain ⟨hdiffer, h⟩ := Option.ite_none_left_eq_some.mp h
    obtain ⟨k, hk, rfl⟩ := Option.map_eq_some_iff.mp h
    exact ⟨dest, src, l, hdest, hsrc, hdiffer, hl, hk, rfl, rfl⟩
  · cases h

@[simp] theorem interEntry_self (f : PathFinder) (net : Network)
    (address : Nat → Nat → IPAddress) (i : Nat) : interEntry f net address i i = none :=
  if_pos rfl

theorem interEntry_eq_none {src : NodeInfoRL} (hdest : nodeInfoRL net address i = .ok dest)
    (hsrc : nodeInfoRL net address j = .ok src) (hsame : dest.asId = src.asId) :
    interEntry f net address i j = none := by
  by_contra hne
  obtain ⟨e, he⟩ := Option.ne_none_iff_exists'.mp hne
  obtain ⟨dest', src', -, hdest', hsrc', hdiffer, -⟩ := interEntry_eq_some he
  rw [hdest] at hdest'
  rw [hsrc] at hsrc'
  cases hdest'
  cases hsrc'
  exact hdiffer hsame

theorem interEntry_of_link {k : Nat} {src : NodeInfoRL} {l : Link} (hself : j ≠ i)
    (hdest : nodeInfoRL net address i = .ok dest) (hsrc : nodeInfoRL net address j = .ok src)
    (hdiffer : dest.asId ≠ src.asId) (hl : f.firstLink (asTopology net) i j = some l)
    (hk : getInterfaceByNodeOutputGateId (net.ift j) l.gate = some k) :
    interEntry f net address i j = some ⟨prefixOf dest.addr, netMask, k⟩ := by
  rw [interEntry, if_neg hself, hdest, hsrc, hl]
  simp only [if_neg hdiffer, hk, Option.map_some]

/-- A round that goes through reads both AS numbers, and installs a route if they differ. -/
def Served (f : PathFinder) (net : Network) (address : Nat → Nat → IPAddress) (i j : Nat) : Prop :=
  j ≠ i → ∃ dest src, nodeInfoRL net address i = .ok dest ∧ nodeInfoRL net address j = .ok src ∧
    (dest.asId ≠ src.asId →
      ∃ e, interEntry f net address i j = some e ∧ e.host.isUnspecified = false)

/-- Between the rounds: the paths that are reused are paths to the destination. -/
structure Aims (f : PathFinder) (net : Network) (st : State) (i : Nat) (x : Inter) : Prop where
  keeps : KeepsAddresses st x.st
  paths : x.asIdHistory = -1 ∨ x.paths = f.firstLink (asTopology net) i

theorem refresh_ok {dst own : Nat} (hpaths : x.asIdHistory = -1 ∨
      x.paths = f.firstLink (asTopology net) dest.moduleId)
    (h : x.refresh f net dest dst own = .ok y) :
    y.st = x.st ∧ y.installed = x.installed ∧
      y.paths = f.firstLink (asTopology net) dest.moduleId := by
  unfold Inter.refresh at h
  split at h
  · obtain ⟨ases, -, h⟩ := bind_eq_ok.mp h
    cases h
    exact ⟨rfl, rfl, rfl⟩
  · rename_i hhistory
    cases h
    refine ⟨rfl, rfl, hpaths.resolve_left fun hfirst => hhistory ?_⟩
    rw [hfirst]
    omega

theorem interRoute_eq_ok :
    interRoute f net dest x j = .ok y ↔
      (j = dest.moduleId ∧ y = x) ∨ (j ≠ dest.moduleId ∧ ∃ src dst own,
        nodeInfoRL net x.st.address j = .ok src ∧ dest.asId = some dst ∧ src.asId = some own ∧
        ((dst = own ∧ y = x) ∨ (dst ≠ own ∧ ∃ z l t, x.refresh f net dest dst own = .ok z ∧
          z.paths j = some l ∧ (z.st.rt j).addRoute (prefixOf dest.addr) netMask
            (getInterfaceByNodeOutputGateId (net.ift j) l.gate) = .ok t ∧ y = { z with
            st := z.st.setTable j t
            ases := if x.asIdHistory ≠ own then enableStubLinks z.ases else z.ases
            asIdHistory := own
            installed := z.installed ++ (getInterfaceByNodeOutputGateId (net.ift j)
              l.gate).toList.map (⟨j, dest.moduleId, ·⟩) }))) := by
  unfold interRoute
  constructor
  · intro h
    split_ifs at h with hself
    · cases h
      exact .inl ⟨hself, rfl⟩
    · obtain ⟨src, hsrc, h⟩ := bind_eq_ok.mp h
      split at h
      · rename_i dst own hdst hown
        refine .inr ⟨hself, src, dst, own, hsrc, hdst, hown, ?_⟩
        split at h
        · rename_i hsame
          cases h
          exact .inl ⟨hsame, rfl⟩
        · rename_i hdiffer
          obtain ⟨z, hz, h⟩ := bind_eq_ok.mp h
          split at h
          · cases h
          rename_i l hl
          obtain ⟨t, ht, h⟩ := bind_eq_ok.mp h
          cases h
          exact .inr ⟨hdiffer, z, l, t, hz, hl, ht, rfl⟩
      · cases h
  · rintro (⟨hself, rfl⟩ | ⟨hself, src, dst, own, hsrc, hdst, hown, ⟨hsame, rfl⟩ | ⟨hdiffer, z, l,
      t, hz, hl, ht, rfl⟩⟩)
    · rw [if_pos hself]
    · rw [if_neg hself, hsrc, hdst]
      simp only [bind, Except.bind, hown, if_pos hsame]
    · rw [if_neg hself, hsrc, hdst]
      simp only [bind, Except.bind, hown, if_neg hdiffer, hz, hl, ht]

theorem interRoute_ok (hdest : nodeInfoRL net st.address i = .ok dest) (hx : Aims f net st i x)
    (h : interRoute f net dest x j = .ok y) :
    Aims f net st i y ∧
      (∀ n, y.st.rt n =
        x.st.rt n ++ if j = n then (interEntry f net st.address i j).toList else []) ∧
      y.installed = x.installed ++
        (interEntry f net st.address i j).toList.map (fun e => ⟨j, i, e.interface⟩) ∧
      Served f net st.address i j := by
  have hid := (nodeInfoRL_static hdest st.address).1
  have haddress := hx.keeps.1
  rw [interRoute_eq_ok, hid, haddress] at h
  rcases h with ⟨rfl, rfl⟩ | ⟨hself, src, dst, own, hsrc, hdst, hown, ⟨hsame, rfl⟩ | ⟨hdiffer, z,
    l, t, hz, hl, ht, rfl⟩⟩
  · exact ⟨hx, fun n => by simp, by simp, fun hne => absurd rfl hne⟩
  · have hid' : dest.asId = src.asId := by rw [hdst, hown, hsame]
    have hnone := interEntry_eq_none (f := f) hdest hsrc hid'
    exact ⟨hx, fun n => by simp [hnone], by simp [hnone],
      fun _ => ⟨dest, src, hdest, hsrc, fun hne => absurd hid' hne⟩⟩
  · obtain ⟨hst, hinstalled, hpaths⟩ := refresh_ok (by rw [hid]; exact hx.paths) hz
    have hhost := RoutingTable.host_of_addRoute rfl ht
    obtain ⟨k, hk, rfl⟩ := RoutingTable.addRoute_eq_ok rfl ht
    rw [hid] at hpaths
    rw [hpaths] at hl
    have hne : dest.asId ≠ src.asId := by
      rw [hdst, hown]
      exact fun heq => hdiffer (Option.some.inj heq)
    have hentry := interEntry_of_link hself hdest hsrc hne hl hk
    refine ⟨⟨⟨?_, ?_⟩, .inr hpaths⟩, fun n => ?_, ?_,
      fun _ => ⟨dest, src, hdest, hsrc, fun _ => ⟨_, hentry, hhost⟩⟩⟩
    · change z.st.address = st.address
      rw [hst, haddress]
    · change z.st.additions = st.additions
      rw [hst, hx.keeps.2]
    · rw [setTable_row, hentry, hst]
      rfl
    · rw [hentry, hinstalled, hk]
      rfl

theorem interRoutesTo_ok (hx : KeepsAddresses st x.st) (h : interRoutesTo f net x i = .ok y) :
    KeepsAddresses st y.st ∧
      (∀ n, y.st.rt n = x.st.rt n ++
        if n ∈ (asTopology net).nodes then (interEntry f net st.address i n).toList else []) ∧
      y.installed = x.installed ++ ((asTopology net).nodes.flatMap fun j =>
        (interEntry f net st.address i j).toList.map fun e => ⟨j, i, e.interface⟩) ∧
      ∀ j ∈ (asTopology net).nodes, Served f net st.address i j := by
  unfold interRoutesTo at h
  rw [hx.1] at h
  obtain ⟨dest, hdest, h⟩ := bind_eq_ok.mp h
  have haims : Aims f net st i { x with asIdHistory := -1 } := ⟨hx, .inl rfl⟩
  obtain ⟨hy, hrows, hinstalled, hserved⟩ := foldlM_rounds (I := Aims f net st i)
    (fun z : Inter => z.st.rt)
    (fun j n => if j = n then (interEntry f net st.address i j).toList else []) Inter.installed
    (fun j => (interEntry f net st.address i j).toList.map fun e => ⟨j, i, e.interface⟩)
    (fun j _ a b ha hb => interRoute_ok hdest ha hb) haims h
  refine ⟨hy.keeps, fun n => ?_, hinstalled, hserved⟩
  rw [hrows, flatMap_own (nodup_asTopology net)]

theorem createInterASPaths_ok (h : createInterASPaths f net st ases = .ok x) :
    KeepsAddresses st x.st ∧
      (∀ n, x.st.rt n = st.rt n ++
        if n ∈ (asTopology net).nodes then
          (asTopology net).nodes.filterMap (interEntry f net st.address · n)
        else []) ∧
      x.installed = ((asTopology net).nodes.flatMap fun i =>
        (asTopology net).nodes.flatMap fun j =>
          (interEntry f net st.address i j).toList.map fun e => ⟨j, i, e.interface⟩) ∧
      ∀ i ∈ (asTopology net).nodes, ∀ j ∈ (asTopology net).nodes,
        Served f net st.address i j := by
  obtain ⟨hkeeps, hrows, hinstalled, hserved⟩ := foldlM_rounds
    (I := fun z : Inter => KeepsAddresses st z.st) (fun z : Inter => z.st.rt)
    (fun i n =>
      if n ∈ (asTopology net).nodes then (interEntry f net st.address i n).toList else [])
    Inter.installed
    (fun i => (asTopology net).nodes.flatMap fun j =>
      (interEntry f net st.address i j).toList.map fun e => ⟨j, i, e.interface⟩)
    (fun i _ a b ha hb => interRoutesTo_ok ha hb) ⟨rfl, rfl⟩ h
  refine ⟨hkeeps, fun n => ?_, hinstalled, hserved⟩
  rw [hrows]
  by_cases hn : n ∈ (asTopology net).nodes
  · simp only [hn, if_true, List.filterMap_eq_flatMap_toList]
  · simp [hn]

/-! ## Stub links -/

def AllEnabled (ases : List NodeInfoAS) : Prop :=
  ∀ as ∈ ases, ∀ l ∈ as.rlTopology.links, l.enabled = true

theorem setInLinks_true {T : Topology} (hT : ∀ l ∈ T.links, l.enabled = true) (nodes : List Nat) :
    setInLinks T nodes true = T ∧ setInLinks (setInLinks T nodes false) nodes true = T := by
  obtain ⟨ids, links⟩ := T
  have hon : ∀ l ∈ links, (if l.dst ∈ nodes then { l with enabled := true } else l) = l := by
    intro l hl
    split
    · obtain ⟨src, gate, dst, enabled⟩ := l
      rw [show enabled = true from hT _ hl]
    · rfl
  have hmap : links.map (fun l => if l.dst ∈ nodes then { l with enabled := true } else l) =
      links :=
    (List.map_congr_left hon).trans (List.map_id links)
  refine ⟨congrArg (Topology.mk ids) hmap, congrArg (Topology.mk ids) ?_⟩
  unfold setInLinks
  rw [List.map_map]
  refine (List.map_congr_left fun l _ => ?_).trans hmap
  rw [Function.comp_apply]
  by_cases hdst : l.dst ∈ nodes <;> simp only [hdst, if_true, if_false]

theorem enable_disableStubLinks {ases' : List NodeInfoAS} (hon : AllEnabled ases) {dst src : Nat}
    (h : disableStubLinks ases dst src = .ok ases') : enableStubLinks ases' = ases := by
  obtain ⟨-, h⟩ := unless_eq_ok.mp h
  cases h
  rw [enableStubLinks, List.map_map]
  refine (List.map_congr_left fun as has => ?_).trans (List.map_id ases)
  obtain ⟨hset, hreset⟩ := setInLinks_true (hon as has) (as.coreNode.map NodeInfoRL.moduleId)
  rw [Function.comp_apply]
  by_cases htransit : as.asType = .transit
  · simp only [htransit, or_true, if_true, id_eq]
  have honly : ∀ b, (as.setCoreLinks b).asType ≠ .transit := fun _ => htransit
  by_cases hends : as.id = some dst ∨ as.id = some src ∨ as.asType = .transit
  · rw [if_pos hends, if_neg htransit]
    exact congrArg (fun T => { as with rlTopology := T }) hset
  · rw [if_neg hends, if_neg (honly false)]
    exact congrArg (fun T => { as with rlTopology := T }) hreset

theorem ases_interRoute (hon : AllEnabled x.ases) (h : interRoute f net dest x j = .ok y) :
    y.ases = x.ases := by
  rcases interRoute_eq_ok.mp h with ⟨-, rfl⟩ | ⟨-, _, _, _, -, -, -, ⟨-, rfl⟩ | ⟨-, z, _, _, hz,
    -, -, rfl⟩⟩
  · rfl
  · rfl
  unfold Inter.refresh at hz
  split_ifs at hz with hhistory
  · obtain ⟨ases, hases, hz⟩ := bind_eq_ok.mp hz
    cases hz
    rw [if_pos hhistory]
    exact enable_disableStubLinks hon hases
  · cases hz
    rw [if_neg hhistory]

theorem ases_createInterASPaths (hon : AllEnabled ases)
    (h : createInterASPaths f net st ases = .ok x) : x.ases = ases := by
  refine foldlM_invariant (I := fun z : Inter => z.ases = ases) (fun i _ z z' hz hz' => ?_) rfl h
  obtain ⟨dest, -, hz'⟩ := bind_eq_ok.mp hz'
  refine foldlM_invariant (I := fun z : Inter => z.ases = ases) (fun j _ y y' hy hy' => ?_) ?_ hz'
  · rw [ases_interRoute (by rw [hy]; exact hon) hy', hy]
  · exact hz

end WormsAttack.Configurator
