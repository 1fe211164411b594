/-
  Core routers that do not reach each other.
-/
import WormsAttack.Configurator.Inter

namespace WormsAttack.Configurator

open Foundation Inet Omnet List

def Reaches (net : Network) (s d : Nat) : Prop := ∃ n, Walk (asTopology net).Adj n s d

def Connected (net : Network) : Prop :=
  ∀ s ∈ (asTopology net).nodes, ∀ d ∈ (asTopology net).nodes,
    asNumber net s ≠ asNumber net d → Reaches net s d

def Inter.start (st : State) (ases : List NodeInfoAS) : Inter :=
  { st := st, ases := ases, paths := fun _ => none, asIdHistory := 0, installed := [] }

section Rounds

variable (f : PathFinder) (net : Network) (st : State) (ases : List NodeInfoAS)

/-- The loops get to the destination `i` and the source `j`; then the variables are `x`. -/
def Round (i j : Nat) (dest : NodeInfoRL) (x : Inter) : Prop :=
  ∃ before after x₀ before' after',
    (asTopology net).nodes = before ++ i :: after ∧
    before.foldlM (interRoutesTo f net) (.start st ases) = .ok x₀ ∧
    nodeInfoRL net x₀.st.address i = .ok dest ∧
    (asTopology net).nodes = before' ++ j :: after' ∧
    before'.foldlM (interRoute f net dest) { x₀ with asIdHistory := -1 } = .ok x

/-- The round calls `getPath(0)`; then the variables are `y`. -/
def Asks (i j : Nat) (y : Inter) : Prop :=
  ∃ dest x src dst own, Round f net st ases i j dest x ∧ j ≠ dest.moduleId ∧
    nodeInfoRL net x.st.address j = .ok src ∧ dest.asId = some dst ∧ src.asId = some own ∧
    dst ≠ own ∧ x.refresh f net dest dst own = .ok y

/-- Each call of `getPath(0)` finds a path, and no round leaves a route to a core router that
is not reached. -/
structure Safe : Prop where
  paths : ∀ i j y, Asks f net st ases i j y → (y.paths j).isSome = true
  routes : ∀ i j dest x y, Round f net st ases i j dest x → interRoute f net dest x j = .ok y →
    ∀ route ∈ y.installed, Reaches net route.src route.dst

end Rounds

/-! ## What holds in each round -/

variable {net : Network} {f : PathFinder} {dst : Nat} {x : Inter} {dest : NodeInfoRL}

theorem reaches_of_interEntry {address : Nat → Nat → IPAddress} {i j : Nat} {e : IPRoute}
    (h : interEntry f net address i j = some e) : Reaches net j i := by
  obtain ⟨-, -, l, -, -, -, hl, -⟩ := interEntry_eq_some h
  obtain ⟨rfl, -, -, n, hfar, -⟩ := f.closer hl
  exact ⟨n + 1, hfar.walk⟩

theorem ids_disableStubLinks {ases ases' : List NodeInfoAS} {src : Nat}
    (h : disableStubLinks ases dst src = .ok ases') :
    ases'.map NodeInfoAS.id = ases.map NodeInfoAS.id := by
  obtain ⟨-, h⟩ := unless_eq_ok.mp h
  cases h
  rw [map_map]
  refine map_congr_left fun as _ => ?_
  rw [Function.comp_apply]
  split <;> rfl

theorem ids_enableStubLinks (ases : List NodeInfoAS) :
    (enableStubLinks ases).map NodeInfoAS.id = ases.map NodeInfoAS.id := by
  rw [enableStubLinks, map_map]
  refine map_congr_left fun as _ => ?_
  rw [Function.comp_apply]
  split <;> rfl

theorem ids_refresh {own : Nat} {y : Inter} (h : x.refresh f net dest dst own = .ok y) :
    y.ases.map NodeInfoAS.id = x.ases.map NodeInfoAS.id := by
  unfold Inter.refresh at h
  split at h
  · obtain ⟨ases, hases, h⟩ := bind_eq_ok.mp h
    cases h
    exact ids_disableStubLinks hases
  · cases h
    rfl

theorem ids_interRoute {y : Inter} {j : Nat} (h : interRoute f net dest x j = .ok y) :
    y.ases.map NodeInfoAS.id = x.ases.map NodeInfoAS.id := by
  rcases interRoute_eq_ok.mp h with ⟨-, rfl⟩ | ⟨-, _, _, _, -, -, -, ⟨-, rfl⟩ | ⟨-, z, _, _, hz,
    -, -, rfl⟩⟩
  · rfl
  · rfl
  refine Eq.trans ?_ (ids_refresh hz)
  split
  · exact ids_enableStubLinks z.ases
  · rfl

structure Sound (net : Network) (st : State) (ases : List NodeInfoAS) (x : Inter) : Prop where
  keeps : KeepsAddresses st x.st
  ids : x.ases.map NodeInfoAS.id = ases.map NodeInfoAS.id
  routes : ∀ route ∈ x.installed, Reaches net route.src route.dst

section Sound

variable {f : PathFinder} {net : Network} {st : State} {ases : List NodeInfoAS} {i j : Nat}
  {dest : NodeInfoRL} {x y : Inter}

theorem sound_interRoute (hdest : nodeInfoRL net st.address i = .ok dest)
    (haims : Aims f net st i x) (hx : Sound net st ases x)
    (h : interRoute f net dest x j = .ok y) : Aims f net st i y ∧ Sound net st ases y := by
  obtain ⟨hy, -, hinstalled, -⟩ := interRoute_ok hdest haims h
  refine ⟨hy, hy.keeps, (ids_interRoute h).trans hx.ids, fun route hroute => ?_⟩
  rw [hinstalled, mem_append] at hroute
  rcases hroute with hold | hnew
  · exact hx.routes route hold
  · obtain ⟨e, he, rfl⟩ := mem_map.mp hnew
    exact reaches_of_interEntry (Option.mem_toList.mp he)

theorem sound_inner (hdest : nodeInfoRL net st.address i = .ok dest) (hx : Sound net st ases x)
    {sources : List Nat}
    (h : sources.foldlM (interRoute f net dest) { x with asIdHistory := -1 } = .ok y) :
    Aims f net st i y ∧ Sound net st ases y := by
  refine foldlM_invariant (I := fun z => Aims f net st i z ∧ Sound net st ases z)
    (fun j _ z z' hz hz' => ?_) ?_ h
  · exact sound_interRoute hdest hz.1 hz.2 hz'
  · exact ⟨⟨hx.keeps, .inl rfl⟩, hx.keeps, hx.ids, hx.routes⟩

theorem sound_outer {destinations : List Nat}
    (h : destinations.foldlM (interRoutesTo f net) (.start st ases) = .ok x) :
    Sound net st ases x := by
  refine foldlM_invariant (I := Sound net st ases) (fun i _ z z' hz hz' => ?_)
    ⟨⟨rfl, rfl⟩, rfl, fun _ hroute => absurd hroute not_mem_nil⟩ h
  obtain ⟨dest, hdest, hz'⟩ := bind_eq_ok.mp hz'
  rw [hz.keeps.1] at hdest
  exact (sound_inner hdest hz hz').2

theorem Round.sound (h : Round f net st ases i j dest x) :
    nodeInfoRL net st.address i = .ok dest ∧ i ∈ (asTopology net).nodes ∧
      j ∈ (asTopology net).nodes ∧ Aims f net st i x ∧ Sound net st ases x := by
  obtain ⟨before, after, x₀, before', after', hi, houter, hdest, hj, hinner⟩ := h
  have hx₀ := sound_outer houter
  rw [hx₀.keeps.1] at hdest
  refine ⟨hdest, ?_, ?_, sound_inner hdest hx₀ hinner⟩
  · rw [hi]
    exact mem_append_right _ mem_cons_self
  · rw [hj]
    exact mem_append_right _ mem_cons_self

theorem Asks.isSome_iff (h : Asks f net st ases i j y) :
    (y.paths j).isSome = true ↔ Reaches net j i := by
  obtain ⟨dest, x, src, dst, own, hround, hself, -, -, -, -, hrefresh⟩ := h
  obtain ⟨hdest, -, -, haims, -⟩ := hround.sound
  have hid := (nodeInfoRL_static hdest st.address).1
  obtain ⟨-, -, hpaths⟩ := refresh_ok (by rw [hid]; exact haims.paths) hrefresh
  rw [hid] at hself hpaths
  rw [hpaths]
  exact f.isSome_iff hself

theorem Asks.asNumber_ne (h : Asks f net st ases i j y) :
    i ∈ (asTopology net).nodes ∧ j ∈ (asTopology net).nodes ∧
      asNumber net j ≠ asNumber net i := by
  obtain ⟨dest, x, src, dst, own, hround, -, hsrc, hdst, hown, hdiffer, -⟩ := h
  obtain ⟨hdest, hi, hj, -, -⟩ := hround.sound
  refine ⟨hi, hj, ?_⟩
  rw [← asNumber_eq hsrc, ← asNumber_eq hdest, hown, hdst]
  exact fun heq => hdiffer (Option.some.inj heq).symm

theorem safe_iff_asks :
    Safe f net st ases ↔ ∀ i j y, Asks f net st ases i j y → Reaches net j i := by
  constructor
  · intro h i j y hasks
    exact hasks.isSome_iff.mp (h.paths i j y hasks)
  · intro h
    refine ⟨fun i j y hasks => hasks.isSome_iff.mpr (h i j y hasks), ?_⟩
    intro i j dest x y hround hy
    obtain ⟨hdest, -, -, haims, hx⟩ := hround.sound
    exact (sound_interRoute hdest haims hx hy).2.routes

end Sound

/-! ## Networks in which nothing else goes wrong -/

/-- The ASes and the core routers have AS numbers, the core routers have addresses, and each
link between core routers has an interface. -/
structure Legible (net : Network) (address : Nat → Nat → IPAddress) (ases : List NodeInfoAS) :
    Prop where
  numbered : ∀ as ∈ ases, as.id ≠ none
  read : ∀ c ∈ (asTopology net).nodes, ∃ node own, nodeInfoRL net address c = .ok node ∧
    node.asId = some own ∧ (prefixOf node.addr).isUnspecified = false
  wired : ∀ l ∈ (asTopology net).links,
    (getInterfaceByNodeOutputGateId (net.ift l.src) l.gate).isSome = true

theorem refresh_progress {own : Nat} (h : ∀ id ∈ x.ases.map NodeInfoAS.id, id ≠ none) :
    ∃ y, x.refresh f net dest dst own = .ok y := by
  have hnumbered : ¬ x.ases.any (·.id.isNone) = true := by
    intro hany
    obtain ⟨as, has, hnone⟩ := any_eq_true.mp hany
    exact h as.id (mem_map_of_mem has) (Option.isNone_iff_eq_none.mp hnone)
  unfold Inter.refresh
  split
  · exact ⟨_, bind_eq_ok.mpr ⟨_, if_neg hnumbered, rfl⟩⟩
  · exact ⟨x, rfl⟩

section Progress

variable {f : PathFinder} {net : Network} {st : State} {ases : List NodeInfoAS}
  (hlegible : Legible net st.address ases) (hsafe : Safe f net st ases)

include hlegible hsafe

theorem round_progress {i j : Nat} {dest : NodeInfoRL} {x : Inter}
    (h : Round f net st ases i j dest x) : ∃ y, interRoute f net dest x j = .ok y := by
  obtain ⟨hdest, hi, hj, haims, hx⟩ := h.sound
  have hid := (nodeInfoRL_static hdest st.address).1
  obtain ⟨node, dst, hnode, hdst, hhost⟩ := hlegible.read i hi
  obtain rfl := Except.ok.inj (hdest.symm.trans hnode)
  obtain ⟨src, own, hsrc, hown, -⟩ := hlegible.read j hj
  rw [← haims.keeps.1] at hsrc
  by_cases hself : j = dest.moduleId
  · exact ⟨x, interRoute_eq_ok.mpr (.inl ⟨hself, rfl⟩)⟩
  by_cases hsame : dst = own
  · exact ⟨x, interRoute_eq_ok.mpr
      (.inr ⟨hself, src, dst, own, hsrc, hdst, hown, .inl ⟨hsame, rfl⟩⟩)⟩
  have hnumbered : ∀ id ∈ x.ases.map NodeInfoAS.id, id ≠ none := by
    rw [hx.ids]
    intro id hmem
    obtain ⟨as, has, rfl⟩ := mem_map.mp hmem
    exact hlegible.numbered as has
  obtain ⟨y, hy⟩ : ∃ y, x.refresh f net dest dst own = .ok y := refresh_progress hnumbered
  have hasks : Asks f net st ases i j y :=
    ⟨dest, x, src, dst, own, h, hself, hsrc, hdst, hown, hsame, hy⟩
  obtain ⟨l, hl⟩ := Option.isSome_iff_exists.mp (hsafe.paths i j y hasks)
  obtain ⟨-, -, hpaths⟩ := refresh_ok (by rw [hid]; exact haims.paths) hy
  rw [hpaths] at hl
  obtain ⟨hsource, hmem, -⟩ := f.closer hl
  obtain ⟨k, hk⟩ := Option.isSome_iff_exists.mp (hlegible.wired l hmem)
  rw [hsource] at hk
  have hadd : (y.st.rt j).addRoute (prefixOf dest.addr) netMask
      (getInterfaceByNodeOutputGateId (net.ift j) l.gate) =
        .ok (y.st.rt j ++ [⟨prefixOf dest.addr, netMask, k⟩]) := by
    have hmask : netMask.isUnspecified = false := by decide
    rw [hk]
    simp [RoutingTable.addRoute, hhost, hmask]
  rw [← hpaths] at hl
  exact ⟨_, interRoute_eq_ok.mpr (.inr ⟨hself, src, dst, own, hsrc, hdst, hown,
    .inr ⟨hsame, y, l, _, hy, hl, hadd, rfl⟩⟩)⟩

theorem createInterASPaths_progress : ∃ x, createInterASPaths f net st ases = .ok x := by
  refine foldlM_progress fun before i after x₀ hi houter => ?_
  have hx₀ := sound_outer houter
  have hmem : i ∈ (asTopology net).nodes := by
    rw [hi]
    exact mem_append_right _ mem_cons_self
  obtain ⟨dest, -, hdest, -⟩ := hlegible.read i hmem
  rw [← hx₀.keeps.1] at hdest
  obtain ⟨y, hy⟩ : ∃ y, (asTopology net).nodes.foldlM (interRoute f net dest)
      { x₀ with asIdHistory := -1 } = .ok y := by
    refine foldlM_progress fun before' j after' x hj hinner => ?_
    exact round_progress hlegible hsafe
      ⟨before, after, x₀, before', after', hi, houter, hdest, hj, hinner⟩
  exact ⟨y, bind_eq_ok.mpr ⟨dest, hdest, hy⟩⟩

theorem connected_of_safe : Connected net := by
  obtain ⟨x, hx⟩ := createInterASPaths_progress hlegible hsafe
  intro s hs d hd hdiffer
  have hne : s ≠ d := fun heq => hdiffer (congrArg (asNumber net) heq)
  obtain ⟨dest, src, hdest, hsrc, hroute⟩ := (createInterASPaths_ok hx).2.2.2 d hd s hs hne
  have hnumber : dest.asId ≠ src.asId := by
    rw [asNumber_eq hdest, asNumber_eq hsrc]
    exact hdiffer.symm
  obtain ⟨e, he, -⟩ := hroute hnumber
  exact reaches_of_interEntry he

end Progress

/-- Each call of `getPath(0)` finds a path, and no route leads to a core router that is not
reached, if and only if each source reaches its destination. -/
theorem safe_iff (f : PathFinder) (net : Network) (st : State) (ases : List NodeInfoAS) :
    (Safe f net st ases ↔ ∀ i j y, Asks f net st ases i j y → Reaches net j i) ∧
    (Legible net st.address ases → (Safe f net st ases ↔ Connected net)) := by
  refine ⟨safe_iff_asks, fun hlegible => ⟨connected_of_safe hlegible, fun hconnected => ?_⟩⟩
  refine safe_iff_asks.mpr fun i j y hasks => ?_
  obtain ⟨hi, hj, hdiffer⟩ := hasks.asNumber_ne
  exact hconnected j hj i hi hdiffer

def located : State := { blank with address := fun id _ => ⟨65536 * .ofNat id⟩ }

theorem safe_threeASes : Safe breadthFirst threeASes located [] := by
  have hlegible : Legible threeASes located.address [] := by
    refine ⟨fun as has => absurd has not_mem_nil, ?_, by decide +kernel⟩
    have hnodes : (asTopology threeASes).nodes = [1, 6, 8] := by decide +kernel
    rw [hnodes]
    intro c hc
    simp only [mem_cons, not_mem_nil, or_false] at hc
    rcases hc with rfl | rfl | rfl <;> exact ⟨_, _, rfl, rfl, rfl⟩
  have hreach : ∀ s ∈ (asTopology threeASes).nodes, ∀ d ∈ (asTopology threeASes).nodes,
      (asTopology threeASes).reaches d 2 s = true := by decide +kernel
  refine ((safe_iff breadthFirst threeASes located []).2 hlegible).mpr fun s hs d hd _ => ?_
  obtain ⟨n, -, hwalk⟩ := Topology.reaches_iff.mp (hreach s hs d hd)
  exact ⟨n, hwalk⟩

theorem islands_unsafe :
    (∃ y, Asks breadthFirst islands blank [] 1 3 y ∧ y.paths 3 = none) ∧
      initializeNetwork breadthFirst islands 2 = .error .nullPointer := by
  refine ⟨⟨_, ⟨_, _, _, 1, 2, ⟨[], [3], .start blank [], [1], [], ?_, rfl, rfl, ?_, rfl⟩, ?_, rfl,
    rfl, rfl, ?_, rfl⟩, ?_⟩, ?_⟩
  · decide +kernel
  · decide +kernel
  · decide
  · decide
  · decide +kernel
  · rfl

end WormsAttack.Configurator
