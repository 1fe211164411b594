/-
  Stub ASes and transit traffic.

  `disableStubLinks` switches off links of the router-level topologies, while the paths are
  computed in `asTopology`, which has links of its own: a route may lead through a stub AS.
-/
import WormsAttack.Configurator.Inter

namespace WormsAttack.Configurator

open Foundation Inet Omnet

/-! ## Paths around stub ASes -/

def asTypeOf (m : Module) : ASType :=
  match readAS "found module that doesn't belong to Transit AS (tas) or Stub AS (sas)"
      m.fullPath with
  | .ok (asType, _) => asType
  | .error _ => .unspecified

/-- Traffic from `s` to `d` may pass `v`: it is not in a stub AS, or in that of `s` or `d`. -/
def MayPass (net : Network) (s d v : Nat) : Prop :=
  net.modules[v]?.map asTypeOf ≠ some .stub ∨ asNumber net v = asNumber net s ∨
    asNumber net v = asNumber net d

instance (net : Network) (s d v : Nat) : Decidable (MayPass net s d v) :=
  inferInstanceAs (Decidable (_ ∨ _))

def avoidingStubs (net : Network) (s d : Nat) : Topology :=
  { asTopology net with links := (asTopology net).links.filter fun l => MayPass net s d l.dst }

/-- Every route between ASes goes over the first link of a shortest path around the other
stub ASes. -/
def RespectsStubs (net : Network) (r : Configured) : Prop :=
  ∀ route ∈ r.installed, ∃ l, outLink net (asTopology net) route.src route.interface = some l ∧
    (avoidingStubs net route.src route.dst).Closer route.dst l

variable {net : Network} {f f' : PathFinder}

theorem Phases.mem_installed {noAS : Int} {r : Configured} (p : Phases f net noAS r)
    (hpos : noAS > 0) {route : InterRoute} :
    route ∈ r.installed ↔ ∃ i ∈ (asTopology net).nodes, ∃ j ∈ (asTopology net).nodes, ∃ e,
      interEntry f net p.routed.address i j = some e ∧ route = ⟨j, i, e.interface⟩ := by
  rcases p.inter with ⟨-, x, hx, hr⟩ | ⟨hnot, -⟩
  · rw [congrArg Configured.installed hr, (createInterASPaths_ok hx).2.2.1]
    simp only [List.mem_flatMap, List.mem_map, Option.mem_toList, eq_comm]
  · exact absurd hpos hnot

/-! ## The choice of paths -/

theorem setIntraASRoutes_congr {as : NodeInfoAS} (hsame : ∀ t ∈ as.rlTopology.nodes,
      f.firstLink as.rlTopology t = f'.firstLink as.rlTopology t) (st : State) :
    setIntraASRoutes f net st as = setIntraASRoutes f' net st as := by
  refine foldlM_congr (fun i hi x => ?_) st
  rw [setIntraRoutesTo, setIntraRoutesTo, hsame i hi]

theorem createInterASPaths_congr (hsame : ∀ t ∈ (asTopology net).nodes,
      f.firstLink (asTopology net) t = f'.firstLink (asTopology net) t) (st : State)
    (ases : List NodeInfoAS) :
    createInterASPaths f net st ases = createInterASPaths f' net st ases := by
  refine foldlM_congr (fun i hi x => ?_) _
  unfold interRoutesTo
  cases hdest : nodeInfoRL net x.st.address i with
  | error fault => rfl
  | ok dest =>
    have hid := (nodeInfoRL_static hdest x.st.address).1
    refine foldlM_congr (fun j _ y => ?_) _
    unfold interRoute Inter.refresh
    rw [hid, hsame i hi]

theorem initializeNetwork_congr {noAS : Int}
    (hintra : ∀ T ∈ rlTopologies net noAS, ∀ t ∈ T.nodes, f.firstLink T t = f'.firstLink T t)
    (hinter : ∀ t ∈ (asTopology net).nodes,
      f.firstLink (asTopology net) t = f'.firstLink (asTopology net) t) :
    initializeNetwork f net noAS = initializeNetwork f' net noAS := by
  unfold initializeNetwork
  split
  · rfl
  cases hextract : extractTopology net noAS with
  | error fault => rfl
  | ok x =>
    obtain ⟨st₀, ases₀⟩ := x
    obtain ⟨ids, hids, hloop⟩ := bind_eq_ok.mp hextract
    cases hconfigure : configureLoop net st₀ ases₀ with
    | error fault => simp only [bind, Except.bind, hconfigure]
    | ok y =>
      obtain ⟨st, ases⟩ := y
      have htopologies : ases.map NodeInfoAS.rlTopology = rlTopologies net noAS := by
        rw [(configureLoop_ok hconfigure).2.1, (extractLoop_ok hloop).2.1, rlTopologies, hids]
      have hroutes : ases.foldlM (setIntraASRoutes f net) st =
          ases.foldlM (setIntraASRoutes f' net) st :=
        foldlM_congr (fun as has x => setIntraASRoutes_congr
          (hintra as.rlTopology (htopologies ▸ List.mem_map_of_mem has)) x) st
      simp only [bind, Except.bind, hconfigure, hroutes, createInterASPaths_congr hinter]

/-! ## Routes and stub ASes -/

/-- The routes respect the stub ASes if and only if every link that starts a shortest path starts
one around the other stub ASes. -/
theorem transit_iff {net : Network} {noAS : Int} (hpos : noAS > 0)
    (haccepted : ∀ f, ∃ r, initializeNetwork f net noAS = .ok r) :
    (∀ f r, initializeNetwork f net noAS = .ok r → RespectsStubs net r) ↔
      ∀ s ∈ (asTopology net).nodes, ∀ d ∈ (asTopology net).nodes,
        asNumber net s ≠ asNumber net d →
        ∀ l, l.src = s → (asTopology net).Closer d l → (avoidingStubs net s d).Closer d l := by
  constructor
  · intro hrespects s hs d hd hnumber l hsrc hcloser
    -- let the computation find `l`
    obtain ⟨r, hr⟩ := haccepted (breadthFirst.choosing (asTopology net) d l hcloser)
    obtain ⟨p⟩ := phases_of_ok hr
    have hne : s ≠ d := fun heq => hnumber (by rw [heq])
    obtain ⟨dest, src, hdest, hsource, hroute⟩ := p.served hpos d hd s hs hne
    obtain ⟨e, he, -⟩ := hroute (by
      rw [asNumber_eq hdest, asNumber_eq hsource]
      exact hnumber.symm)
    obtain ⟨l', hl', hout⟩ := outLink_of_interEntry he
    have hchosen : l' = l := by
      have hchoice : (breadthFirst.choosing (asTopology net) d l hcloser).firstLink
          (asTopology net) d s = some l := if_pos ⟨rfl, rfl, hsrc.symm⟩
      exact Option.some.inj (hl'.symm.trans hchoice)
    obtain ⟨l'', hout', hshortest⟩ := hrespects _ r hr ⟨s, d, e.interface⟩
      ((p.mem_installed hpos).mpr ⟨d, hd, s, hs, e, he, rfl⟩)
    rw [hout, hchosen] at hout'
    rw [Option.some.inj hout']
    exact hshortest
  · intro hall f r hr route hroute
    obtain ⟨p⟩ := phases_of_ok hr
    obtain ⟨d, hd, s, hs, e, he, rfl⟩ := (p.mem_installed hpos).mp hroute
    obtain ⟨l, hl, hout⟩ := outLink_of_interEntry he
    obtain ⟨dest, src, -, hdest, hsource, hnumber, -⟩ := interEntry_eq_some he
    rw [asNumber_eq hdest, asNumber_eq hsource] at hnumber
    obtain ⟨hsrc, hcloser⟩ := f.closer hl
    exact ⟨l, hout, hall s hs d hd hnumber.symm l hsrc hcloser⟩

theorem threeASes_accepted (f : PathFinder) : ∃ r, initializeNetwork f threeASes 3 = .ok r := by
  have hrow : ∀ T ∈ asTopology threeASes :: rlTopologies threeASes 3, ∀ t ∈ T.nodes,
      ∀ l ∈ T.links, ∀ l' ∈ T.links, T.Closer t l → T.Closer t l' → l.src = l'.src →
      l = l' := by decide +kernel
  have hsame : ∀ T ∈ asTopology threeASes :: rlTopologies threeASes 3, ∀ t ∈ T.nodes,
      f.firstLink T t = breadthFirst.firstLink T t := by
    intro T hT t ht
    exact PathFinder.firstLink_eq (fun l l' hl hl' => hrow T hT t ht l hl.1 l' hl'.1 hl hl') f
      breadthFirst
  obtain ⟨hinter, hintra⟩ := List.forall_mem_cons.mp hsame
  rw [initializeNetwork_congr hintra hinter]
  exact threeASes_configured

theorem transit_threeASes :
    ∃ r, initializeNetwork breadthFirst threeASes 3 = .ok r ∧ RespectsStubs threeASes r := by
  obtain ⟨r, hr⟩ := threeASes_configured
  refine ⟨r, hr, (transit_iff (by decide) threeASes_accepted).mpr ?_ breadthFirst r hr⟩
  intro s hs d hd hnumber l hsrc hcloser
  have hall : ∀ s ∈ (asTopology threeASes).nodes, ∀ d ∈ (asTopology threeASes).nodes,
      asNumber threeASes s ≠ asNumber threeASes d → ∀ l ∈ (asTopology threeASes).links,
      l.src = s → (asTopology threeASes).Closer d l →
      (avoidingStubs threeASes s d).Closer d l := by decide +kernel
  exact hall s hs d hd hnumber l hcloser.1 hsrc hcloser

def installedRoutes : Except Fault Configured → List InterRoute
  | .ok r => r.installed
  | .error _ => []

/-- There is a path around the other stub ASes for each two core routers of different ASes,
but the route from `tas1` to `tas3` leads into `sas2`. -/
theorem transit_through_stub :
    ∃ r, initializeNetwork breadthFirst shortcut 5 = .ok r ∧
      (∀ s ∈ (asTopology shortcut).nodes, ∀ d ∈ (asTopology shortcut).nodes,
        asNumber shortcut s ≠ asNumber shortcut d →
        ∃ n, Walk (avoidingStubs shortcut s d).Adj n s d) ∧
      ¬ RespectsStubs shortcut r := by
  have hroute : (⟨1, 5, 1⟩ : InterRoute) ∈
      installedRoutes (initializeNetwork breadthFirst shortcut 5) := by decide +kernel
  cases hr : initializeNetwork breadthFirst shortcut 5 with
  | error fault =>
    rw [hr] at hroute
    cases hroute
  | ok r =>
    rw [hr] at hroute
    refine ⟨r, rfl, ?_, fun hrespects => ?_⟩
    · intro s hs d hd hnumber
      have hreach : ∀ s ∈ (asTopology shortcut).nodes, ∀ d ∈ (asTopology shortcut).nodes,
          asNumber shortcut s ≠ asNumber shortcut d →
          (avoidingStubs shortcut s d).reaches d 4 s = true := by decide +kernel
      obtain ⟨n, -, hwalk⟩ := Topology.reaches_iff.mp (hreach s hs d hd hnumber)
      exact ⟨n, hwalk⟩
    · obtain ⟨l, hout, hcloser⟩ := hrespects _ hroute
      have hstub : outLink shortcut (asTopology shortcut) 1 1 = some ⟨1, 0, 3, true⟩ := by
        decide +kernel
      rw [← Option.some.inj (hstub.symm.trans hout)] at hcloser
      have hnot : ¬ (avoidingStubs shortcut 1 5).Closer 5 ⟨1, 0, 3, true⟩ := by decide +kernel
      exact hnot hcloser

end WormsAttack.Configurator
