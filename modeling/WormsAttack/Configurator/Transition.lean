/-
  The phases of a configuration.

  The theorems about configured networks start from `phases_of_ok` and never unfold the
  initialization.
-/
import WormsAttack.Configurator.Routes

namespace WormsAttack.Configurator

open Foundation Inet Omnet

structure Phases (f : PathFinder) (net : Network) (noAS : Int) (r : Configured) where
  ids : List Nat
  ases : List NodeInfoAS
  assigned : State
  routed : State
  few : ¬ noAS ≥ 65535
  extracted : extractAS net noAS = .ok ids
  addrs : ases.map NodeInfoAS.addr = prefixes 65536 ids.length
  topologies : ases.map NodeInfoAS.rlTopology = rlTopologies net noAS
  numbered : ∀ as ∈ ases, Numbered net as
  additions : assigned.additions =
    (prefixes 65536 ids.length).map (fun a => (a.addr, 65536)) ++ ases.flatMap additionsFor
  assigns : Assigns net blank (ases.flatMap NodeInfoAS.nodeMap) assigned
  intra : ases.foldlM (setIntraASRoutes f net) assigned = .ok routed
  inter : (noAS > 0 ∧ ∃ x, createInterASPaths f net routed ases = .ok x ∧
      r = { st := x.st, ases := x.ases, installed := x.installed }) ∨
    (¬ noAS > 0 ∧ r = { st := routed, ases := ases, installed := [] })

theorem phases_of_ok {f : PathFinder} {net : Network} {noAS : Int} {r : Configured}
    (h : initializeNetwork f net noAS = .ok r) : Nonempty (Phases f net noAS r) := by
  obtain ⟨hfew, h⟩ := unless_eq_ok.mp h
  simp only [bind_eq_ok, Prod.exists] at h
  obtain ⟨st₀, ases₀, hextract, assigned, ases, hconfigure, routed, hintra, h⟩ := h
  obtain ⟨ids, hids, hloop⟩ := bind_eq_ok.mp hextract
  obtain ⟨haddr, htopology, hst₀⟩ := extractLoop_ok hloop
  obtain ⟨haddr', htopology', hnumbered, hadditions, hassigns⟩ := configureLoop_ok hconfigure
  refine ⟨⟨ids, ases, assigned, routed, hfew, hids, haddr'.trans haddr, ?_, hnumbered, ?_, ?_,
    hintra, ?_⟩⟩
  · rw [htopology', htopology, rlTopologies, hids]
  · rw [hadditions, hst₀]
    rfl
  · rw [hst₀] at hassigns
    exact ⟨hassigns.address_other, hassigns.rt_other, hassigns.defaults, hassigns.address,
      hassigns.rt⟩
  · split_ifs at h with hpos
    · obtain ⟨x, hx, h⟩ := bind_eq_ok.mp h
      cases h
      exact .inl ⟨hpos, x, hx, rfl⟩
    · cases h
      exact .inr ⟨hpos, rfl⟩

namespace Phases

variable {f : PathFinder} {net : Network} {noAS : Int} {r : Configured}

theorem exists_routerLevel {T : Topology} (hT : T ∈ rlTopologies net noAS) :
    ∃ m, T = routerLevel net m := by
  unfold rlTopologies at hT
  split at hT
  · obtain ⟨id, -, hid⟩ := List.mem_filterMap.mp hT
    obtain ⟨m, -, rfl⟩ := Option.map_eq_some_iff.mp hid
    exact ⟨m, rfl⟩
  · cases hT

variable (p : Phases f net noAS r)

include p

theorem mem_rlTopologies {as : NodeInfoAS} (has : as ∈ p.ases) :
    as.rlTopology ∈ rlTopologies net noAS := by
  rw [← p.topologies]
  exact List.mem_map_of_mem has

theorem nodup {as : NodeInfoAS} (has : as ∈ p.ases) : as.rlTopology.nodes.Nodup := by
  obtain ⟨m, hm⟩ := exists_routerLevel (p.mem_rlTopologies has)
  rw [hm]
  exact nodup_nodes

theorem keeps_intra : KeepsAddresses p.assigned p.routed :=
  foldlM_invariant (I := KeepsAddresses p.assigned)
    (fun _ has _ _ hx hy => hx.trans (setIntraASRoutes_ok (p.nodup has) hy).1)
    ⟨rfl, rfl⟩ p.intra

theorem keeps : KeepsAddresses p.assigned r.st := by
  rcases p.inter with ⟨-, x, hx, hr⟩ | ⟨-, hr⟩
  · rw [congrArg Configured.st hr]
    exact p.keeps_intra.trans (createInterASPaths_ok hx).1
  · rw [congrArg Configured.st hr]
    exact p.keeps_intra

theorem ases_eq : r.ases = p.ases := by
  have hon : AllEnabled p.ases := by
    intro as has l hl
    obtain ⟨m, hm⟩ := exists_routerLevel (p.mem_rlTopologies has)
    rw [hm] at hl
    exact (mem_links hl).2.1
  rcases p.inter with ⟨-, x, hx, hr⟩ | ⟨-, hr⟩
  · rw [congrArg Configured.ases hr]
    exact ases_createInterASPaths hon hx
  · rw [congrArg Configured.ases hr]

end Phases

end WormsAttack.Configurator
