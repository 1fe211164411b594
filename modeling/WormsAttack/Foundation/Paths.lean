/-
  Hop distances and forwarding in a directed graph.

  A graph is a relation, and forwarding names a next hop for each node.
-/
import Mathlib.Data.Fintype.Card
import Mathlib.Data.Nat.Find

namespace WormsAttack.Foundation

/-! ## Distances -/

section Distance

variable {α : Type}

inductive Walk (R : α → α → Prop) : Nat → α → α → Prop
  | here (s : α) : Walk R 0 s s
  | hop {n : Nat} {s v t : α} (edge : R s v) (rest : Walk R n v t) : Walk R (n + 1) s t

structure Dist (R : α → α → Prop) (n : Nat) (s t : α) : Prop where
  walk : Walk R n s t
  least : ∀ {m : Nat}, Walk R m s t → n ≤ m

variable {R : α → α → Prop} {n m : Nat} {s v t : α}

theorem Dist.unique (h : Dist R n s t) (h' : Dist R m s t) : n = m :=
  Nat.le_antisymm (h.least h'.walk) (h'.least h.walk)

theorem Dist.eq_of_zero (h : Dist R 0 s t) : s = t := by
  cases h.walk
  rfl

theorem exists_dist (h : Walk R n s t) : ∃ k, Dist R k s t := by
  classical
  have hsome : ∃ k, Walk R k s t := ⟨n, h⟩
  exact ⟨Nat.find hsome, Nat.find_spec hsome, fun hm => Nat.find_min' hsome hm⟩

theorem Dist.exists_closer (h : Dist R (n + 1) s t) : ∃ v, R s v ∧ Dist R n v t := by
  obtain ⟨hwalk, hleast⟩ := h
  cases hwalk with
  | hop edge rest =>
    refine ⟨_, edge, rest, fun hm => ?_⟩
    exact Nat.le_of_succ_le_succ (hleast (.hop edge hm))

theorem Dist.exists_level (h : Dist R n s t) {k : Nat} (hk : k ≤ n) : ∃ x, Dist R k x t := by
  induction n generalizing s with
  | zero => exact ⟨s, Nat.le_zero.mp hk ▸ h⟩
  | succ n ih =>
    obtain ⟨v, -, hv⟩ := h.exists_closer
    rcases Nat.lt_or_ge n k with hlt | hle
    · obtain rfl : k = n + 1 := by omega
      exact ⟨s, h⟩
    · exact ih hv hle

theorem Dist.le_length [DecidableEq α] {sources : List α}
    (hsources : ∀ a b, R a b → a ∈ sources) (h : Dist R n s t) : n ≤ sources.length := by
  have hlevel : ∀ k : Fin n, ∃ x, Dist R (k + 1) x t := fun k => h.exists_level k.isLt
  choose level hdist using hlevel
  have hmem : ∀ k, level k ∈ sources.toFinset := by
    intro k
    obtain ⟨v, hedge, -⟩ := (hdist k).exists_closer
    exact List.mem_toFinset.mpr (hsources _ _ hedge)
  have hinj : Function.Injective level := by
    intro j k hjk
    have hj := hdist j
    rw [hjk] at hj
    exact Fin.ext (Nat.succ.inj (hj.unique (hdist k)))
  calc n = (Finset.univ : Finset (Fin n)).card := (Finset.card_fin n).symm
    _ ≤ sources.toFinset.card :=
        Finset.card_le_card_of_injOn level (fun k _ => hmem k) hinj.injOn
    _ ≤ sources.length := sources.toFinset_card_le

end Distance

/-! ## Forwarding -/

section Forwarding

variable {α : Type} {next : α → Option α} {R : α → α → Prop} {s t : α}

/-- Forwarding from `s` visits `path` in order and ends in `t`. -/
inductive Leads (next : α → Option α) : α → List α → α → Prop
  | here (s : α) : Leads next s [] s
  | hop {s v t : α} {path : List α} (hnext : next s = some v) (rest : Leads next v path t) :
      Leads next s (v :: path) t

/-- When each hop of a node other than `t` leads one hop closer to `t`, forwarding
takes a shortest walk. -/
theorem leads_of_closer {D : α → Prop} (hcloser : ∀ {n : Nat} {s : α}, D s → Dist R (n + 1) s t →
      ∃ v, next s = some v ∧ D v ∧ Dist R n v t) :
    ∀ {n : Nat} {s : α}, D s → Dist R n s t → ∃ path, Leads next s path t ∧ path.length = n := by
  intro n
  induction n with
  | zero =>
    intro s _ hdist
    obtain rfl := hdist.eq_of_zero
    exact ⟨[], .here s, rfl⟩
  | succ n ih =>
    intro s hs hdist
    obtain ⟨v, hnext, hv, hdist'⟩ := hcloser hs hdist
    obtain ⟨path, hleads, hlength⟩ := ih hv hdist'
    exact ⟨v :: path, .hop hnext hleads, by rw [List.length_cons, hlength]⟩

/-- When each hop of a node outside a region leads one hop closer to a node of that
region, forwarding enters the region, and visits no node twice on the way. -/
theorem enters_of_closer {D region : α → Prop} (htarget : region t)
    (hcloser : ∀ {s : α}, D s → ¬ region s →
      ∃ n v, next s = some v ∧ D v ∧ Dist R (n + 1) s t ∧ Dist R n v t) :
    ∀ {n : Nat} {s : α}, D s → Dist R n s t →
      ∃ path last, Leads next s path last ∧ region last ∧ (s :: path).Nodup := by
  classical
  -- every node that is visited is at most as far from `t` as the first one
  have hmain : ∀ {n : Nat} {s : α}, D s → Dist R n s t →
      ∃ path last, Leads next s path last ∧ region last ∧ (s :: path).Nodup ∧
        ∀ x ∈ s :: path, ∃ m ≤ n, Dist R m x t := by
    intro n
    induction n with
    | zero =>
      intro s _ hdist
      obtain rfl := hdist.eq_of_zero
      exact ⟨[], s, .here s, htarget, by simp, by simpa using hdist⟩
    | succ n ih =>
      intro s hs hdist
      by_cases hin : region s
      · refine ⟨[], s, .here s, hin, by simp, ?_⟩
        intro x hx
        cases List.mem_singleton.mp hx
        exact ⟨n + 1, le_rfl, hdist⟩
      · obtain ⟨k, v, hnext, hv, hfar, hnear⟩ := hcloser hs hin
        obtain rfl : k = n := Nat.succ.inj (hfar.unique hdist)
        obtain ⟨path, last, hleads, hlast, hnodup, hdists⟩ := ih hv hnear
        refine ⟨v :: path, last, .hop hnext hleads, hlast, ?_, ?_⟩
        · refine List.nodup_cons.mpr ⟨fun hmem => ?_, hnodup⟩
          obtain ⟨m, hle, hm⟩ := hdists s hmem
          have heq := hm.unique hdist
          omega
        · intro x hx
          rcases List.mem_cons.mp hx with rfl | hx
          · exact ⟨k + 1, le_rfl, hdist⟩
          · obtain ⟨m, hle, hm⟩ := hdists x hx
            exact ⟨m, Nat.le_succ_of_le hle, hm⟩
  intro n s hs hdist
  obtain ⟨path, last, hleads, hlast, hnodup, -⟩ := hmain hs hdist
  exact ⟨path, last, hleads, hlast, hnodup⟩

end Forwarding

end WormsAttack.Foundation
