/-
  Several modules over one shared state.

  An event names the module that handles it, and the handler works on the shared part and on
  that module's members.  `solo_of_run` is the rule for isolation: relate network states to
  states of `a` alone, and show that a step of `a` is matched by the same step alone while a
  step of another module is not noticed.
-/
import Mathlib.Logic.Function.Basic
import WormsAttack.Foundation.Run

namespace WormsAttack.Foundation

structure Network (ι γ μ : Type) where
  shared : γ
  members : ι → μ

namespace Network

variable {ι γ μ ε φ ο σ : Type} [DecidableEq ι]

def step (handle : ι → γ → μ → ε → Except φ (γ × μ × ο)) (n : Network ι γ μ) (e : ι × ε) :
    Except φ (Network ι γ μ × ο) :=
  match handle e.1 n.shared (n.members e.1) e.2 with
  | .error f => .error f
  | .ok (shared, own, out) =>
      .ok ({ shared := shared, members := Function.update n.members e.1 own }, out)

variable {handle : ι → γ → μ → ε → Except φ (γ × μ × ο)} {a : ι} {n : Network ι γ μ}
  {tr : List (Step (Network ι γ μ) (ι × ε) ο)} {start : Network ι γ μ}

theorem step_eq_ok {n' : Network ι γ μ} {e : ε} {out : ο} :
    step handle n (a, e) = .ok (n', out) ↔
      ∃ shared own, handle a n.shared (n.members a) e = .ok (shared, own, out) ∧
        n' = { shared := shared, members := Function.update n.members a own } := by
  unfold step
  cases hhandle : handle a n.shared (n.members a) e with
  | error f => simp
  | ok r =>
    obtain ⟨shared, own, out'⟩ := r
    simp only [Except.ok.injEq, Prod.mk.injEq]
    constructor
    · rintro ⟨rfl, rfl⟩
      exact ⟨shared, own, ⟨rfl, rfl, rfl⟩, rfl⟩
    · rintro ⟨_, _, ⟨rfl, rfl, rfl⟩, rfl⟩
      exact ⟨rfl, rfl⟩

theorem step_ne_error {e : ε} {f : φ} (h : handle a n.shared (n.members a) e ≠ .error f) :
    step handle n (a, e) ≠ .error f := by
  unfold step
  split
  · rename_i f' hf
    intro heq
    cases heq
    exact h hf
  · exact ok_ne_error

/-- The events module `a` handled and what it put out, newest first. -/
def labelsOf (a : ι) (tr : List (Step (Network ι γ μ) (ι × ε) ο)) : List (ε × ο) :=
  tr.filterMap fun st => if st.event.1 = a then some (st.event.2, st.out) else none

theorem mem_labelsOf {st : Step (Network ι γ μ) (ι × ε) ο} (hmem : st ∈ tr) (ha : st.event.1 = a) :
    (st.event.2, st.out) ∈ labelsOf a tr :=
  List.mem_filterMap.mpr ⟨st, hmem, if_pos ha⟩

theorem exists_of_mem_labelsOf {l : ε × ο} (h : l ∈ labelsOf a tr) :
    ∃ st ∈ tr, (st.event.2, st.out) = l := by
  obtain ⟨st, hst, heq⟩ := List.mem_filterMap.mp h
  obtain ⟨-, heq⟩ := Option.ite_none_right_eq_some.mp heq
  exact ⟨st, hst, Option.some.inj heq⟩

/-- The invariant rule.  `G` is about the shared state and `L` about the members of a
module; a handler may use both for what it does in its step. -/
theorem invariant_of_run {G : γ → Prop} {L : μ → Prop} {Q : γ → μ → ε → ο → Prop}
    (hshared : G start.shared) (hmembers : ∀ a, L (start.members a))
    (hhandle : ∀ a shared own e shared' own' out, G shared → L own →
      handle a shared own e = .ok (shared', own', out) → G shared' ∧ L own' ∧ Q shared own e out)
    (h : Run (step handle) start tr n) :
    G n.shared ∧ (∀ a, L (n.members a)) ∧
      ∀ st ∈ tr, Q st.pre.shared (st.pre.members st.event.1) st.event.2 st.out := by
  induction h with
  | start => exact ⟨hshared, hmembers, nofun⟩
  | @next tr n n' e out _ hstep ih =>
    obtain ⟨a, e⟩ := e
    obtain ⟨hG, hL, hQ⟩ := ih
    obtain ⟨shared, own, hok, rfl⟩ := step_eq_ok.mp hstep
    obtain ⟨hG', hL', hQ'⟩ := hhandle a _ _ e shared own out hG (hL a) hok
    refine ⟨hG', fun b => ?_, List.forall_mem_cons.mpr ⟨hQ', hQ⟩⟩
    change L (Function.update n.members a own b)
    by_cases hb : b = a
    · subst hb
      rwa [Function.update_self]
    · rw [Function.update_of_ne hb]
      exact hL b

theorem history_of_run {I : List (ε × ο) → μ → Prop} (hstart : I [] (start.members a))
    (hhandle : ∀ labels shared own e shared' own' out, I labels own →
      handle a shared own e = .ok (shared', own', out) → I ((e, out) :: labels) own')
    (h : Run (step handle) start tr n) : I (labelsOf a tr) (n.members a) := by
  induction h with
  | start => exact hstart
  | @next tr n n' e out _ hstep ih =>
    obtain ⟨b, e⟩ := e
    obtain ⟨shared, own, hok, rfl⟩ := step_eq_ok.mp hstep
    simp only [labelsOf, List.filterMap_cons]
    by_cases hb : b = a
    · subst hb
      rw [if_pos rfl, Function.update_self]
      exact hhandle _ _ _ _ _ _ _ ih hok
    · rw [if_neg hb, Function.update_of_ne (Ne.symm hb)]
      exact ih

/-- The isolation rule.  `View n s` relates a state of the network to a state of
module `a` alone, and `P` is the condition on the steps under which the relation
is kept. -/
theorem solo_of_run {alone : σ → ε → Except φ (σ × ο)} {init : σ} {View : Network ι γ μ → σ → Prop}
    {P : Step (Network ι γ μ) (ι × ε) ο → Prop} (hstart : View start init)
    (hown : ∀ n n' s e out, P ⟨n, (a, e), out⟩ → View n s → step handle n (a, e) = .ok (n', out) →
      ∃ s', alone s e = .ok (s', out) ∧ View n' s')
    (hother : ∀ n n' s b e out, b ≠ a → P ⟨n, (b, e), out⟩ → View n s →
      step handle n (b, e) = .ok (n', out) → View n' s) (h : Run (step handle) start tr n)
    (hP : ∀ st ∈ tr, P st) :
    ∃ trace s, Run alone init trace s ∧ trace.map Step.label = labelsOf a tr ∧ View n s := by
  induction h with
  | start => exact ⟨[], init, .start, rfl, hstart⟩
  | @next tr n n' e out _ hstep ih =>
    obtain ⟨hhead, htail⟩ := List.forall_mem_cons.mp hP
    obtain ⟨trace, s, hrun, hlabels, hview⟩ := ih htail
    obtain ⟨b, e⟩ := e
    by_cases hb : b = a
    · subst hb
      obtain ⟨s', halone, hview'⟩ := hown n n' s e out hhead hview hstep
      refine ⟨⟨s, e, out⟩ :: trace, s', hrun.next halone, ?_, hview'⟩
      simp only [List.map_cons, labelsOf, List.filterMap_cons, if_true]
      rw [hlabels]
      rfl
    · refine ⟨trace, s, hrun, ?_, hother n n' s b e out hb hhead hview hstep⟩
      simp only [labelsOf, List.filterMap_cons, hb, if_false]
      exact hlabels

end Network

end WormsAttack.Foundation
