/-
  Runs of a fallible transition function.

      step : State -> Event -> Except Stop (State x Output)

  `Run step init` are the finite sequences of steps from `init`.  A step that returns `error`
  ends the simulation, so no run goes past it.  Traces are stored NEWEST STEP FIRST, so that
  history functions are structural recursions.

  Loops inside a step are `foldlM` over the list that the source walks through, with the same
  rules in the small.
-/
import Mathlib.Data.List.Basic
import Mathlib.Data.List.Induction

namespace WormsAttack.Foundation

open List

variable {φ α : Type} {first : Except φ α}

theorem bind_eq_ok {β : Type} {second : α → Except φ β} {b : β} :
    (first >>= second) = .ok b ↔ ∃ a, first = .ok a ∧ second a = .ok b := by
  cases first <;> simp [bind, Except.bind]

theorem ok_bind {β : Type} (a : α) (second : α → Except φ β) : (.ok a >>= second) = second a :=
  rfl

variable {f : φ} {x : Except φ α}

theorem guard_eq_ok {c : Prop} [Decidable c] {a : α} :
    (if c then x else .error f) = .ok a ↔ c ∧ x = .ok a := by
  split_ifs with hc <;> simp [hc]

theorem unless_eq_ok {c : Prop} [Decidable c] {a : α} :
    (if c then .error f else x) = .ok a ↔ ¬ c ∧ x = .ok a := by
  split_ifs with hc <;> simp [hc]

theorem ok_ne_error {a : α} : (.ok a : Except φ α) ≠ .error f := by
  intro h
  cases h

theorem bind_ne_error {β : Type} {second : α → Except φ β}
    (hfirst : first ≠ .error f) (hsecond : ∀ a, first = .ok a → second a ≠ .error f) :
    (first >>= second) ≠ .error f := by
  cases first with
  | error f' =>
    intro h
    exact hfirst (congrArg Except.error (Except.error.inj h))
  | ok a => exact hsecond a rfl

theorem guard_ne_error {c : Prop} [Decidable c] {f' : φ} (hother : f' ≠ f)
    (h : c → x ≠ .error f) : (if c then x else .error f') ≠ .error f := by
  split_ifs with hc
  · exact h hc
  · exact fun heq => hother (Except.error.inj heq)

theorem getElem?_concat_eq_some {as : List α} {a b : α} {k : Nat} :
    (as ++ [a])[k]? = some b ↔ as[k]? = some b ∨ k = as.length ∧ a = b := by
  rcases Nat.lt_trichotomy k as.length with hk | rfl | hk
  · simp [getElem?_append_left hk, Nat.ne_of_lt hk]
  · simp
  · rw [getElem?_eq_none (Nat.le_of_lt hk), getElem?_eq_none (by rw [length_append]; exact hk)]
    simp [Nat.ne_of_gt hk]

/-! ## Loops

A loop of the source that may fail is a `foldlM` over the list it walks through. -/

section Loops

variable {φ σ α ι ρ : Type} {body : σ → α → Except φ σ} {as : List α} {I : σ → Prop}

theorem foldlM_cons_eq_ok {a : α} {x y : σ} :
    (a :: as).foldlM body x = .ok y ↔ ∃ z, body x a = .ok z ∧ as.foldlM body z = .ok y := by
  rw [foldlM_cons, bind_eq_ok]

theorem foldlM_concat_eq_ok {a : α} {x y : σ} :
    (as ++ [a]).foldlM body x = .ok y ↔ ∃ z, as.foldlM body x = .ok z ∧ body z a = .ok y := by
  simp [bind_eq_ok]

/-- The loop rule: what is so of the elements gone through is so of all of them at the end. -/
theorem foldlM_induction {I : List α → σ → Prop} {x y : σ}
    (hbody : ∀ done, ∀ a ∈ as, ∀ x y, I done x → body x a = .ok y → I (done ++ [a]) y)
    (hx : I [] x) (h : as.foldlM body x = .ok y) : I as y := by
  induction as using reverseRecOn generalizing y with
  | nil =>
    cases h
    exact hx
  | append_singleton as a ih =>
    obtain ⟨z, hz, hlast⟩ := foldlM_concat_eq_ok.mp h
    refine hbody as a (mem_append_right as (mem_singleton_self a)) z y (ih ?_ hz) hlast
    exact fun done b hb => hbody done b (mem_append_left [a] hb)

theorem foldlM_invariant (hbody : ∀ a ∈ as, ∀ x y, I x → body x a = .ok y → I y) {x y : σ} :
    I x → as.foldlM body x = .ok y → I y :=
  foldlM_induction (I := fun _ => I) fun _ => hbody

theorem foldlM_congr {body' : σ → α → Except φ σ} (hbody : ∀ a ∈ as, ∀ x, body x a = body' x a) :
    ∀ x, as.foldlM body x = as.foldlM body' x := by
  induction as with
  | nil => intro x; rfl
  | cons a as ih =>
    intro x
    rw [foldlM_cons, foldlM_cons, hbody a mem_cons_self]
    refine congrArg (body' x a >>= ·) (funext fun z => ?_)
    exact ih (fun b hb => hbody b (mem_cons_of_mem a hb)) z

/-- A loop goes through when each round it gets to goes through. -/
theorem foldlM_progress {x : σ}
    (hbody : ∀ before a after y, as = before ++ a :: after → before.foldlM body x = .ok y →
      ∃ z, body y a = .ok z) : ∃ y, as.foldlM body x = .ok y := by
  induction as using reverseRecOn with
  | nil => exact ⟨x, rfl⟩
  | append_singleton as a ih =>
    obtain ⟨y, hy⟩ := ih fun before b after y hsplit =>
      hbody before b (after ++ [a]) y (by rw [hsplit, append_assoc, cons_append])
    obtain ⟨z, hz⟩ := hbody as a [] y rfl hy
    exact ⟨z, foldlM_concat_eq_ok.mpr ⟨y, hy, hz⟩⟩

variable {P : List α → α → Prop}

theorem forall_prefix_concat {b : α} :
    (∀ before a, before ++ [a] <+: as ++ [b] → P before a) ↔
      (∀ before a, before ++ [a] <+: as → P before a) ∧ P as b := by
  constructor
  · intro h
    refine ⟨fun before a hpre => ?_, h as b prefix_rfl⟩
    exact h before a (hpre.trans (prefix_append as [b]))
  · rintro ⟨h, hlast⟩ before a hpre
    rcases prefix_concat_iff.mp hpre with heq | hpre
    · obtain ⟨rfl, hsame⟩ := append_inj' heq rfl
      obtain rfl := singleton_inj.mp hsame
      exact hlast
    · exact h before a hpre

theorem forall_prefix_nil : ∀ before a, before ++ [a] <+: [] → P before a := by
  intro before a hpre
  exact absurd (prefix_nil.mp hpre) (concat_ne_nil a before)

/-- The rule for a loop that fills rows and writes a log: round `a` appends `entry a i` to each
row `i`. -/
theorem foldlM_rounds {τ : Type} {P : α → Prop} (row : σ → ι → List ρ) (entry : α → ι → List ρ)
    (log : σ → List τ) (item : α → List τ)
    (hbody : ∀ a ∈ as, ∀ x y, I x → body x a = .ok y → I y ∧
      (∀ i, row y i = row x i ++ entry a i) ∧ log y = log x ++ item a ∧ P a)
    {x y : σ} (hx : I x) (h : as.foldlM body x = .ok y) :
    I y ∧ (∀ i, row y i = row x i ++ as.flatMap (entry · i)) ∧
      log y = log x ++ as.flatMap item ∧ ∀ a ∈ as, P a := by
  refine foldlM_induction (I := fun done z => I z ∧
    (∀ i, row z i = row x i ++ done.flatMap (entry · i)) ∧
      log z = log x ++ done.flatMap item ∧ ∀ a ∈ done, P a) ?_ ⟨hx, by simp, by simp, nofun⟩ h
  intro done a ha z y ⟨hz, hrow, hlog, hdone⟩ h
  obtain ⟨hy, hrow', hlog', hP⟩ := hbody a ha z y hz h
  refine ⟨hy, fun i => ?_, ?_, forall_mem_append.mpr ⟨hdone, forall_mem_singleton.mpr hP⟩⟩
  · rw [hrow', hrow, flatMap_append, flatMap_singleton, append_assoc]
  · rw [hlog', hlog, flatMap_append, flatMap_singleton, append_assoc]

theorem foldlM_rows (row : σ → ι → List ρ) (entry : α → ι → List ρ)
    (hbody : ∀ a ∈ as, ∀ x y, I x → body x a = .ok y → I y ∧ ∀ i, row y i = row x i ++ entry a i)
    {x y : σ} (hx : I x) (h : as.foldlM body x = .ok y) :
    I y ∧ ∀ i, row y i = row x i ++ as.flatMap (entry · i) := by
  obtain ⟨hy, hrows, -⟩ := foldlM_rounds (P := fun _ => True) row entry (fun _ => ([] : List Unit))
    (fun _ => []) (fun a ha x y hx h =>
      have hround := hbody a ha x y hx h
      ⟨hround.1, hround.2, rfl, trivial⟩) hx h
  exact ⟨hy, hrows⟩

theorem flatMap_own [DecidableEq α] (hnodup : as.Nodup) (own : α → List ρ) (i : α) :
    (as.flatMap fun a => if a = i then own a else []) = if i ∈ as then own i else [] := by
  induction as with
  | nil => rfl
  | cons a as ih =>
    obtain ⟨hnot, hnodup'⟩ := nodup_cons.mp hnodup
    rw [flatMap_cons, ih hnodup']
    by_cases ha : a = i
    · subst ha
      simp [hnot]
    · simp [ha, Ne.symm ha]

end Loops

/-- One step of a run: the state it started in, the event, and what it put out. -/
structure Step (σ ε ο : Type) where
  pre : σ
  event : ε
  out : ο

def Step.label {σ ε ο : Type} (st : Step σ ε ο) : ε × ο := (st.event, st.out)

variable {σ ε φ ο : Type}

/-- `Run step init tr s`: the steps of `tr`, newest first, lead from `init` to
`s`. -/
inductive Run (step : σ → ε → Except φ (σ × ο)) (init : σ) :
    List (Step σ ε ο) → σ → Prop
  | start : Run step init [] init
  | next {tr : List (Step σ ε ο)} {s s' : σ} {e : ε} {o : ο} :
      Run step init tr s → step s e = .ok (s', o) →
      Run step init (⟨s, e, o⟩ :: tr) s'

section Invariants

variable {step : σ → ε → Except φ (σ × ο)} {init : σ} {s : σ} {tr : List (Step σ ε ο)}

/-- The invariant rule: what holds at the start and is kept by one step holds
of the trace and the state of every run. -/
theorem Run.invariant {I : List (Step σ ε ο) → σ → Prop} (hstart : I [] init)
    (hnext : ∀ (tr : List (Step σ ε ο)) (s s' : σ) (e : ε) (o : ο),
      I tr s → step s e = .ok (s', o) → I (⟨s, e, o⟩ :: tr) s') (h : Run step init tr s) :
    I tr s := by
  induction h with
  | start => exact hstart
  | next _ hstep ih => exact hnext _ _ _ _ _ ih hstep

theorem Run.uncons {st : Step σ ε ο} (h : Run step init (st :: tr) s) :
    Run step init tr st.pre ∧ step st.pre st.event = .ok (s, st.out) := by
  cases h with
  | next hrun hstep => exact ⟨hrun, hstep⟩

theorem Run.state_unique {s' : σ} (h : Run step init tr s) (h' : Run step init tr s') : s = s' := by
  cases h with
  | start =>
    cases h'
    rfl
  | next _ hstep =>
    have heq := hstep.symm.trans h'.uncons.2
    exact congrArg Prod.fst (Except.ok.inj heq)

theorem Run.append {tr' : List (Step σ ε ο)} {s' : σ} (h : Run step init tr s)
    (h' : Run step s tr' s') : Run step init (tr' ++ tr) s' := by
  induction h' with
  | start => exact h
  | next _ hstep ih => exact ih.next hstep

/-- A run can be cut before any of its steps. -/
theorem Run.split : ∀ (later : List (Step σ ε ο)) {st : Step σ ε ο}
    {tr : List (Step σ ε ο)} {s : σ}, Run step init (later ++ st :: tr) s →
    ∃ s' : σ, Run step init tr st.pre ∧ step st.pre st.event = .ok (s', st.out) ∧
      Run step init (st :: tr) s' := by
  intro later
  induction later with
  | nil =>
    intro st tr s h
    exact ⟨s, h.uncons.1, h.uncons.2, h⟩
  | cons last later ih =>
    intro st tr s h
    exact ih h.uncons.1

end Invariants

/-! ## Replay

The transition function is deterministic in the event, so the events determine the
whole trace.  `replay` computes it, oldest event first. -/

section Replay

variable (step : σ → ε → Except φ (σ × ο))

def replayFrom : List ε → List (Step σ ε ο) → σ → Except φ (List (Step σ ε ο) × σ)
  | [], tr, s => .ok (tr, s)
  | e :: es, tr, s =>
      match step s e with
      | .error f => .error f
      | .ok (s', o) => replayFrom es (⟨s, e, o⟩ :: tr) s'

def replay (init : σ) (es : List ε) : Except φ (List (Step σ ε ο) × σ) :=
  replayFrom step es [] init

/-- The trace of a replay; empty if the events do not form a run. -/
def replayTrace (init : σ) (es : List ε) : List (Step σ ε ο) :=
  match replay step init es with
  | .ok (tr, _) => tr
  | .error _ => []

/-- The last state of a replay; the initial state if the events do not form a
run. -/
def replayState (init : σ) (es : List ε) : σ :=
  match replay step init es with
  | .ok (_, s) => s
  | .error _ => init

def replays (init : σ) (es : List ε) : Bool :=
  match replay step init es with
  | .ok _ => true
  | .error _ => false

variable {step} {init : σ}

theorem Run.of_replayFrom : ∀ (es : List ε) {tr tr' : List (Step σ ε ο)} {s s' : σ},
    Run step init tr s → replayFrom step es tr s = .ok (tr', s') →
    Run step init tr' s' := by
  intro es
  induction es with
  | nil =>
    intro tr tr' s s' hrun h
    obtain ⟨rfl, rfl⟩ := h
    exact hrun
  | cons e es ih =>
    intro tr tr' s s' hrun h
    simp only [replayFrom] at h
    split at h
    · cases h
    · rename_i s₁ o hstep
      exact ih (hrun.next hstep) h

theorem run_of_replays {es : List ε} (h : replays step init es = true) :
    Run step init (replayTrace step init es) (replayState step init es) := by
  unfold replays at h
  unfold replayTrace replayState
  split at h
  · rename_i p hp
    rw [hp]
    exact Run.of_replayFrom es .start hp
  · cases h

end Replay

end WormsAttack.Foundation
