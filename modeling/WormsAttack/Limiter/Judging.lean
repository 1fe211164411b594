/-
  Which rules a packet is compared with.

  The three loops of `handleMessage` differ in how they find the positions they judge at.
-/
import WormsAttack.Limiter.Handlers

namespace WormsAttack.Limiter

open Foundation Inet Omnet List

/-! ## Comparisons at given positions -/

def judgeAll (kind : RuleKind) (rates : List Int) (draws : Nat → Nat) (positions : List Nat)
    (v : Verdict) : Except Stop Verdict :=
  positions.foldlM (fun v i => judge kind rates draws i v) v

/-- The comparisons at the given positions, from draw `k` on; none if a rate is missing. -/
def checksAt (kind : RuleKind) (rates : List Int) (draws : Nat → Nat) :
    Nat → List Nat → Option (List Check)
  | _, [] => some []
  | k, i :: positions =>
      match rates[i]?, checksAt kind rates draws (k + 1) positions with
      | some rate, some rest => some (⟨kind, i, rate, draws k % 100⟩ :: rest)
      | _, _ => none

def Verdict.addAll (v : Verdict) (checks : List Check) : Verdict := checks.foldl Verdict.add v

theorem Verdict.add_eq (v : Verdict) (c : Check) :
    v.add c =
      { toSend := v.toSend && !c.blocks
        blocked := v.blocked + if c.blocks then 1 else 0
        allowed := v.allowed + if !c.blocks then 1 else 0
        checks := v.checks ++ [c] } := by
  unfold Verdict.add
  cases c.blocks <;> simp

theorem Verdict.addAll_eq (checks : List Check) : ∀ v : Verdict,
    v.addAll checks =
      { toSend := v.toSend && checks.all fun c => !c.blocks
        blocked := v.blocked + checks.countP Check.blocks
        allowed := v.allowed + checks.countP fun c => !c.blocks
        checks := v.checks ++ checks } := by
  induction checks with
  | nil => intro v; simp [Verdict.addAll]
  | cons c checks ih =>
    intro v
    have hrest := ih (v.add c)
    simp only [Verdict.addAll, foldl_cons] at hrest ⊢
    rw [hrest, Verdict.add_eq, all_cons, countP_cons, countP_cons]
    simp only [Bool.and_assoc, append_assoc, singleton_append, Nat.add_assoc,
      Nat.add_comm (countP _ checks)]

@[simp] theorem Verdict.add_checks (v : Verdict) (c : Check) :
    (v.add c).checks = v.checks ++ [c] := by
  rw [Verdict.add_eq]

section

variable (checks : List Check) (v : Verdict)

@[simp] theorem Verdict.addAll_checks :
    (v.addAll checks).checks = v.checks ++ checks := by
  rw [Verdict.addAll_eq]

theorem Verdict.addAll_toSend :
    (v.addAll checks).toSend = (v.toSend && checks.all fun c => !c.blocks) := by
  rw [Verdict.addAll_eq]

theorem Verdict.addAll_blocked :
    (v.addAll checks).blocked = v.blocked + checks.countP Check.blocks := by
  rw [Verdict.addAll_eq]

theorem Verdict.addAll_allowed :
    (v.addAll checks).allowed = v.allowed + checks.countP fun c => !c.blocks := by
  rw [Verdict.addAll_eq]

end

section

variable (kind : RuleKind) (rates : List Int) (draws : Nat → Nat)

theorem judgeAll_cons (i : Nat) (positions : List Nat) (v : Verdict) :
    judgeAll kind rates draws (i :: positions) v =
      judge kind rates draws i v >>= fun v => judgeAll kind rates draws positions v :=
  foldlM_cons

theorem judgeAll_eq (positions : List Nat) : ∀ v : Verdict,
      judgeAll kind rates draws positions v =
        match checksAt kind rates draws v.checks.length positions with
        | some checks => .ok (v.addAll checks)
        | none => .error .outOfRange := by
  induction positions with
  | nil => intro v; rfl
  | cons i positions ih =>
    intro v
    rw [judgeAll_cons]
    simp only [judge, checksAt]
    cases rates[i]? with
    | none => rfl
    | some rate =>
      have hrest := ih (v.add ⟨kind, i, rate, draws v.checks.length % 100⟩)
      simp only [Verdict.add_checks, length_append, length_singleton] at hrest
      refine hrest.trans ?_
      cases checksAt kind rates draws (v.checks.length + 1) positions <;> rfl

theorem checksAt_isSome (positions : List Nat) : ∀ k,
      (checksAt kind rates draws k positions).isSome ↔ ∀ i ∈ positions, i < rates.length := by
  induction positions with
  | nil => intro k; simp [checksAt]
  | cons i positions ih =>
    intro k
    have hrest := ih (k + 1)
    rw [forall_mem_cons, ← hrest]
    simp only [checksAt]
    cases hrate : rates[i]? with
    | none =>
      have hlen := getElem?_eq_none_iff.mp hrate
      simp only [Option.isSome_none, Bool.false_eq_true, false_iff, not_and]
      omega
    | some rate =>
      have hlen := (List.getElem?_eq_some_iff.mp hrate).1
      cases checksAt kind rates draws (k + 1) positions <;> simp [hlen]

end

theorem mem_checksAt {kind : RuleKind} {rates : List Int} {draws : Nat → Nat}
    {positions : List Nat} : ∀ {k : Nat} {checks : List Check},
      checksAt kind rates draws k positions = some checks →
      checks.map (·.position) = positions ∧
        ∀ c ∈ checks, c.kind = kind ∧ rates[c.position]? = some c.rate := by
  induction positions with
  | nil =>
    intro k checks h
    cases h
    simp
  | cons i positions ih =>
    intro k checks h
    simp only [checksAt] at h
    split at h
    · rename_i rate rest hrate hrest
      cases h
      obtain ⟨hpositions, hmem⟩ := ih hrest
      refine ⟨by simp [hpositions], ?_⟩
      intro c hc
      rcases mem_cons.mp hc with rfl | hc
      · exact ⟨rfl, hrate⟩
      · exact hmem c hc
    · cases h

/-! ## The loops -/

def positions {α : Type} (hit : α → Bool) : Nat → List α → List Nat
  | _, [] => []
  | i, rule :: rest =>
      if hit rule then i :: positions hit (i + 1) rest else positions hit (i + 1) rest

theorem ruleLoop_eq {α : Type} (kind : RuleKind) (hit : α → Bool) (rates : List Int)
    (draws : Nat → Nat) (rules : List α) : ∀ (i : Nat) (v : Verdict),
      ruleLoop kind hit rates draws i rules v =
        judgeAll kind rates draws (positions hit i rules) v := by
  induction rules with
  | nil => intro i v; rfl
  | cons rule rules ih =>
    intro i v
    simp only [ruleLoop, positions]
    split
    · rw [judgeAll_cons]
      simp only [ih]
    · exact ih (i + 1) v

theorem mem_positions {α : Type} {hit : α → Bool} {rules : List α} : ∀ {i p : Nat},
    p ∈ positions hit i rules ↔
      i ≤ p ∧ ∃ rule, rules[p - i]? = some rule ∧ hit rule = true := by
  induction rules with
  | nil => intro i p; simp [positions]
  | cons rule rules ih =>
    intro i p
    rw [positions]
    rcases Nat.lt_trichotomy p i with hlt | rfl | hgt
    · have hnot : ¬ i ≤ p := by omega
      have hnot' : ¬ i + 1 ≤ p := by omega
      have hne : p ≠ i := by omega
      split <;> simp [ih, hnot, hnot', hne]
    · split <;> rename_i hhit <;> simp [ih, hhit]
    · obtain ⟨k, rfl⟩ := Nat.exists_eq_add_of_le hgt
      have hindex : i + 1 + k - i = k + 1 := by omega
      have hle : i ≤ i + 1 + k := by omega
      have hne : i + 1 + k ≠ i := by omega
      split <;> simp [ih, hindex, hle, hne]

theorem positions_lt {α : Type} {hit : α → Bool} {rules : List α} {p : Nat}
    (h : p ∈ positions hit 0 rules) : p < rules.length := by
  obtain ⟨-, rule, hrule, -⟩ := mem_positions.mp h
  exact (List.getElem?_eq_some_iff.mp hrule).1

def marksOf (rules : Rules) (id : Nat) : List Nat := hits (· == id) 0 rules.toBlock

theorem linkLoop_eq (rules : Rules) (id : Nat) (draws : Nat → Nat) (v : Verdict) :
    linkLoop rules id draws v =
      judgeAll .link rules.linkBlockRate draws (marksOf rules id) v >>= fun v' =>
        .ok (kept (· == id) rules.toBlock, v') :=
  eraseWhere_eq _ _ _ _

theorem linkLoop_start (rules : Rules) (id : Nat) (draws : Nat → Nat) (x : RateLimiter) :
    linkLoop rules id draws (.start x) =
      match checksAt .link rules.linkBlockRate draws 0 (marksOf rules id) with
      | some link => .ok (kept (· == id) rules.toBlock, (Verdict.start x).addAll link)
      | none => .error .outOfRange := by
  have hstart : (Verdict.start x).checks.length = 0 := rfl
  rw [linkLoop_eq, judgeAll_eq, hstart]
  cases checksAt .link rules.linkBlockRate draws 0 (marksOf rules id) <;> rfl

end WormsAttack.Limiter
