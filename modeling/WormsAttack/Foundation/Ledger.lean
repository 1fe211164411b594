/-
  Keyed logs that are opened, extended and closed.

  A ledger is a history of two operations, newest first: `post k p` files the item `p` under the
  key `k`, and `close k` ends the log of `k`.  This is what a cache does that accumulates items
  per key and evicts whole entries.
-/
import Mathlib.Data.List.Basic
import Mathlib.Data.List.Perm.Basic
import Mathlib.Data.List.Nodup

namespace WormsAttack.Foundation

open List

inductive Posting (κ π : Type)
  | post (k : κ) (p : π)
  | close (k : κ)

namespace Ledger

variable {κ π : Type}

def posted : List (Posting κ π) → List π
  | [] => []
  | .post _ p :: h => posted h ++ [p]
  | .close _ :: h => posted h

variable [DecidableEq κ]

/-- The items posted under `k` since `k` was last closed, oldest first. -/
def openLog (k : κ) : List (Posting κ π) → List π
  | [] => []
  | .post k' p :: h => if k' = k then openLog k h ++ [p] else openLog k h
  | .close k' :: h => if k' = k then [] else openLog k h

/-- The logs ended so far with their keys, newest first. -/
def closedLogs : List (Posting κ π) → List (κ × List π)
  | [] => []
  | .post _ _ :: h => closedLogs h
  | .close k :: h => (k, openLog k h) :: closedLogs h

@[simp] theorem openLog_post_self (k : κ) (p : π) (h : List (Posting κ π)) :
    openLog k (.post k p :: h) = openLog k h ++ [p] := by
  simp [openLog]

theorem openLog_post_ne {k k' : κ} (hne : k' ≠ k) (p : π) (h : List (Posting κ π)) :
    openLog k (.post k' p :: h) = openLog k h := by
  simp [openLog, hne]

@[simp] theorem openLog_close_self (k : κ) (h : List (Posting κ π)) :
    openLog k (.close k :: h) = [] := by
  simp [openLog]

theorem openLog_close_ne {k k' : κ} (hne : k' ≠ k) (h : List (Posting κ π)) :
    openLog k (.close k' :: h) = openLog k h := by
  simp [openLog, hne]

theorem openLog_closes (k : κ) (ks : List κ) (h : List (Posting κ π)) :
    openLog k (ks.map .close ++ h) = if k ∈ ks then [] else openLog k h := by
  induction ks with
  | nil => simp
  | cons j ks ih =>
    rw [map_cons, cons_append]
    by_cases hj : j = k
    · subst hj
      simp
    · rw [openLog_close_ne hj, ih]
      simp [Ne.symm hj]

theorem forall_mem_openLog {Q : κ → π → Prop} {k : κ} :
    ∀ {h : List (Posting κ π)}, (∀ k' p, Posting.post k' p ∈ h → Q k' p) →
      ∀ p ∈ openLog k h, Q k p := by
  intro h
  induction h with
  | nil => intro _ p hp; simp [openLog] at hp
  | cons op h ih =>
    intro hall p hp
    have htail : ∀ k' p, Posting.post k' p ∈ h → Q k' p :=
      fun k' p hmem => hall k' p (mem_cons_of_mem _ hmem)
    cases op with
    | post k' q =>
      by_cases hk : k' = k
      · subst hk
        rw [openLog_post_self, mem_append, mem_singleton] at hp
        rcases hp with hp | rfl
        · exact ih htail p hp
        · exact hall k' p mem_cons_self
      · rw [openLog_post_ne hk] at hp
        exact ih htail p hp
    | close k' =>
      by_cases hk : k' = k
      · subst hk
        simp at hp
      · rw [openLog_close_ne hk] at hp
        exact ih htail p hp

/-! ## The partition theorem -/

theorem flatMap_openLog_post {ks : List κ} (hnodup : ks.Nodup) {k : κ} (hk : k ∈ ks)
    (p : π) (h : List (Posting κ π)) :
    (ks.flatMap fun j => openLog j (.post k p :: h)).Perm
      ((ks.flatMap fun j => openLog j h) ++ [p]) := by
  induction ks with
  | nil => cases hk
  | cons j ks ih =>
    obtain ⟨hj, hks⟩ := nodup_cons.mp hnodup
    simp only [flatMap_cons]
    by_cases hjk : k = j
    · subst hjk
      -- The other keys are different from `k`, so their logs do not change.
      have hrest : (ks.flatMap fun j => openLog j (.post k p :: h)) =
          ks.flatMap fun j => openLog j h := by
        apply flatMap_congr
        intro i hi
        have hne : k ≠ i := by
          rintro rfl
          exact hj hi
        exact openLog_post_ne hne p h
      rw [openLog_post_self, hrest, append_assoc, append_assoc]
      exact List.Perm.append_left _ perm_append_comm
    · have hmem : k ∈ ks := (mem_cons.mp hk).resolve_left hjk
      rw [openLog_post_ne hjk, append_assoc]
      exact List.Perm.append_left _ (ih hks hmem)

theorem flatMap_openLog_close {ks : List κ} (hnodup : ks.Nodup) (k : κ) (h : List (Posting κ π)) :
    (ks.flatMap fun j => openLog j (.close k :: h)).Perm
      ((ks.erase k).flatMap fun j => openLog j h) := by
  have hother : ((ks.erase k).flatMap fun j => openLog j (.close k :: h)) =
      (ks.erase k).flatMap fun j => openLog j h := by
    apply flatMap_congr
    intro j hj
    exact openLog_close_ne (hnodup.mem_erase_iff.mp hj).1.symm h
  by_cases hk : k ∈ ks
  · have hsplit := (perm_cons_erase hk).flatMap_right
      fun j => openLog j (.close k :: h)
    rw [flatMap_cons, openLog_close_self, nil_append, hother] at hsplit
    exact hsplit
  · rw [erase_of_not_mem hk] at hother ⊢
    rw [hother]

/-- The closed logs and the logs of the keys that are still open hold every
posted item exactly once. -/
theorem posted_perm_logs (h : List (Posting κ π)) :
    ∀ {ks : List κ}, ks.Nodup → (∀ k, openLog k h ≠ [] → k ∈ ks) →
      (posted h).Perm
        ((closedLogs h).flatMap Prod.snd ++ ks.flatMap fun k => openLog k h) := by
  induction h with
  | nil => intro ks _ _; simp [posted, closedLogs, openLog]
  | cons op h ih =>
    intro ks hnodup hcover
    cases op with
    | post k p =>
      have hk : k ∈ ks := hcover k (by simp)
      have hcover' : ∀ j, openLog j h ≠ [] → j ∈ ks := by
        intro j hj
        by_cases hjk : k = j
        · exact hjk ▸ hk
        · exact hcover j (by rw [openLog_post_ne hjk]; exact hj)
      refine ((ih hnodup hcover').append_right [p]).trans ?_
      rw [append_assoc]
      exact List.Perm.append_left _ (flatMap_openLog_post hnodup hk p h).symm
    | close k =>
      have hnodup' : (k :: ks.erase k).Nodup :=
        nodup_cons.mpr ⟨hnodup.not_mem_erase, hnodup.erase k⟩
      have hcover' : ∀ j, openLog j h ≠ [] → j ∈ k :: ks.erase k := by
        intro j hj
        by_cases hjk : k = j
        · exact hjk ▸ mem_cons_self
        · have hmem := hcover j (by rw [openLog_close_ne hjk]; exact hj)
          exact mem_cons_of_mem k ((mem_erase_of_ne (Ne.symm hjk)).mpr hmem)
      have hlogs := ih hnodup' hcover'
      rw [flatMap_cons, ← append_assoc] at hlogs
      refine hlogs.trans (List.Perm.append ?_ (flatMap_openLog_close hnodup k h).symm)
      exact perm_append_comm

/-! ## Tables that keep the first item

A table that enters an item for a key without an entry, ignores an item for a key
with one, and loses entries when logs are closed. -/

/-- The table holds, for each open log, its key with the first item of the log. -/
structure KeepsFirst (h : List (Posting κ π)) (entries : List (κ × π)) : Prop where
  nodup : (entries.map Prod.fst).Nodup
  open_iff : ∀ k, k ∈ entries.map Prod.fst ↔ openLog k h ≠ []
  first : ∀ e ∈ entries, (openLog e.1 h).head? = some e.2

namespace KeepsFirst

variable {h : List (Posting κ π)} {entries : List (κ × π)}

theorem nil : KeepsFirst ([] : List (Posting κ π)) [] := by
  constructor <;> simp [openLog]

theorem post_new (hk : KeepsFirst h entries) {k : κ} (hnew : k ∉ entries.map Prod.fst) (p : π) :
    KeepsFirst (.post k p :: h) (entries ++ [(k, p)]) := by
  have hclosed : openLog k h = [] := by
    by_contra hopen
    exact hnew ((hk.open_iff k).mpr hopen)
  constructor
  · rw [map_append, nodup_append]
    refine ⟨hk.nodup, by simp, ?_⟩
    intro a ha b hb hab
    have hb : b = k := mem_singleton.mp hb
    exact hnew (hb ▸ hab ▸ ha)
  · intro j
    by_cases hj : k = j
    · subst hj
      simp
    · rw [openLog_post_ne hj, ← hk.open_iff j]
      simp [Ne.symm hj]
  · intro e he
    rcases mem_append.mp he with hold | he
    · have hne : k ≠ e.1 := by
        intro hke
        exact hnew (hke ▸ mem_map_of_mem hold)
      rw [openLog_post_ne hne]
      exact hk.first e hold
    · cases mem_singleton.mp he
      rw [openLog_post_self, hclosed]
      rfl

theorem post_known (hk : KeepsFirst h entries) {k : κ} (hknown : k ∈ entries.map Prod.fst)
    (p : π) : KeepsFirst (.post k p :: h) entries := by
  refine ⟨hk.nodup, ?_, ?_⟩
  · intro j
    by_cases hj : k = j
    · subst hj
      simp [hknown]
    · rw [openLog_post_ne hj]
      exact hk.open_iff j
  · intro e he
    have hfirst := hk.first e he
    by_cases hj : k = e.1
    · rw [hj, openLog_post_self, head?_append, hfirst]
      rfl
    · rw [openLog_post_ne hj]
      exact hfirst

theorem close (hk : KeepsFirst h entries) {rest : List (κ × π)} (hrest : rest.Sublist entries)
    {closed : List κ} (hclosed : ∀ k, k ∈ closed ↔
      k ∈ entries.map Prod.fst ∧ k ∉ rest.map Prod.fst) :
    KeepsFirst (closed.map .close ++ h) rest := by
  have hsub : (rest.map Prod.fst).Sublist (entries.map Prod.fst) := hrest.map Prod.fst
  refine ⟨hsub.nodup hk.nodup, ?_, ?_⟩
  · intro k
    rw [openLog_closes]
    split_ifs with hmem
    · simp [((hclosed k).mp hmem).2]
    rw [← hk.open_iff k]
    constructor
    · exact fun hkept => hsub.subset hkept
    · intro hentry
      by_contra hgone
      exact hmem ((hclosed k).mpr ⟨hentry, hgone⟩)
  · intro e he
    have hopen : e.1 ∉ closed := fun hmem => ((hclosed e.1).mp hmem).2 (mem_map_of_mem he)
    rw [openLog_closes, if_neg hopen]
    exact hk.first e (hrest.subset he)

end KeepsFirst

end Ledger

end WormsAttack.Foundation
