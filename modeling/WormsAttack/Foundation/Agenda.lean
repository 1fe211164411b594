/-
  Messages in the order of their times.
-/
import Mathlib.Data.List.Perm.Basic
import Mathlib.Order.Lattice

namespace WormsAttack.Foundation.Agenda

open List

variable {τ : Type} [LinearOrder τ]

def Before (a b : τ × Nat) : Prop := a.1 < b.1 ∨ a.1 = b.1 ∧ a.2 < b.2

instance decidableBefore (a b : τ × Nat) : Decidable (Before a b) :=
  inferInstanceAs (Decidable (_ ∨ _))

theorem Before.irrefl (a : τ × Nat) : ¬ Before a a := by
  rintro (h | ⟨-, h⟩)
  · exact lt_irrefl _ h
  · exact Nat.lt_irrefl _ h

theorem Before.asymm {a b : τ × Nat} (h : Before a b) : ¬ Before b a := by
  rintro (h' | ⟨htime, h'⟩)
  · rcases h with h | ⟨htime, -⟩
    · exact lt_asymm h h'
    · exact absurd htime h'.ne'
  · rcases h with h | ⟨-, h⟩
    · exact absurd htime h.ne'
    · exact Nat.lt_asymm h h'

def first : List (τ × Nat) → Option (τ × Nat)
  | [] => none
  | m :: ms =>
      match first ms with
      | none => some m
      | some m' => if m.1 ≤ m'.1 then some m else some m'

variable {ms : List (τ × Nat)} {m : τ × Nat}

theorem first_eq_none (h : first ms = none) : ms = [] := by
  cases ms with
  | nil => rfl
  | cons m ms =>
    rw [first] at h
    split at h
    · cases h
    · split at h <;> cases h

theorem mem_of_first (h : first ms = some m) : m ∈ ms := by
  induction ms with
  | nil => cases h
  | cons a ms ih =>
    rw [first] at h
    split at h
    · cases h
      exact mem_cons_self
    · rename_i m' hfirst
      split at h
      · cases h
        exact mem_cons_self
      · cases h
        exact mem_cons_of_mem a (ih hfirst)

theorem first_before (hordered : ms.Pairwise fun a b => a.2 < b.2) (h : first ms = some m) :
    ∀ b ∈ ms, b ≠ m → Before m b := by
  induction ms generalizing m with
  | nil => cases h
  | cons a ms ih =>
    obtain ⟨hhead, hordered⟩ := pairwise_cons.mp hordered
    rw [first] at h
    split at h
    · rename_i hnone
      cases h
      rw [first_eq_none hnone]
      intro b hb hne
      exact absurd (mem_singleton.mp hb) hne
    · rename_i m' hfirst
      have hrest := ih hordered hfirst
      split_ifs at h with hle
      · cases h
        intro b hb hne
        rcases mem_cons.mp hb with rfl | hb
        · exact absurd rfl hne
        -- `b` is not earlier than `m'`, and `a` was scheduled before it
        have htime : a.1 ≤ b.1 := by
          by_cases hb' : b = m'
          · rwa [hb']
          · rcases hrest b hb hb' with h | ⟨h, -⟩
            · exact hle.trans h.le
            · rwa [← h]
        rcases htime.lt_or_eq with hlt | heq
        · exact .inl hlt
        · exact .inr ⟨heq, hhead b hb⟩
      · cases h
        intro b hb hne
        rcases mem_cons.mp hb with rfl | hb
        · exact .inl (not_le.mp hle)
        · exact hrest b hb hne

/-! ## Delivery -/

def rank (all : List (τ × Nat)) (m : τ × Nat) : Nat := all.countP fun a => Before a m

/-- `k` messages have been delivered, and the pending ones come after them. -/
structure Delivered (all pending : List (τ × Nat)) (k : Nat) : Prop where
  ordered : pending.Pairwise fun a b => a.2 < b.2
  past : ∃ handled, (handled ++ pending).Perm all ∧ handled.length = k ∧
    ∀ a ∈ handled, ∀ b ∈ pending, Before a b

variable {all pending : List (τ × Nat)} {k : Nat}

theorem Delivered.none (h : all.Pairwise fun a b => a.2 < b.2) : Delivered all all 0 :=
  ⟨h, [], .refl all, rfl, fun _ ha => absurd ha not_mem_nil⟩

theorem Delivered.length (h : Delivered all pending k) : k + pending.length = all.length := by
  obtain ⟨handled, hperm, rfl, -⟩ := h.past
  rw [← hperm.length_eq, length_append]

theorem Delivered.rank_first (h : Delivered all pending k) (hfirst : first pending = some m) :
    rank all m = k := by
  obtain ⟨handled, hperm, rfl, hpast⟩ := h.past
  have hhandled : handled.countP (fun a => Before a m) = handled.length :=
    countP_eq_length.mpr fun a ha => decide_eq_true (hpast a ha m (mem_of_first hfirst))
  have hpending : pending.countP (fun a => Before a m) = 0 := by
    refine countP_eq_zero.mpr fun a ha => ?_
    rw [decide_eq_true_eq]
    by_cases heq : a = m
    · rw [heq]
      exact Before.irrefl m
    · exact (first_before h.ordered hfirst a ha heq).asymm
  rw [rank, ← hperm.countP_eq, countP_append, hhandled, hpending, Nat.add_zero]

theorem Delivered.next (h : Delivered all pending k) (hfirst : first pending = some m) :
    Delivered all (pending.erase m) (k + 1) := by
  obtain ⟨handled, hperm, rfl, hpast⟩ := h.past
  have hmem := mem_of_first hfirst
  refine ⟨h.ordered.sublist erase_sublist, handled ++ [m], ?_, by simp, ?_⟩
  · rw [append_assoc, singleton_append]
    exact ((perm_cons_erase hmem).symm.append_left handled).trans hperm
  · intro a ha b hb
    have hb' : b ∈ pending := mem_of_mem_erase hb
    rcases mem_append.mp ha with ha | ha
    · exact hpast a ha b hb'
    rw [mem_singleton.mp ha]
    have hnodup : pending.Nodup := h.ordered.imp fun hlt heq => by
      rw [heq] at hlt
      exact Nat.lt_irrefl _ hlt
    have hne : b ≠ m := by
      rintro rfl
      exact hnodup.not_mem_erase hb
    exact first_before h.ordered hfirst b hb' hne

/-! ## Numbered times -/

omit [LinearOrder τ] in
theorem ordered_zipIdx (times : List τ) (start : Nat) :
    (times.zipIdx start).Pairwise fun a b => a.2 < b.2 := by
  induction times generalizing start with
  | nil => exact .nil
  | cons t times ih =>
    refine pairwise_cons.mpr ⟨fun b hb => ?_, ih (start + 1)⟩
    exact le_snd_of_mem_zipIdx hb

end WormsAttack.Foundation.Agenda
