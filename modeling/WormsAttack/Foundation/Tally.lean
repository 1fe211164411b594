/-
  Amounts that are added up under keys.

  Each item has an amount and is filed under the keys that a relation gives it.

  Items of two kinds in one list are compared by pairing: if each item of the one kind has a
  partner of the other kind that it shares with none, there are at least as many of the other.
-/
import Mathlib.Algebra.BigOperators.Group.List.Basic
import Mathlib.Data.Finset.Card
import Mathlib.Data.Finset.Range
import Mathlib.Data.List.Induction

namespace WormsAttack.Foundation.Tally

open List

variable {α κ M : Type}

section Sum

variable [AddCommMonoid M]

def tally (filed : α → κ → Prop) [∀ x k, Decidable (filed x k)] (amount : α → M) (items : List α)
    (k : κ) : M :=
  (items.map fun x => if filed x k then amount x else 0).sum

variable (filed : α → κ → Prop) [∀ x k, Decidable (filed x k)] (amount : α → M)

theorem tally_cons (x : α) (items : List α) (k : κ) :
    tally filed amount (x :: items) k =
      (if filed x k then amount x else 0) + tally filed amount items k :=
  sum_cons

theorem tally_concat (items : List α) (x : α) (k : κ) :
    tally filed amount (items ++ [x]) k =
      tally filed amount items k + if filed x k then amount x else 0 := by
  simp [tally]

variable {filed} {amount}

theorem tally_congr {filed' : α → κ → Prop} [∀ x k, Decidable (filed' x k)] {items : List α}
    {k : κ} (h : ∀ x ∈ items, amount x = 0 ∨ (filed x k ↔ filed' x k)) :
    tally filed amount items k = tally filed' amount items k := by
  refine congrArg sum (map_congr_left fun x hx => ?_)
  rcases h x hx with hzero | hiff
  · rw [hzero, ite_self, ite_self]
  · simp only [hiff]

theorem sum_ite_eq [DecidableEq κ] {keys : List κ} (h : keys.Nodup) (k₀ : κ) (n : M) :
    (keys.map fun k => if k₀ = k then n else 0).sum = if k₀ ∈ keys then n else 0 := by
  induction keys with
  | nil => simp
  | cons k keys ih =>
    obtain ⟨hk, hkeys⟩ := nodup_cons.mp h
    rw [map_cons, sum_cons, ih hkeys]
    by_cases heq : k₀ = k
    · subst heq
      simp [hk]
    · simp [heq]

theorem sum_tally [DecidableEq κ] {keys : List κ} (h : keys.Nodup) (key : α → κ)
    (amount : α → M) (items : List α) :
    (keys.map fun k => tally (fun x k => key x = k) amount items k).sum =
      (items.map fun x => if key x ∈ keys then amount x else 0).sum := by
  induction items with
  | nil =>
    refine sum_eq_zero fun n hn => ?_
    obtain ⟨k, -, rfl⟩ := mem_map.mp hn
    rfl
  | cons x items ih =>
    have hsplit := map_congr_left (l := keys) fun k _ =>
      tally_cons (fun x k => key x = k) amount x items k
    rw [hsplit, sum_map_add, sum_ite_eq h, ih, map_cons, sum_cons]

end Sum

/-- After every item the tallies are the same exactly if each item with an amount is filed in
the same way. -/
theorem tally_take_iff [AddCommGroup M] {filed filed' : α → κ → Prop}
    [∀ x k, Decidable (filed x k)] [∀ x k, Decidable (filed' x k)] {amount : α → M}
    {items : List α} {P : κ → Prop} :
    (∀ n k, P k → tally filed amount (items.take n) k = tally filed' amount (items.take n) k) ↔
      ∀ x ∈ items, amount x = 0 ∨ ∀ k, P k → (filed x k ↔ filed' x k) := by
  constructor
  · intro h x hx
    by_cases hzero : amount x = 0
    · exact .inl hzero
    refine .inr fun k hk => ?_
    -- the tallies before the item and after it
    obtain ⟨n, hn, hget⟩ := getElem_of_mem hx
    have hbefore := h n k hk
    have hafter := h (n + 1) k hk
    rw [take_succ_eq_append_getElem hn, hget, tally_concat, tally_concat, hbefore] at hafter
    have hsame := add_left_cancel hafter
    by_cases hfiled : filed x k
    · by_cases hfiled' : filed' x k
      · exact iff_of_true hfiled hfiled'
      · rw [if_pos hfiled, if_neg hfiled'] at hsame
        exact absurd hsame hzero
    · by_cases hfiled' : filed' x k
      · rw [if_neg hfiled, if_pos hfiled'] at hsame
        exact absurd hsame.symm hzero
      · exact iff_of_false hfiled hfiled'
  · intro h n k hk
    exact tally_congr fun x hx => (h x (mem_of_mem_take hx)).imp_right fun hall => hall k hk

/-! ## Pairing -/

section Pairing

variable {p q : α → Bool} {items : List α}

theorem card_positions (p : α → Bool) (items : List α) :
    ((Finset.range items.length).filter fun i => items[i]?.any p = true).card =
      items.countP p := by
  induction items using reverseRecOn with
  | nil => rfl
  | append_singleton items x ih =>
    have hbefore : ((Finset.range items.length).filter fun i =>
        (items ++ [x])[i]?.any p = true) =
        (Finset.range items.length).filter fun i => items[i]?.any p = true := by
      refine Finset.filter_congr fun i hi => ?_
      rw [getElem?_append_left (Finset.mem_range.mp hi)]
    have hlast : (items ++ [x])[items.length]? = some x := getElem?_concat_length
    rw [length_append, length_singleton, Finset.range_add_one, Finset.filter_insert,
      hbefore, hlast, Option.any_some, countP_append, countP_singleton, ← ih]
    split
    · exact Finset.card_insert_of_notMem (by simp)
    · rfl

theorem countP_le_of_pairing (partner : Nat → Nat)
    (hpartner : ∀ i x, items[i]? = some x → p x = true →
      ∃ y, items[partner i]? = some y ∧ q y = true)
    (hown : ∀ i j x y, items[i]? = some x → p x = true → items[j]? = some y → p y = true →
      partner i = partner j → i = j) :
    items.countP p ≤ items.countP q := by
  have hany : ∀ {r : α → Bool} {i : Nat},
      (i ∈ (Finset.range items.length).filter fun i => items[i]?.any r = true) ↔
        ∃ x, items[i]? = some x ∧ r x = true := by
    intro r i
    rw [Finset.mem_filter, Finset.mem_range, Option.any_eq_true]
    refine and_iff_right_of_imp ?_
    rintro ⟨x, hx, -⟩
    exact (List.getElem?_eq_some_iff.mp hx).1
  rw [← card_positions p, ← card_positions q]
  refine Finset.card_le_card_of_injOn partner ?_ ?_
  · intro i hi
    obtain ⟨x, hx, hpx⟩ := hany.mp hi
    exact hany.mpr (hpartner i x hx hpx)
  · intro i hi j hj heq
    obtain ⟨x, hx, hpx⟩ := hany.mp hi
    obtain ⟨y, hy, hpy⟩ := hany.mp hj
    exact hown i j x y hx hpx hy hpy heq

end Pairing

end WormsAttack.Foundation.Tally
