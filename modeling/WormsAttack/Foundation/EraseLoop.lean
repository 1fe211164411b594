/-
  Loops that erase from the vector they scan.

      for (i = 0; i < v.size(); i++)
          if (p(v[i])) { v.erase(v.begin() + i); body(i); }

  The loop never looks at the element that moves into the position it has just erased.
  `eraseLoop` is the loop by index; `kept` and `hits` say by recursion on the list what is left
  and where the loop hit.

      do {
          deleted = false;
          for (i = v.begin(); i != v.end(); i++)
              if (p(*i)) { body(*i); v.erase(i); deleted = true; break; }
      } while (deleted);

  This loop scans from the front again after every erasure and leaves a plain filter.
-/
import Mathlib.Data.List.Nodup
import WormsAttack.Foundation.Run

namespace WormsAttack.Foundation

open List

variable {α β φ : Type}

/-- The loop from index `i` on. As many rounds as the vector is long are enough. -/
def eraseLoop (p : α → Bool) (body : Nat → β → Except φ β) :
    (rounds i : Nat) → List α → β → Except φ (List α × β)
  | 0, _, v, acc => .ok (v, acc)
  | rounds + 1, i, v, acc =>
      match v[i]? with
      | none => .ok (v, acc)
      | some x =>
          if p x then do
            let acc ← body i acc
            eraseLoop p body rounds (i + 1) (v.eraseIdx i) acc
          else eraseLoop p body rounds (i + 1) v acc

def eraseWhere (p : α → Bool) (body : Nat → β → Except φ β) (v : List α) (acc : β) :
    Except φ (List α × β) :=
  eraseLoop p body v.length 0 v acc

/-- What the loop leaves: an element that follows an erased one stays. -/
def kept (p : α → Bool) : List α → List α
  | [] => []
  | [x] => if p x then [] else [x]
  | x :: y :: rest => if p x then y :: kept p rest else x :: kept p (y :: rest)

/-- The positions at which the loop erases, counted from `i`; each is the position
at the moment of the erasure. -/
def hits (p : α → Bool) : Nat → List α → List Nat
  | _, [] => []
  | i, [x] => if p x then [i] else []
  | i, x :: y :: rest => if p x then i :: hits p (i + 1) rest else hits p (i + 1) (y :: rest)

/-! ## The loop in terms of its hits -/

section Rounds

variable {p : α → Bool} {body : Nat → β → Except φ β} {x : α}

theorem eraseLoop_hit (hx : p x = true) (before rest : List α) (rounds : Nat) (acc : β) :
    eraseLoop p body (rounds + 1) before.length (before ++ x :: rest) acc =
      body before.length acc >>= fun acc =>
        eraseLoop p body rounds (before.length + 1) (before ++ rest) acc := by
  have hget : (before ++ x :: rest)[before.length]? = some x := by simp
  have herase : (before ++ x :: rest).eraseIdx before.length = before ++ rest := by
    rw [eraseIdx_append_of_length_le (Nat.le_refl _), Nat.sub_self, eraseIdx_zero, tail_cons]
  simp only [eraseLoop, hget, hx, if_true, herase]

theorem eraseLoop_miss (hx : p x = false) (before rest : List α) (rounds : Nat) (acc : β) :
    eraseLoop p body (rounds + 1) before.length (before ++ x :: rest) acc =
      eraseLoop p body rounds (before.length + 1) (before ++ x :: rest) acc := by
  have hget : (before ++ x :: rest)[before.length]? = some x := by simp
  simp only [eraseLoop, hget, hx, Bool.false_eq_true, if_false]

theorem eraseLoop_end (v : List α) (rounds i : Nat) (hi : v.length ≤ i) (acc : β) :
    eraseLoop p body rounds i v acc = .ok (v, acc) := by
  cases rounds with
  | zero => rfl
  | succ rounds =>
    have hget : v[i]? = none := getElem?_eq_none hi
    simp only [eraseLoop, hget]

end Rounds

variable (p : α → Bool)

include p

theorem eraseLoop_eq (body : Nat → β → Except φ β) (v : List α) :
    ∀ (before : List α) (rounds : Nat) (acc : β), v.length ≤ rounds →
      eraseLoop p body rounds before.length (before ++ v) acc =
        (hits p before.length v).foldlM (fun acc i => body i acc) acc >>= fun acc' =>
          .ok (before ++ kept p v, acc') := by
  -- `kept` and `hits` step over one element or, after an erasure, over two
  induction v using kept.induct p with
  | case1 =>
    intro before rounds acc _
    rw [eraseLoop_end _ _ _ (by simp)]
    rfl
  | case2 x hx =>
    intro before rounds acc hlen
    obtain ⟨rounds, rfl⟩ := Nat.exists_eq_add_one.mpr hlen
    rw [eraseLoop_hit hx]
    simp only [hits, kept, hx, if_true, foldlM_cons, foldlM_nil, append_nil]
    cases body before.length acc with
    | error f => rfl
    | ok acc' => exact eraseLoop_end _ _ _ (by simp) _
  | case3 x hx =>
    intro before rounds acc hlen
    obtain ⟨rounds, rfl⟩ := Nat.exists_eq_add_one.mpr hlen
    rw [eraseLoop_miss (by simpa using hx), eraseLoop_end _ _ _ (by simp)]
    simp [hits, kept, hx, pure, Except.pure, bind, Except.bind]
  | case4 x y rest hx ih =>
    intro before rounds acc hlen
    obtain ⟨rounds, rfl⟩ := Nat.exists_eq_add_one.mpr (Nat.lt_of_lt_of_le (Nat.zero_lt_succ _) hlen)
    rw [eraseLoop_hit hx]
    simp only [hits, kept, hx, if_true, foldlM_cons]
    cases body before.length acc with
    | error f => rfl
    | ok acc' =>
      have hrest := ih (before ++ [y]) rounds acc' (by simp at hlen; omega)
      simp only [length_append, length_singleton, append_assoc, singleton_append] at hrest
      exact hrest
  | case5 x y rest hx ih =>
    intro before rounds acc hlen
    obtain ⟨rounds, rfl⟩ := Nat.exists_eq_add_one.mpr (Nat.lt_of_lt_of_le (Nat.zero_lt_succ _) hlen)
    rw [eraseLoop_miss (by simpa using hx)]
    have hrest := ih (before ++ [x]) rounds acc (by simp at hlen ⊢; omega)
    simpa [hits, kept, hx] using hrest

theorem eraseWhere_eq (body : Nat → β → Except φ β) (v : List α) (acc : β) :
    eraseWhere p body v acc =
      (hits p 0 v).foldlM (fun acc i => body i acc) acc >>= fun acc' => .ok (kept p v, acc') := by
  have h := eraseLoop_eq p body v [] v.length acc (Nat.le_refl _)
  simpa [eraseWhere] using h

/-! ## What is kept -/

variable (v : List α)

include v

theorem kept_sublist : (kept p v).Sublist v := by
  induction v using kept.induct p with
  | case1 => exact .slnil
  | case2 x hx | case3 x hx => simp [kept, hx]
  | case4 x y rest hx ih =>
    simp only [kept, hx, if_true]
    exact (ih.cons_cons y).cons x
  | case5 x y rest hx ih =>
    simp only [kept, hx, Bool.false_eq_true, if_false]
    exact ih.cons_cons x

theorem length_kept_add_hits : ∀ i, (kept p v).length + (hits p i v).length = v.length := by
  induction v using kept.induct p with
  | case1 => intro i; rfl
  | case2 x hx | case3 x hx => intro i; simp [kept, hits, hx]
  | case4 x y rest hx ih =>
    intro i
    have hrest := ih (i + 1)
    simp only [kept, hits, hx, if_true, length_cons]
    omega
  | case5 x y rest hx ih =>
    intro i
    have hrest := ih (i + 1)
    simp only [kept, hits, hx, Bool.false_eq_true, if_false, length_cons] at hrest ⊢
    omega

theorem kept_of_forall (h : ∀ x ∈ v, p x = false) : kept p v = v ∧ ∀ i, hits p i v = [] := by
  induction v using kept.induct p with
  | case1 => exact ⟨rfl, fun _ => rfl⟩
  | case2 x hx | case4 x y rest hx ih => simp [h x] at hx
  | case3 x hx => simp [kept, hits, hx]
  | case5 x y rest hx ih =>
    obtain ⟨hkept, hhits⟩ := ih fun z hz => h z (mem_cons_of_mem x hz)
    simp [kept, hits, hx, hkept, hhits]

theorem hits_ne_nil (h : ∃ x ∈ v, p x = true) : ∀ i, hits p i v ≠ [] := by
  induction v using kept.induct p with
  | case1 => simp at h
  | case2 x hx | case4 x y rest hx ih => simp [hits, hx]
  | case3 x hx => simp [hx] at h
  | case5 x y rest hx ih =>
    intro i
    simp only [hits, hx, Bool.false_eq_true, if_false]
    refine ih ?_ (i + 1)
    obtain ⟨z, hz, hpz⟩ := h
    rcases mem_cons.mp hz with rfl | hz
    · exact absurd hpz hx
    · exact ⟨z, hz, hpz⟩

theorem kept_eq_self_iff : kept p v = v ↔ ∀ x ∈ v, p x = false := by
  constructor
  · intro h x hx
    have hlength := length_kept_add_hits p v 0
    rw [h] at hlength
    have hnil : hits p 0 v = [] := eq_nil_of_length_eq_zero (by omega)
    cases hpx : p x with
    | false => rfl
    | true => exact absurd hnil (hits_ne_nil p v ⟨x, hx, hpx⟩ 0)
  · intro h
    exact (kept_of_forall p v h).1

theorem filter_not_kept : (kept p v).filter (fun x => !p x) = v.filter fun x => !p x := by
  induction v using kept.induct p with
  | case1 => rfl
  | case2 x hx | case3 x hx => simp [kept, hx]
  | case4 x y rest hx ih =>
    simp only [kept, hx, if_true, filter_cons, ih]
    rfl
  | case5 x y rest hx ih =>
    have hx' : p x = false := Bool.eq_false_iff.mpr hx
    simp only [kept, hx', Bool.false_eq_true, if_false]
    rw [filter_cons_of_pos (by simp [hx']), filter_cons_of_pos (by simp [hx']), ih]

/-- A loop that erases what it should keep and keeps what it should erase is right for the
empty vector only. -/
theorem kept_eq_filter_iff : kept p v = v.filter p ↔ v = [] := by
  constructor
  · intro h
    have hnone : v.filter (fun x => !p x) = [] := by
      rw [← filter_not_kept p v, h, filter_filter]
      simp
    have hall : v.filter p = v := by
      refine filter_eq_self.mpr fun x hx => ?_
      simpa using filter_eq_nil_iff.mp hnone x hx
    have hkept := (kept_eq_self_iff p v).mp (h.trans hall)
    refine eq_nil_iff_forall_not_mem.mpr fun x hx => ?_
    rw [← hall] at hx
    obtain ⟨hmem, hp⟩ := mem_filter.mp hx
    exact Bool.false_ne_true ((hkept x hmem).symm.trans hp)
  · rintro rfl
    rfl

omit v p

/-! ## Erasing one value -/

section OneValue

variable [DecidableEq α] {a : α}

theorem beq_false_of_nodup {x y : α} {rest : List α} (hnodup : (x :: y :: rest).Nodup) :
    ∀ z ∈ rest, (z == x) = false := by
  intro z hz
  have hne : z ≠ x := by
    rintro rfl
    exact (nodup_cons.mp hnodup).1 (mem_cons_of_mem y hz)
  exact beq_false_of_ne hne

theorem kept_eq_erase (v : List α) (hnodup : v.Nodup) : kept (· == a) v = v.erase a := by
  induction v using kept.induct (· == a) with
  | case1 => rfl
  | case2 x hx =>
    have hxa : x = a := by simpa using hx
    simp [kept, hxa]
  | case3 x hx => simp [kept, hx]
  | case4 x y rest hx ih =>
    have hxa : x = a := by simpa using hx
    subst hxa
    have hnone := beq_false_of_nodup hnodup
    simp [kept, (kept_of_forall _ rest hnone).1]
  | case5 x y rest hx ih =>
    have hne : x ≠ a := by simpa using hx
    rw [erase_cons_tail (by simpa using hx), ← ih (nodup_cons.mp hnodup).2]
    simp [kept, hne]

theorem hits_eq_idxOf (v : List α) (hnodup : v.Nodup) (hmem : a ∈ v) :
    ∀ i, hits (· == a) i v = [i + v.idxOf a] := by
  induction v using kept.induct (· == a) with
  | case1 => cases hmem
  | case2 x hx => intro i; simp [hits, hx, idxOf_cons]
  | case3 x hx =>
    exact absurd (mem_singleton.mp hmem).symm (by simpa using hx)
  | case4 x y rest hx ih =>
    have hxa : x = a := by simpa using hx
    subst hxa
    have hnone := beq_false_of_nodup hnodup
    simp [hits, (kept_of_forall _ rest hnone).2]
  | case5 x y rest hx ih =>
    intro i
    have hne : x ≠ a := by simpa using hx
    have hmem' : a ∈ y :: rest := (mem_cons.mp hmem).resolve_left hne.symm
    have hrest := ih (nodup_cons.mp hnodup).2 hmem' (i + 1)
    rw [idxOf_cons_ne _ hne]
    simp only [hits, hx, Bool.false_eq_true, if_false, hrest, cons.injEq, and_true]
    omega

end OneValue

/-! ## Two vectors in step

The loop that erases from a second vector at the same positions. -/

section Parallel

variable {γ : Type}

/-- `r.erase(r.begin() + i)`, with `fault` when there is no such position. -/
def eraseAt (fault : φ) (i : Nat) (r : List γ) : Except φ (List γ) :=
  if i < r.length then .ok (r.eraseIdx i) else .error fault

theorem eraseAt_append (fault : φ) (before : List γ) (c : γ) (rest : List γ) :
    eraseAt fault before.length (before ++ c :: rest) = .ok (before ++ rest) := by
  have hlt : before.length < (before ++ c :: rest).length := by simp
  rw [eraseAt, if_pos hlt, eraseIdx_append_of_length_le (Nat.le_refl _), Nat.sub_self,
    eraseIdx_zero, tail_cons]

theorem foldlM_hits_eraseAt (fault : φ) (p : α × γ → Bool) (es : List (α × γ)) :
    ∀ before : List γ,
      (hits p before.length es).foldlM (fun r i => eraseAt fault i r)
          (before ++ es.map Prod.snd) =
        .ok (before ++ (kept p es).map Prod.snd) := by
  induction es using kept.induct p with
  | case1 => intro before; rfl
  | case2 e he =>
    simp only [hits, he, if_true, foldlM_cons, map_cons, eraseAt_append]
    simp [kept, he, bind, Except.bind, pure, Except.pure]
  | case3 e he =>
    simp [hits, kept, he, pure, Except.pure]
  | case4 e next rest he ih =>
    intro before
    have hrest := ih (before ++ [next.2])
    simp only [length_append, length_singleton, append_assoc, singleton_append] at hrest
    simp only [hits, he, if_true, foldlM_cons, map_cons, eraseAt_append, kept]
    exact hrest
  | case5 e next rest he ih =>
    intro before
    have hrest := ih (before ++ [e.2])
    simp only [length_append, length_singleton, append_assoc, singleton_append] at hrest
    simp only [hits, he, Bool.false_eq_true, if_false, kept, map_cons]
    exact hrest

theorem kept_map (f : γ → α) (p : α → Bool) (es : List γ) :
    (kept (p ∘ f) es).map f = kept p (es.map f) ∧
      ∀ i, hits (p ∘ f) i es = hits p i (es.map f) := by
  induction es using kept.induct (p ∘ f) with
  | case1 => exact ⟨rfl, fun _ => rfl⟩
  | case2 e he | case3 e he | case4 e next rest he ih | case5 e next rest he ih =>
    simp_all [kept, hits]

/-- Two vectors of one length lose the same entries: the loop works on the pairs. -/
theorem eraseWhere_parallel (fault : φ) (p : α → Bool) (v : List α) (r : List γ)
    (hr : v.length = r.length) :
    eraseWhere p (eraseAt fault) v r =
      .ok ((kept (fun e => p e.1) (v.zip r)).map Prod.fst,
        (kept (fun e => p e.1) (v.zip r)).map Prod.snd) := by
  have hfst : (v.zip r).map Prod.fst = v := map_fst_zip (Nat.le_of_eq hr)
  have hsnd : (v.zip r).map Prod.snd = r := map_snd_zip (Nat.le_of_eq hr.symm)
  obtain ⟨hkept, hhits⟩ := kept_map Prod.fst p (v.zip r)
  have hfold := foldlM_hits_eraseAt fault (p ∘ Prod.fst) (v.zip r) []
  rw [hfst] at hkept hhits
  rw [hhits, hsnd, nil_append, nil_append] at hfold
  rw [eraseWhere_eq, ← hkept]
  exact bind_eq_ok.mpr ⟨_, hfold, rfl⟩

end Parallel

/-! ## Scanning from the front after every erasure -/

section Restart

/-- A round erases the first hit, and one without a hit is the last. -/
def restartLoop (p : α → Bool) (body : α → β → β) : (rounds : Nat) → List α → β → List α × β
  | 0, v, acc => (v, acc)
  | rounds + 1, v, acc =>
      match v.find? p with
      | none => (v, acc)
      | some x => restartLoop p body rounds (v.eraseP p) (body x acc)

def restartWhere (p : α → Bool) (body : α → β → β) (v : List α) (acc : β) : List α × β :=
  restartLoop p body v.length v acc

theorem exists_first_hit {p : α → Bool} {v : List α} {x : α} (hfind : v.find? p = some x) :
    ∃ before rest, (∀ y ∈ before, p y = false) ∧ p x = true ∧ v = before ++ x :: rest ∧
      v.eraseP p = before ++ rest := by
  obtain ⟨hpx, before, rest, rfl, hbefore⟩ := find?_eq_some_iff_append.mp hfind
  have hnot : ∀ y ∈ before, p y = false := by simpa using hbefore
  refine ⟨before, rest, hnot, hpx, rfl, ?_⟩
  rw [eraseP_append_right _ (by simpa using hnot), eraseP_cons_of_pos hpx]

theorem restartLoop_eq (p : α → Bool) (body : α → β → β) :
    ∀ (rounds : Nat) (v : List α) (acc : β), v.length ≤ rounds →
      restartLoop p body rounds v acc =
        (v.filter (fun x => !p x), (v.filter p).foldl (fun acc x => body x acc) acc) := by
  intro rounds
  induction rounds with
  | zero =>
    intro v acc hlen
    rw [eq_nil_of_length_eq_zero (Nat.le_zero.mp hlen)]
    rfl
  | succ rounds ih =>
    intro v acc hlen
    cases hfind : v.find? p with
    | none =>
      have hnone : ∀ x ∈ v, p x = false := by simpa using hfind
      have hkeep : v.filter (fun x => !p x) = v :=
        filter_eq_self.mpr fun x hx => by rw [hnone x hx]; rfl
      have hdrop : v.filter p = [] :=
        filter_eq_nil_iff.mpr fun x hx => by rw [hnone x hx]; exact Bool.false_ne_true
      simp only [restartLoop, hfind, hkeep, hdrop, foldl_nil]
    | some x =>
      obtain ⟨before, rest, hbefore, hpx, rfl, herase⟩ := exists_first_hit hfind
      have hdrop : before.filter p = [] :=
        filter_eq_nil_iff.mpr fun y hy => by rw [hbefore y hy]; exact Bool.false_ne_true
      simp only [restartLoop, hfind, herase]
      rw [ih _ _ (by simp at hlen ⊢; omega)]
      simp [filter_append, hpx, hdrop]

theorem restartWhere_eq (p : α → Bool) (body : α → β → β) (v : List α) (acc : β) :
    restartWhere p body v acc =
      (v.filter (fun x => !p x), (v.filter p).foldl (fun acc x => body x acc) acc) :=
  restartLoop_eq p body v.length v acc (Nat.le_refl _)

end Restart

end WormsAttack.Foundation
