/-
  Searching for a pattern in a text made of parts.

  The text may be a sequence of parts joined by a separator, as a path is.  A pattern without
  the separator is then searched part by part.
-/
import Mathlib.Data.List.Infix
import Mathlib.Data.List.Basic

namespace WormsAttack.Foundation

open List

section Search

variable {α : Type} [DecidableEq α]

def after? (pattern : List α) : List α → Option (List α)
  | [] => if pattern = [] then some [] else none
  | c :: cs =>
      if pattern <+: c :: cs then some ((c :: cs).drop pattern.length) else after? pattern cs

variable {pattern : List α}

theorem after?_isSome : ∀ {text : List α}, (after? pattern text).isSome ↔ pattern <:+: text := by
  intro text
  induction text with
  | nil =>
    rw [infix_nil, after?]
    split <;> simp_all
  | cons c cs ih =>
    rw [infix_cons_iff, ← ih, after?]
    split <;> simp_all

variable {text : List α}

theorem after?_eq_none : after? pattern text = none ↔ ¬ pattern <:+: text := by
  rw [← after?_isSome, Option.not_isSome_iff_eq_none]

theorem after?_append {rest : List α} (more : List α) : ∀ {text : List α},
    after? pattern text = some rest → after? pattern (text ++ more) = some (rest ++ more) := by
  intro text
  induction text with
  | nil =>
    intro h
    obtain ⟨hnil, h⟩ := Option.ite_none_right_eq_some.mp h
    cases h
    subst hnil
    cases more <;> simp [after?]
  | cons c cs ih =>
    intro h
    rw [after?] at h
    split_ifs at h with hpre
    · cases h
      have hpre' : pattern <+: c :: (cs ++ more) := hpre.trans (prefix_append _ _)
      rw [cons_append, after?, if_pos hpre', ← cons_append, drop_append_of_le_length hpre.length_le]
    · have hin : pattern <:+: cs := after?_isSome.mp (by rw [h]; rfl)
      have hnot : ¬ pattern <+: c :: (cs ++ more) := by
        intro hpre'
        refine hpre (prefix_of_prefix_length_le hpre' (prefix_append (c :: cs) more) ?_)
        exact hin.length_le.trans (Nat.le_succ _)
      rw [cons_append, after?, if_neg hnot, ih h]

variable {sep : α}

theorem after?_skip (hne : pattern ≠ []) (hsep : sep ∉ pattern) (more : List α) :
    ∀ {text : List α}, after? pattern text = none →
      after? pattern (text ++ sep :: more) = after? pattern more := by
  intro text
  induction text with
  | nil =>
    intro _
    have hnot : ¬ pattern <+: sep :: more := by
      intro hpre
      obtain ⟨c, cs, rfl⟩ := exists_cons_of_ne_nil hne
      have hc := (cons_prefix_cons.mp hpre).1
      exact hsep (hc ▸ mem_cons_self)
    rw [nil_append, after?, if_neg hnot]
  | cons c cs ih =>
    intro h
    rw [after?_eq_none, infix_cons_iff, not_or] at h
    have hnot : ¬ pattern <+: c :: (cs ++ sep :: more) := by
      intro hpre
      rcases prefix_or_prefix_of_prefix hpre (prefix_append (c :: cs) _) with
        hshort | ⟨tail, htail⟩
      · exact h.1 hshort
      subst htail
      have htail := (prefix_append_right_inj _).mp hpre
      cases tail with
      | nil => exact h.1 (by simp)
      | cons x xs =>
        have hx := (cons_prefix_cons.mp htail).1
        exact hsep (by simp [hx])
    rw [cons_append, after?, if_neg hnot, ih (after?_eq_none.mpr h.2)]

/-! ## Joined parts -/

variable {part : List α}

theorem after?_intercalate (hne : pattern ≠ []) (hsep : sep ∉ pattern) {rest : List α}
    (hpart : after? pattern part = some rest) (parts : List (List α)) :
    ∀ {before : List (List α)}, (∀ p ∈ before, ¬ pattern <:+: p) →
      ∃ tail, (tail = [] ∨ ∃ more, tail = sep :: more) ∧
        after? pattern ([sep].intercalate (before ++ part :: parts)) = some (rest ++ tail) := by
  intro before
  induction before with
  | nil =>
    intro _
    cases parts with
    | nil =>
      refine ⟨[], .inl rfl, ?_⟩
      simpa [intercalate] using hpart
    | cons next parts =>
      refine ⟨sep :: [sep].intercalate (next :: parts), .inr ⟨_, rfl⟩, ?_⟩
      exact after?_append _ hpart
  | cons p before ih =>
    intro h
    obtain ⟨hp, hbefore⟩ := forall_mem_cons.mp h
    obtain ⟨tail, htail, hfound⟩ := ih hbefore
    refine ⟨tail, htail, ?_⟩
    obtain ⟨next, more, hnext⟩ : ∃ next more, before ++ part :: parts = next :: more :=
      exists_cons_of_ne_nil (by simp)
    rw [cons_append, hnext, intercalate_cons_cons, append_assoc, singleton_append, ← hnext,
      after?_skip hne hsep _ (after?_eq_none.mpr hp), hfound]

variable {parts : List (List α)}

theorem infix_intercalate (hne : pattern ≠ []) (hsep : sep ∉ pattern) :
    pattern <:+: [sep].intercalate parts ↔ ∃ part ∈ parts, pattern <:+: part := by
  rw [← after?_isSome]
  induction parts with
  | nil =>
    have hnil : after? pattern ([] : List α) = none := by simp [after?, hne]
    simp [intercalate, hnil]
  | cons part parts ih =>
    cases hpart : after? pattern part with
    | some rest =>
      have hbefore : ∀ p ∈ ([] : List (List α)), ¬ pattern <:+: p := by simp
      obtain ⟨tail, -, hfound⟩ := after?_intercalate hne hsep hpart parts hbefore
      rw [nil_append] at hfound
      rw [hfound]
      refine iff_of_true rfl ⟨part, mem_cons_self, after?_isSome.mp (by rw [hpart]; rfl)⟩
    | none =>
      have hnot := after?_eq_none.mp hpart
      cases parts with
      | nil => simp [intercalate, hpart, hnot]
      | cons next parts =>
        rw [intercalate_cons_cons, append_assoc, singleton_append, after?_skip hne hsep _ hpart, ih]
        simp [hnot]

omit [DecidableEq α]

theorem sep_infix_append (hpart : sep ∉ part) (text : List α) :
    sep :: pattern <:+: part ++ sep :: text ↔ pattern <+: text ∨ sep :: pattern <:+: text := by
  induction part with
  | nil => rw [nil_append, infix_cons_iff, cons_prefix_cons, eq_self, true_and]
  | cons c part ih =>
    obtain ⟨hc, hpart⟩ := not_or.mp (mem_cons.not.mp hpart)
    rw [cons_append, infix_cons_iff, ih hpart, cons_prefix_cons]
    exact or_iff_right fun h => hc h.1

theorem append_sep_inj {part' text' : List α} (hpart : sep ∉ part) (hpart' : sep ∉ part')
    (h : part ++ sep :: text = part' ++ sep :: text') : part = part' ∧ text = text' := by
  induction part generalizing part' with
  | nil =>
    cases part' with
    | nil => exact ⟨rfl, (cons.inj h).2⟩
    | cons c part' => exact absurd ((cons.inj h).1 ▸ mem_cons_self) hpart'
  | cons c part ih =>
    cases part' with
    | nil => exact absurd ((cons.inj h).1 ▸ mem_cons_self) hpart
    | cons c' part' =>
      obtain ⟨rfl, htail⟩ := cons.inj h
      obtain ⟨rfl, rfl⟩ :=
        ih (not_mem_of_not_mem_cons hpart) (not_mem_of_not_mem_cons hpart') htail
      exact ⟨rfl, rfl⟩

theorem prefix_append_sep (hsep : sep ∉ pattern) (part text : List α) :
    pattern <+: part ++ sep :: text ↔ pattern <+: part := by
  constructor
  · intro h
    rcases prefix_or_prefix_of_prefix h (prefix_append part _) with hshort | ⟨tail, rfl⟩
    · exact hshort
    cases tail with
    | nil => exact (append_nil part).symm ▸ prefix_rfl
    | cons c tail =>
      have htail := (prefix_append_right_inj _).mp h
      have hc : c = sep := (cons_prefix_cons.mp htail).1
      exact absurd (by simp [hc]) hsep
  · intro h
    exact h.trans (prefix_append _ _)

end Search

end WormsAttack.Foundation
