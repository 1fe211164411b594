/-
  Splitting a text into tokens.
-/
import Mathlib.Data.List.TakeWhile

namespace WormsAttack.Foundation

open List

section Tokens

variable {α : Type} (delim : α → Bool)

def nextToken (text : List α) : Option (List α × List α) :=
  match text.dropWhile delim with
  | [] => none
  | c :: rest =>
      some ((c :: rest).takeWhile (!delim ·), (c :: rest).dropWhile (!delim ·))

def tokensUpTo : Nat → List α → List (List α)
  | 0, _ => []
  | n + 1, text =>
      match nextToken delim text with
      | none => []
      | some (token, rest) => token :: tokensUpTo n rest

/-- All tokens.  A token has at least one character, so there are no more tokens than
characters. -/
def tokens (text : List α) : List (List α) := tokensUpTo delim text.length text

variable {delim} {text rest token : List α}

theorem nextToken_eq_some (h : nextToken delim text = some (token, rest)) :
    (∃ skipped, text = skipped ++ (token ++ rest)) ∧ token ≠ [] ∧
      ∀ c ∈ token, delim c = false := by
  unfold nextToken at h
  split at h
  · cases h
  rename_i c tail hdrop
  cases h
  have hc : delim c = false := by
    have hhead := head_dropWhile_not (l := text) delim (by simp [hdrop])
    simpa [hdrop] using hhead
  refine ⟨⟨text.takeWhile delim, ?_⟩, ?_, ?_⟩
  · rw [takeWhile_append_dropWhile, ← hdrop, takeWhile_append_dropWhile]
  · simp [hc]
  · intro x hx
    simpa using mem_takeWhile_imp hx

theorem nextToken_shorter (h : nextToken delim text = some (token, rest)) :
    rest.length < text.length := by
  obtain ⟨⟨skipped, rfl⟩, hne, -⟩ := nextToken_eq_some h
  have hpos := length_pos_iff.mpr hne
  simp only [length_append]
  omega

theorem tokensUpTo_eq : ∀ {n m : Nat} {text : List α}, text.length ≤ n → text.length ≤ m →
    tokensUpTo delim n text = tokensUpTo delim m text := by
  intro n
  induction n with
  | zero =>
    intro m text hn _
    cases length_eq_zero_iff.mp (Nat.le_zero.mp hn)
    cases m <;> rfl
  | succ n ih =>
    intro m text hn hm
    cases m with
    | zero =>
      cases length_eq_zero_iff.mp (Nat.le_zero.mp hm)
      rfl
    | succ m =>
      rw [tokensUpTo, tokensUpTo]
      cases hnext : nextToken delim text with
      | none => rfl
      | some found =>
        obtain ⟨token, rest⟩ := found
        have hshorter := nextToken_shorter hnext
        simp only [ih (show rest.length ≤ n by omega) (show rest.length ≤ m by omega)]

theorem tokens_eq :
    tokens delim text =
      match nextToken delim text with
      | none => []
      | some (token, rest) => token :: tokens delim rest := by
  cases text with
  | nil => rfl
  | cons c cs =>
    rw [tokens, length_cons, tokensUpTo]
    cases hnext : nextToken delim (c :: cs) with
    | none => rfl
    | some found =>
      obtain ⟨token, rest⟩ := found
      have hshorter := nextToken_shorter hnext
      rw [length_cons] at hshorter
      simp only [tokens, tokensUpTo_eq (show rest.length ≤ cs.length by omega) le_rfl]

theorem mem_tokens {token : List α} : ∀ {n : Nat} {text : List α},
    token ∈ tokensUpTo delim n text →
      token ≠ [] ∧ ∀ c ∈ token, c ∈ text ∧ delim c = false := by
  intro n
  induction n with
  | zero =>
    intro text h
    cases h
  | succ n ih =>
    intro text h
    rw [tokensUpTo] at h
    cases hnext : nextToken delim text with
    | none => simp [hnext] at h
    | some found =>
      obtain ⟨⟨skipped, rfl⟩, hne, hdelim⟩ := nextToken_eq_some hnext
      simp only [hnext, mem_cons] at h
      rcases h with rfl | h
      · exact ⟨hne, fun c hc => ⟨by simp [hc], hdelim c hc⟩⟩
      · obtain ⟨hne', hmem⟩ := ih h
        exact ⟨hne', fun c hc => ⟨by simp [(hmem c hc).1], (hmem c hc).2⟩⟩

theorem nextToken_delim {d : α} (hd : delim d = true) :
    nextToken delim (d :: text) = nextToken delim text := by
  simp [nextToken, hd]

theorem tokens_delim {d : α} (hd : delim d = true) :
    tokens delim (d :: text) = tokens delim text := by
  rw [tokens_eq, nextToken_delim hd, ← tokens_eq]

theorem tokens_word {d : α} (hd : delim d = true) {word : List α} (hne : word ≠ [])
    (hword : ∀ c ∈ word, delim c = false) :
    tokens delim (word ++ d :: text) = word :: tokens delim text := by
  obtain ⟨c, cs, rfl⟩ := exists_cons_of_ne_nil hne
  have hc : delim c = false := hword c mem_cons_self
  have hskip : (c :: cs ++ d :: text).dropWhile delim = c :: cs ++ d :: text := by
    simp [hc]
  have htake : (c :: cs ++ d :: text).takeWhile (!delim ·) = c :: cs := by
    rw [takeWhile_append_of_pos (by simpa using hword)]
    simp [hd]
  have hdrop : (c :: cs ++ d :: text).dropWhile (!delim ·) = d :: text := by
    rw [dropWhile_append_of_pos (by simpa using hword)]
    simp [hd]
  have hnext : nextToken delim (c :: cs ++ d :: text) = some (c :: cs, d :: text) := by
    rw [nextToken, hskip]
    rw [cons_append] at htake hdrop ⊢
    simp only [htake, hdrop]
  rw [tokens_eq, hnext]
  simp only [tokens_delim hd]

theorem tokens_terminated {d : α} (hd : delim d = true) {words : List (List α)}
    (hwords : ∀ word ∈ words, word ≠ [] ∧ ∀ c ∈ word, delim c = false) :
    tokens delim (words.flatMap (· ++ [d])) = words := by
  induction words with
  | nil => rfl
  | cons word words ih =>
    obtain ⟨hhead, htail⟩ := forall_mem_cons.mp hwords
    rw [flatMap_cons, append_assoc, singleton_append, tokens_word hd hhead.1 hhead.2, ih htail]

end Tokens

end WormsAttack.Foundation
