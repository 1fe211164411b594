/-
  The output vectors of a LinkMonitor.

  Source: ReaSE/src/applications/linkmonitor/LinkMonitor.cc: `initializeChannel` and the keys in
  `updateDisplay`.

  Both loops go over the format until the buffer of 200 characters may be too short, but
  `initializeChannel` writes only the characters that are no items.
-/
import WormsAttack.Monitor.Handlers

namespace WormsAttack.Monitor.LinkMonitor

/-- The part of the format that a loop goes over, when `advance` are the characters that it writes.
-/
def scanned (advance : Char → Nat) : List Char → Nat → List Char
  | [], _ => []
  | c :: format, written =>
      if 200 - written > 20 then c :: scanned advance format (written + advance c) else []

def isItem (c : Char) : Bool := c ∈ ['N', 'V', 'p', 'b', 'P', 'B', 'T']

def insertedKeys (c : Char) : List Char :=
  if c = 'p' then ['p', 'm', 'b'] else if isItem c then [c] else []

/-- The keys in `out_vectors` after `initializeChannel`. -/
def initializeChannel (format : List Char) : List Char :=
  (scanned (fun c => if isItem c then 0 else 1) format 0).flatMap insertedKeys

variable {ρ : Type} (d : Doubles ρ)

/-- The keys that an item of `updateDisplay` looks up. -/
def usedKeys (m : LinkMonitor ρ) (c : Char) : List Char :=
  if c = 'p' then if d.atLeast m.rates.currentPkPerSec 0 then ['p', 'b', 'm'] else []
  else if isItem c then [c] else []

def displayedKeys (m : LinkMonitor ρ) (widths : Char → Nat) (format : List Char) : List Char :=
  (scanned (width m.numPackets widths) format 0).flatMap (usedKeys d m)

theorem display_eq_scanned (link : Link) (widths : Char → Nat) (format : List Char) (written : Nat)
    (m : LinkMonitor ρ) :
    (display d link widths format written m).1 =
      (scanned (width m.numPackets widths) format written).foldl
        (fun m c => (m.item d link c).1) m := by
  induction format generalizing written m with
  | nil => rfl
  | cons c format ih =>
    have hitem : (m.item d link c).1.numPackets = m.numPackets := by
      simp only [item, checkLoad, checkThreshold]
      split_ifs <;> rfl
    rw [display, scanned]
    split_ifs
    · rw [List.foldl_cons, ← hitem, ← ih, hitem]
    · rfl

theorem scanned_prefix {f g : Char → Nat} (hle : ∀ c, f c ≤ g c) :
    ∀ (format : List Char) {written written' : Nat}, written ≤ written' →
      scanned g format written' <+: scanned f format written := by
  intro format
  induction format with
  | nil => exact fun _ => List.prefix_rfl
  | cons c format ih =>
    intro written written' hwritten
    rw [scanned, scanned]
    by_cases hroom : 200 - written' > 20
    · rw [if_pos hroom, if_pos (by omega)]
      exact List.cons_prefix_cons.mpr ⟨rfl, ih (Nat.add_le_add hwritten (hle c))⟩
    · rw [if_neg hroom]
      exact List.nil_prefix

theorem advance_le_width (numPackets : Nat) (widths : Char → Nat) (c : Char) :
    (if isItem c then 0 else 1) ≤ width numPackets widths c := by
  split_ifs with hitem
  · exact Nat.zero_le _
  · simp only [isItem, List.mem_cons, List.not_mem_nil, or_false, decide_eq_true_eq,
      not_or] at hitem
    simp [width, hitem]

/-- `updateDisplay` scans no more of the format than `initializeChannel`, and looks up only
keys that were inserted. -/
theorem displayedKeys_inserted (m : LinkMonitor ρ) (widths : Char → Nat) (format : List Char) :
    scanned (width m.numPackets widths) format 0 <+:
        scanned (fun c => if isItem c then 0 else 1) format 0 ∧
      ∀ key ∈ displayedKeys d m widths format, key ∈ initializeChannel format := by
  have hpre := scanned_prefix (advance_le_width m.numPackets widths) format (Nat.le_refl 0)
  refine ⟨hpre, fun key hkey => ?_⟩
  obtain ⟨c, hc, hused⟩ := List.mem_flatMap.mp hkey
  refine List.mem_flatMap.mpr ⟨c, hpre.subset hc, ?_⟩
  unfold usedKeys at hused
  unfold insertedKeys
  split_ifs at hused ⊢
  · simpa [or_comm] using hused
  · cases hused
  · exact hused
  · cases hused

end WormsAttack.Monitor.LinkMonitor
