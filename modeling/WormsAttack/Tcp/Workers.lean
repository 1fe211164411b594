/-
  The limit on worker connections.

  A worker is counted when it is forked, but every connection is counted off when it is deleted.
-/
import WormsAttack.Tcp.Transition

namespace WormsAttack.Tcp

open Foundation

/-! ## Runs -/

def Exact (s : State) : Prop :=
  s.currentConnectionCount = s.workers ∧ (s.workers : Int) ≤ s.maxThreadCount

instance (s : State) : Decidable (Exact s) := inferInstanceAs (Decidable (_ ∧ _))

/-- Only workers are closed, unless nothing is counted, and no worker forks. -/
def Benign (s : State) (e : Event) : Prop :=
  ∀ p c, target s e = some p → s.get p = .ok c →
    (Closes s c e → c.worker = true ∨ s.currentConnectionCount = 0) ∧
      (Forks s c e → c.worker = false)

variable {s : State} {e : Event} {c : TCPConnection}

theorem Forks.limit (h : Forks s c e) : s.currentConnectionCount < s.maxThreadCount := by
  cases e with
  | segment seg answers => exact h.2.2.2.2.2
  | _ => cases h

theorem benign_iff {p : Nat} (htarget : target s e = some p) (hget : s.get p = .ok c) :
    Benign s e ↔ (Closes s c e → c.worker = true ∨ s.currentConnectionCount = 0) ∧
      (Forks s c e → c.worker = false) := by
  constructor
  · intro h
    exact h p c htarget hget
  · intro h p' c' htarget' hget'
    rw [htarget] at htarget'
    cases htarget'
    rw [hget] at hget'
    cases hget'
    exact h

/-- One message keeps the count exact just when it is benign. -/
theorem exact_step_iff {s' : State} (hexact : Exact s)
    (h : handleMessage s e = .ok (s', ())) : Exact s' ↔ Benign s e := by
  obtain ⟨hcounted, hlimit⟩ := hexact
  obtain ⟨hmax, heffect⟩ := handleMessage_effect h
  unfold Exact
  rw [hmax]
  cases heffect with
  | kept hcount hworkers hneither =>
    rw [hcount, hworkers]
    refine iff_of_true ⟨hcounted, hlimit⟩ fun p c htarget hget => ?_
    obtain ⟨hcloses, hforks⟩ := hneither p c htarget hget
    exact ⟨fun hc => absurd hc hcloses, fun hf => absurd hf hforks⟩
  | closed p c htarget hget hcloses hforks hcount hworkers =>
    rw [benign_iff htarget hget]
    simp only [hcloses, hforks, true_implies, false_implies, and_true]
    cases hworker : c.worker with
    | true =>
      rw [hworker, Bool.toNat_true] at hworkers
      refine iff_of_true ⟨?_, ?_⟩ (.inl rfl)
      · omega
      · omega
    | false =>
      rw [hworker, Bool.toNat_false] at hworkers
      simp only [Bool.false_eq_true, false_or]
      split at hcount
      · refine iff_of_true ⟨?_, ?_⟩ ?_ <;> omega
      · refine iff_of_false (fun hexact' => ?_) ?_
        · omega
        · omega
  | forked p c htarget hget hcloses hforks hcount hworkers =>
    have hroom := hforks.limit
    rw [benign_iff htarget hget]
    simp only [hcloses, hforks, true_implies, false_implies, true_and]
    cases hworker : c.worker with
    | true =>
      rw [hworker, Bool.toNat_true] at hworkers
      refine iff_of_false (fun hexact' => ?_) Bool.noConfusion
      omega
    | false =>
      rw [hworker, Bool.toNat_false] at hworkers
      refine iff_of_true ⟨?_, ?_⟩ rfl <;> omega

theorem exact_initial (maxThreadCount : Int) : Exact (initial maxThreadCount) := by
  refine ⟨rfl, ?_⟩
  change (0 : Int) ≤ if maxThreadCount ≤ 0 then 2147483647 else maxThreadCount
  split <;> omega

/-- In a run the count is the number of workers all the time, and the limit is kept, just
when all its messages are benign. -/
theorem workers_counted_iff {maxThreadCount : Int} {tr : List (Step State Event Unit)} {s : State}
    (h : Run handleMessage (initial maxThreadCount) tr s) :
    (Exact s ∧ ∀ st ∈ tr, Exact st.pre) ↔ ∀ st ∈ tr, Benign st.pre st.event := by
  induction h with
  | start => simp [exact_initial]
  | next _ hstep ih =>
    rw [List.forall_mem_cons, List.forall_mem_cons, ← ih]
    constructor
    · rintro ⟨hlast, hpre, hearlier⟩
      exact ⟨(exact_step_iff hpre hstep).mp hlast, hpre, hearlier⟩
    · rintro ⟨hbenign, hpre, hearlier⟩
      exact ⟨(exact_step_iff hpre hstep).mpr hbenign, hpre, hearlier⟩

def synFrom (address : UInt32) (fits : Bool) (uniqueNumber : Int) : Event :=
  .segment ⟨⟨address⟩, ⟨1⟩, 1024, 80, true, false, false⟩ ⟨false, fits, .ignore, uniqueNumber⟩

def listenOn80 : Event := .command ⟨0, 0⟩ (.openPassive ⟨0⟩ 80 true)

def oneAfterAnother : List Event :=
  [listenOn80, synFrom 2 true 1, synFrom 3 true 2,
    .segment ⟨⟨2⟩, ⟨1⟩, 1024, 80, false, true, true⟩ ⟨false, true, .rcvRst, 0⟩,
    synFrom 3 true 3]

theorem workers_counted_oneAfterAnother :
    (replayState handleMessage (initial 1) oneAfterAnother).workers = 1 ∧
      ∀ st ∈ replayTrace handleMessage (initial 1) oneAfterAnother, Benign st.pre st.event :=
  ⟨by decide +kernel,
    (workers_counted_iff (run_of_replays (by decide +kernel))).mp (by decide +kernel)⟩

def closedClient : List Event :=
  [listenOn80, synFrom 2 true 1, .command ⟨1, 5⟩ (.openActive ⟨1⟩ ⟨9⟩ 2000 7),
    .command ⟨1, 5⟩ (.close false), synFrom 3 true 2]

def oversizedSyn : List Event := [listenOn80, synFrom 2 false 1, synFrom 2 false 2]

/-- With a limit of one there are two workers, and one is counted; and one worker is
counted twice. -/
theorem workers_miscounted :
    (Run handleMessage (initial 1) (replayTrace handleMessage (initial 1) closedClient)
        (replayState handleMessage (initial 1) closedClient) ∧
      (replayState handleMessage (initial 1) closedClient).currentConnectionCount = 1 ∧
      (replayState handleMessage (initial 1) closedClient).workers = 2 ∧
      (replayState handleMessage (initial 1) closedClient).maxThreadCount = 1) ∧
    Run handleMessage (initial 5) (replayTrace handleMessage (initial 5) oversizedSyn)
        (replayState handleMessage (initial 5) oversizedSyn) ∧
      (replayState handleMessage (initial 5) oversizedSyn).currentConnectionCount = 2 ∧
      (replayState handleMessage (initial 5) oversizedSyn).workers = 1 :=
  ⟨⟨run_of_replays (by decide +kernel), by decide +kernel⟩,
    run_of_replays (by decide +kernel), by decide +kernel⟩

end WormsAttack.Tcp
