/-
  Several limiters in one simulation.
-/
import WormsAttack.Foundation.Network
import WormsAttack.Limiter.Links

namespace WormsAttack.Limiter

open Foundation Inet Omnet

/-! ## Neutral operations -/

def Neutral (rules : Rules) : Event → Prop
  | .initialization gates =>
      rules.linkBlock.length = gates ∧ rules.linkBlockRate.length = gates
  | .addLinkBlock index rate =>
      rules.linkBlock[index.toNat]? = some true ∧
        rules.linkBlockRate[index.toNat]? = some rate
  | .addIPBlock ip _ =>
      rules.linkBlock = [] ∧ rules.linkBlockRate = [] ∧
        ∃ address ∈ rules.ipBlock, IPAddress.parse ip = some address
  | .addFlowBlock source destination protocol _ =>
      (∀ address ∈ rules.ipBlock, destination = address.str) ∧
        djbHash (generateKey source destination protocol) ∈ rules.flowBlock
  | .arrival .fromIDS _ _ => True
  | .arrival (.ifInPpp index) _ _ => rules.linkBlock[index]? = some false
  | .arrival (.ifInNetwork _) m _ => m.id ∉ rules.toBlock

instance (rules : Rules) : ∀ e, Decidable (Neutral rules e)
  | .initialization _ => inferInstanceAs (Decidable (_ ∧ _))
  | .addLinkBlock _ _ => inferInstanceAs (Decidable (_ ∧ _))
  | .addIPBlock _ _ => inferInstanceAs (Decidable (_ ∧ _ ∧ _))
  | .addFlowBlock _ _ _ _ => inferInstanceAs (Decidable (_ ∧ _))
  | .arrival .fromIDS _ _ => isTrue trivial
  | .arrival (.ifInPpp _) _ _ => inferInstanceAs (Decidable (_ = _))
  | .arrival (.ifInNetwork _) _ _ => inferInstanceAs (Decidable (_ ∉ _))

theorem resize_eq_self_iff {α : Type} (n : Nat) (fill : α) (v : List α) :
    resize n fill v = v ↔ v.length = n := by
  constructor
  · intro h
    rw [← h, length_resize]
  · rintro rfl
    simp [resize]

theorem set_eq_self_iff {α : Type} {v : List α} {i : Nat} (hi : i < v.length) (x : α) :
    v.set i x = v ↔ v[i]? = some x := by
  constructor
  · intro h
    rw [← h, List.getElem?_set_self hi]
  · intro h
    obtain ⟨_, rfl⟩ := List.getElem?_eq_some_iff.mp h
    exact List.set_getElem_self hi

/-- The loop of `addFlowBlock` leaves both lists as they are exactly when every
listed address is the destination. -/
theorem eraseWhere_eq_self_iff {rules : Rules} {destination : String}
    {ipBlock : List IPAddress} {ipBlockRate : List Int}
    (herase : eraseWhere (fun address : IPAddress => destination != address.str)
      (eraseAt Stop.outOfRange) rules.ipBlock rules.ipBlockRate = .ok (ipBlock, ipBlockRate)) :
    (ipBlock = rules.ipBlock ∧ ipBlockRate = rules.ipBlockRate) ↔
      ∀ address ∈ rules.ipBlock, destination = address.str := by
  rw [eraseWhere_eq, bind_eq_ok] at herase
  obtain ⟨rates, hfold, heq⟩ := herase
  cases heq
  constructor
  · rintro ⟨hkept, -⟩ address hmem
    have hnone := (kept_eq_self_iff _ _).mp hkept address hmem
    simpa using hnone
  · intro hall
    have hnone : ∀ address ∈ rules.ipBlock, (destination != address.str) = false := by
      intro address hmem
      simp [hall address hmem]
    obtain ⟨hkept, hhits⟩ := kept_of_forall _ rules.ipBlock hnone
    rw [hhits 0] at hfold
    cases hfold
    exact ⟨hkept, rfl⟩

theorem neutral_iff {rules rules' : Rules} {e : Event} (h : RulesStep rules e rules') :
    rules' = rules ↔ Neutral rules e := by
  cases h with
  | resized gates => simp [Rules.ext_iff, Neutral, resize_eq_self_iff]
  | linked hindex hlink hrate =>
    simp [Rules.ext_iff, Neutral, set_eq_self_iff hlink, set_eq_self_iff hrate]
  | @listed ip rate address hparse hlisted =>
    have hknown : ∃ known ∈ rules.ipBlock, IPAddress.parse ip = some known :=
      ⟨address, hlisted, hparse⟩
    simp only [Rules.ext_iff, Neutral, and_true, true_and]
    constructor
    · rintro ⟨hlink, hrate⟩
      exact ⟨hlink.symm, hrate.symm, hknown⟩
    · rintro ⟨hlink, hrate, -⟩
      exact ⟨hlink.symm, hrate.symm⟩
  | @ipAdded ip rate address hparse hnew =>
    simp [Rules.ext_iff, Neutral, hparse, hnew]
  | flowListed herase hlisted =>
    simp only [Rules.ext_iff, Neutral, hlisted, and_true, true_and]
    exact eraseWhere_eq_self_iff herase
  | flowAdded herase hnew => simp [Rules.ext_iff, Neutral, hnew]
  | ordered => simp [Neutral]
  | marked hlink => simp [Rules.ext_iff, Neutral, hlink]
  | passed hlink => simp [Neutral, hlink]
  | unmarked index m draws =>
    simp only [Rules.ext_iff, Neutral, Rules.unmark, and_self, and_true, kept_eq_self_iff]
    constructor
    · intro hnone hmem
      simpa using hnone m.id hmem
    · intro hmem id hid
      have hne : id ≠ m.id := by
        rintro rfl
        exact hmem hid
      simp [hne]

/-! ## The network -/

variable {ι : Type} [DecidableEq ι]

def handle (_ : ι) (rules : Rules) (x : RateLimiter) (e : Event) :
    Except Stop (Rules × RateLimiter × List Action) := do
  let (s, out) ← step ⟨rules, x⟩ e
  .ok (s.rules, s.limiter, out)

abbrev Limiters (ι : Type) : Type := Network ι Rules RateLimiter

abbrev NetworkStep (ι : Type) : Type := Step (Limiters ι) (ι × Event) (List Action)

theorem network_step {n n' : Limiters ι} {a : ι} {e : Event} {out : List Action} :
    Network.step handle n (a, e) = .ok (n', out) ↔
      ∃ s', step ⟨n.shared, n.members a⟩ e = .ok (s', out) ∧
        n' = { shared := s'.rules, members := Function.update n.members a s'.limiter } := by
  simp only [Network.step_eq_ok, handle, bind_eq_ok, Prod.exists, Except.ok.injEq, Prod.mk.injEq]
  constructor
  · rintro ⟨rules, x, ⟨s', out', hstep, rfl, rfl, rfl⟩, rfl⟩
    exact ⟨s', hstep, rfl⟩
  · rintro ⟨s', hstep, rfl⟩
    exact ⟨s'.rules, s'.limiter, ⟨s', out, hstep, rfl, rfl, rfl⟩, rfl⟩

theorem neutral_step {n n' : Limiters ι} {a b : ι} {e : Event} {out : List Action}
    (hne : a ≠ b) (hneutral : Neutral n.shared e)
    (h : Network.step handle n (a, e) = .ok (n', out)) :
    n'.shared = n.shared ∧ n'.members b = n.members b := by
  obtain ⟨s', hstep, rfl⟩ := network_step.mp h
  exact ⟨(neutral_iff (rulesStep_of_step hstep)).mpr hneutral, Function.update_of_ne hne.symm _ _⟩

/-! ## Isolation -/

/-- The decision of a limiter on a message: forwarded or not, or no decision when it
stops. -/
def decision (rules : Rules) (x : RateLimiter) (gate : InGate) (m : Message)
    (draws : Nat → Nat) : Except Stop Bool := do
  let (_, out) ← handleMessage ⟨rules, x⟩ gate m draws
  .ok (forwards out)

def View (b : ι) (n : Limiters ι) (s : State) : Prop := s = ⟨n.shared, n.members b⟩

/-- If the operations on the other limiters are neutral, the limiter `b` does what it does alone.
-/
theorem limiter_isolated {start n : Limiters ι} {tr : List (NetworkStep ι)}
    (h : Run (Network.step handle) start tr n) (b : ι)
    (hneutral : ∀ st ∈ tr, st.event.1 ≠ b → Neutral st.pre.shared st.event.2) :
    (∃ trace, Run step ⟨start.shared, start.members b⟩ trace ⟨n.shared, n.members b⟩ ∧
      trace.map Step.label = Network.labelsOf b tr) ∧
    ∀ st ∈ tr, st.event.1 ≠ b → ∀ n', Network.step handle st.pre st.event = .ok (n', st.out) →
      ∀ gate m draws, decision n'.shared (n'.members b) gate m draws =
        decision st.pre.shared (st.pre.members b) gate m draws := by
  have hstart : View b start ⟨start.shared, start.members b⟩ := rfl
  have hown : ∀ (n n' : Limiters ι) (s : State) (e : Event) (out : List Action),
      (b ≠ b → Neutral n.shared e) → View b n s →
      Network.step handle n (b, e) = .ok (n', out) →
      ∃ s', step s e = .ok (s', out) ∧ View b n' s' := by
    rintro n n' s e out - rfl hstep
    obtain ⟨s', hlocal, rfl⟩ := network_step.mp hstep
    exact ⟨s', hlocal, by simp [View]⟩
  have hother : ∀ (n n' : Limiters ι) (s : State) (a : ι) (e : Event) (out : List Action),
      a ≠ b → (a ≠ b → Neutral n.shared e) → View b n s →
      Network.step handle n (a, e) = .ok (n', out) → View b n' s := by
    rintro n n' s a e out hne hn rfl hstep
    obtain ⟨hshared, hmembers⟩ := neutral_step hne (hn hne) hstep
    rw [View, hshared, hmembers]
  constructor
  · obtain ⟨trace, s, hrun, hlabels, rfl⟩ := Network.solo_of_run
      (P := fun st => st.event.1 ≠ b → Neutral st.pre.shared st.event.2) hstart hown hother h
      hneutral
    exact ⟨trace, hrun, hlabels⟩
  · intro st hst hne n' hstep gate m draws
    obtain ⟨hshared, hmembers⟩ := neutral_step hne (hneutral st hst hne) hstep
    rw [hshared, hmembers]

def twoLimiters : Limiters Bool :=
  { shared := (initial 4).rules, members := fun _ => (initial 4).limiter }

def orderedElsewhere : List (Bool × Event) :=
  [(false, .arrival .fromIDS ⟨1, "block", .ipBlock 1 true⟩ fun _ => 0),
    (true, .arrival (.ifInNetwork 0) (transit 7) fun _ => 50)]

theorem limiter_isolated_orders :
    ∃ trace, Run step ⟨twoLimiters.shared, twoLimiters.members true⟩ trace
        ⟨(replayState (Network.step handle) twoLimiters orderedElsewhere).shared,
          (replayState (Network.step handle) twoLimiters orderedElsewhere).members true⟩ ∧
      trace.map Step.label = Network.labelsOf true
        (replayTrace (Network.step handle) twoLimiters orderedElsewhere) :=
  (limiter_isolated (run_of_replays (by decide)) true (by decide)).1

/-- An IP rule added on the first limiter: the second drops a packet that it
forwarded before, with the same draws. -/
theorem limiter_not_isolated :
    Run (Network.step handle) twoLimiters
      (replayTrace (Network.step handle) twoLimiters [(false, .addIPBlock "0.0.0.2" 100)])
      (replayState (Network.step handle) twoLimiters [(false, .addIPBlock "0.0.0.2" 100)]) ∧
    decision twoLimiters.shared (twoLimiters.members true) (.ifInNetwork 0) (transit 7)
      (fun _ => 50) = .ok true ∧
    decision
      (replayState (Network.step handle) twoLimiters [(false, .addIPBlock "0.0.0.2" 100)]).shared
      ((replayState (Network.step handle) twoLimiters
        [(false, .addIPBlock "0.0.0.2" 100)]).members true)
      (.ifInNetwork 0) (transit 7) (fun _ => 50) = .ok false :=
  ⟨run_of_replays (by decide +kernel), by decide +kernel, by decide +kernel⟩

end WormsAttack.Limiter
