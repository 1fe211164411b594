/-
  Link rules: which rate, and whether there is one.
-/
import WormsAttack.Limiter.Transition

namespace WormsAttack.Limiter

open Foundation Inet Omnet List

abbrev Trace : Type := List (Step State Event (List Action))

/-! ## Marked packets -/

/-- The packets that entered on a link with a rule and have not come back, with
that link, in the order in which they entered. -/
def marks : Trace → List (Nat × Nat)
  | [] => []
  | st :: tr =>
      match st.event with
      | .arrival (.ifInPpp link) m _ =>
          if st.pre.rules.linkBlock[link]? = some true then marks tr ++ [(m.id, link)]
          else marks tr
      | .arrival (.ifInNetwork _) m _ => (marks tr).filter fun mark => mark.1 != m.id
      | _ => marks tr

/-- Message ids are unique: a packet that enters from an interface does not have
the id of a packet that is marked. -/
def EntersUnmarked (st : Step State Event (List Action)) : Prop :=
  match st.event with
  | .arrival (.ifInPpp _) m _ => m.id ∉ st.pre.rules.toBlock
  | _ => True

instance (st : Step State Event (List Action)) : Decidable (EntersUnmarked st) :=
  match st with
  | ⟨_, .arrival (.ifInPpp _) _ _, _⟩ => inferInstanceAs (Decidable (_ ∉ _))
  | ⟨_, .arrival (.ifInNetwork _) _ _, _⟩ => isTrue trivial
  | ⟨_, .arrival .fromIDS _ _, _⟩ => isTrue trivial
  | ⟨_, .initialization _, _⟩ => isTrue trivial
  | ⟨_, .addLinkBlock _ _, _⟩ => isTrue trivial
  | ⟨_, .addIPBlock _ _, _⟩ => isTrue trivial
  | ⟨_, .addFlowBlock _ _ _ _, _⟩ => isTrue trivial

/-- The list of marks holds the ids of the marked packets, each once. -/
structure Marked (tr : Trace) (s : State) : Prop where
  ids : s.rules.toBlock = (marks tr).map Prod.fst
  nodup : s.rules.toBlock.Nodup

variable {s : State} {tr : Trace} {m : Message}

theorem marked_step {s' : State} {e : Event} {out : List Action} (hi : Marked tr s)
    (hunique : EntersUnmarked ⟨s, e, out⟩) (h : RulesStep s.rules e s'.rules) :
    Marked (⟨s, e, out⟩ :: tr) s' := by
  generalize hrules : s'.rules = rules' at h
  have hkeep : rules'.toBlock = s.rules.toBlock → marks (⟨s, e, out⟩ :: tr) = marks tr →
      Marked (⟨s, e, out⟩ :: tr) s' := by
    intro htoBlock hmarks
    exact ⟨by rw [hrules, htoBlock, hmarks]; exact hi.ids,
      by rw [hrules, htoBlock]; exact hi.nodup⟩
  cases h with
  | resized | linked | listed | ipAdded | flowListed | flowAdded | ordered => exact hkeep rfl rfl
  | passed hlink => exact hkeep rfl (by simp [marks, hlink])
  | marked hlink =>
    constructor
    · rw [hrules]
      simp [marks, hlink, hi.ids]
    · rw [hrules]
      exact nodup_append.mpr ⟨hi.nodup, nodup_singleton _,
        fun a ha b hb => by rintro rfl; exact hunique (mem_singleton.mp hb ▸ ha)⟩
  | unmarked index m draws =>
    have herase : kept (· == m.id) s.rules.toBlock = s.rules.toBlock.erase m.id :=
      kept_eq_erase _ hi.nodup
    constructor
    · rw [hrules, Rules.unmark, herase, hi.nodup.erase_eq_filter, hi.ids]
      simp [marks, filter_map, Function.comp_def]
    · rw [hrules, Rules.unmark, herase]
      exact hi.nodup.erase _

theorem marked_run {gates : Nat} (h : Run step (initial gates) tr s)
    (hunique : ∀ st ∈ tr, EntersUnmarked st) : Marked tr s := by
  induction h with
  | start => exact ⟨rfl, nodup_nil⟩
  | next _ hstep ih =>
    obtain ⟨hhead, htail⟩ := forall_mem_cons.mp hunique
    exact marked_step (ih htail) hhead (rulesStep_of_step hstep)

/-! ## The rate a marked packet is judged with -/

def linkRates (out : List Action) : List Int :=
  out.filterMap fun
    | .check c => if c.kind = .link then some c.rate else none
    | _ => none

theorem linkRates_checks {kind : RuleKind} {checks : List Check} (h : ∀ c ∈ checks, c.kind = kind) :
    linkRates (checks.map .check) = if kind = .link then checks.map (·.rate) else [] := by
  induction checks with
  | nil => simp [linkRates]
  | cons c checks ih =>
    obtain ⟨hhead, htail⟩ := forall_mem_cons.mp h
    have hrest := ih htail
    simp only [linkRates, map_cons, filterMap_cons, hhead] at hrest ⊢
    split <;> simp_all

theorem linkRates_append (a b : List Action) :
    linkRates (a ++ b) = linkRates a ++ linkRates b := by
  simp [linkRates]

theorem linkRates_report (x : RateLimiter) : linkRates (report x).2 = [] := by
  unfold report
  split <;> rfl

/-- A datagram whose marks all have a rate is judged by the link rules at these positions. -/
theorem handleNetwork_linkRates (hp : Parallel s.rules) (index : Nat) {d : IPDatagram}
    (hbody : m.body = .datagram d) {draws : Nat → Nat} {link : List Check}
    (hlink : checksAt .link s.rules.linkBlockRate draws 0 (marksOf s.rules m.id) = some link) :
    ∃ s' out, handleNetwork s index m draws = .ok (s', out) ∧
      s'.rules = s.rules.unmark m.id ∧ linkRates out = link.map (·.rate) := by
  have hkind : linkRates (link.map .check) = link.map (·.rate) :=
    linkRates_checks fun c hc => ((mem_checksAt hlink).2 c hc).1
  by_cases hblocked : d.srcAddress.addr.toInt32 ∈ s.limiter.blockedIPs
  · refine ⟨_, _, handleNetwork_blocked index hbody hlink hblocked, rfl, ?_⟩
    rw [linkRates_append, hkind]
    exact append_nil _
  · obtain ⟨ip, flow, hip, hflow, v, -, heq⟩ :=
      handleNetwork_judged index hp hbody hlink hblocked
    refine ⟨_, _, heq, rfl, ?_⟩
    have hip' : linkRates (ip.map .check) = [] :=
      linkRates_checks fun c hc => ((mem_checksAt hip).2 c hc).1
    have hflow' : linkRates (flow.map .check) = [] :=
      linkRates_checks fun c hc => ((mem_checksAt hflow).2 c hc).1
    have hdisposal : ∀ toSend : Bool,
        linkRates [if toSend then Action.send (.ifOutPpp index) else .delete] = [] := by
      intro toSend
      cases toSend <;> rfl
    simp only [linkRates_append, map_append, hkind, hip', hflow', hdisposal,
      linkRates_report, append_nil]

/-- A packet that entered on link `k` is compared once with the rate of link `k` if and only if
that is the rate at the position of its mark. -/
theorem link_rate_exact_iff {gates : Nat} {tr : Trace} {s : State}
    (h : Run step (initial gates) tr s) (hunique : ∀ st ∈ tr, EntersUnmarked st)
    {m : Message} {d : IPDatagram} (hbody : m.body = .datagram d) {k : Nat}
    (hmark : (m.id, k) ∈ marks tr) (index : Nat) (draws : Nat → Nat) :
    (∃ s' out rate, step s (.arrival (.ifInNetwork index) m draws) = .ok (s', out) ∧
      s.rules.linkBlockRate[k]? = some rate ∧ linkRates out = [rate] ∧
      s'.rules.toBlock = s.rules.toBlock.erase m.id ∧ m.id ∉ s'.rules.toBlock) ↔
    ∃ rate, s.rules.linkBlockRate[s.rules.toBlock.idxOf m.id]? = some rate ∧
      s.rules.linkBlockRate[k]? = some rate := by
  have hmarked := marked_run h hunique
  have hmem : m.id ∈ s.rules.toBlock := by
    rw [hmarked.ids]
    exact mem_map.mpr ⟨_, hmark, rfl⟩
  have hposition : marksOf s.rules m.id = [s.rules.toBlock.idxOf m.id] := by
    have hhits := hits_eq_idxOf s.rules.toBlock hmarked.nodup hmem 0
    rwa [Nat.zero_add] at hhits
  have herase : (s.rules.unmark m.id).toBlock = s.rules.toBlock.erase m.id :=
    kept_eq_erase _ hmarked.nodup
  cases hrate : s.rules.linkBlockRate[s.rules.toBlock.idxOf m.id]? with
  | none =>
    have hnone : checksAt .link s.rules.linkBlockRate draws 0 (marksOf s.rules m.id) = none := by
      rw [hposition]
      simp [checksAt, hrate]
    have hstop := handleNetwork_outOfRange (s := s) index hnone
    constructor
    · rintro ⟨s', out, rate, hstep, -⟩
      cases hstop.symm.trans hstep
    · rintro ⟨rate, hcontra, -⟩
      cases hcontra
  | some rate =>
    have hsome : checksAt .link s.rules.linkBlockRate draws 0 (marksOf s.rules m.id) =
        some [⟨.link, s.rules.toBlock.idxOf m.id, rate, draws 0 % 100⟩] := by
      rw [hposition]
      simp [checksAt, hrate]
    obtain ⟨s₁, out₁, heq, hrules, hrates⟩ :=
      handleNetwork_linkRates (parallel_run h) index hbody hsome
    constructor
    · rintro ⟨s', out, rate', hstep, hk, hrates', -⟩
      cases heq.symm.trans hstep
      rw [hrates] at hrates'
      cases hrates'
      exact ⟨rate, rfl, hk⟩
    · rintro ⟨rate', hsame, hk⟩
      cases hsame
      refine ⟨s₁, out₁, rate, heq, hk, hrates, hrules ▸ herase, ?_⟩
      rw [hrules, herase]
      exact hmarked.nodup.not_mem_erase

def transit (id : Nat) : Message :=
  { id := id
    name := "dns"
    body := .datagram
      { version := 4, srcAddress := ⟨1⟩, destAddress := ⟨2⟩, transportProtocol := 17
        byteLength := 40, encapsulated := some ⟨.udp ⟨1000, 53⟩, 20⟩ } }

def markedOn (link id : Nat) (rate : Int) : List Event :=
  [.addLinkBlock link rate, .arrival (.ifInPpp link) (transit id) fun _ => 0]

theorem link_rate_exact_first :
    ∃ s' out rate,
      step (replayState step (initial 4) (markedOn 0 7 40))
        (.arrival (.ifInNetwork 0) (transit 7) fun _ => 50) = .ok (s', out) ∧
      (replayState step (initial 4) (markedOn 0 7 40)).rules.linkBlockRate[0]? = some rate ∧
      linkRates out = [rate] ∧
      s'.rules.toBlock =
        (replayState step (initial 4) (markedOn 0 7 40)).rules.toBlock.erase (transit 7).id ∧
      (transit 7).id ∉ s'.rules.toBlock :=
  (link_rate_exact_iff (run_of_replays (by decide)) (by decide) rfl (by decide) 0 _).mpr
    ⟨40, by decide, by decide⟩

/-- The only rule is for link 1 with rate 100, yet the packet that entered on link 1
is compared with the rate 0 of link 0. -/
theorem link_rate_of_other_link :
    Run step (initial 4) (replayTrace step (initial 4) (markedOn 1 7 100))
      (replayState step (initial 4) (markedOn 1 7 100)) ∧
    (∀ st ∈ replayTrace step (initial 4) (markedOn 1 7 100), EntersUnmarked st) ∧
    (7, 1) ∈ marks (replayTrace step (initial 4) (markedOn 1 7 100)) ∧
    (replayState step (initial 4) (markedOn 1 7 100)).rules.linkBlockRate[1]? = some 100 ∧
    ∃ s' out,
      step (replayState step (initial 4) (markedOn 1 7 100))
        (.arrival (.ifInNetwork 0) (transit 7) fun _ => 50) = .ok (s', out) ∧
      linkRates out = [0] :=
  ⟨run_of_replays (by decide), by decide, by decide, by decide, _, _, rfl, rfl⟩

/-! ## Index safety -/

/-- The operations and arrivals that use the gates a limiter has. -/
def InDomain (gates : Nat) : Event → Prop
  | .initialization _ => False
  | .addLinkBlock index _ => 0 ≤ index ∧ index < gates
  | .arrival (.ifInPpp index) _ _ => index < gates
  | .arrival (.ifInNetwork index) _ _ => index < gates
  | _ => True

instance (gates : Nat) : ∀ e, Decidable (InDomain gates e)
  | .initialization _ => isFalse id
  | .addLinkBlock _ _ => inferInstanceAs (Decidable (_ ∧ _))
  | .addIPBlock _ _ => isTrue trivial
  | .addFlowBlock _ _ _ _ => isTrue trivial
  | .arrival (.ifInPpp _) _ _ => inferInstanceAs (Decidable (_ < _))
  | .arrival (.ifInNetwork _) _ _ => inferInstanceAs (Decidable (_ < _))
  | .arrival .fromIDS _ _ => isTrue trivial

/-- `addIPBlock` empties the link vectors. -/
def Event.clearsLinks : Event → Bool
  | .addIPBlock _ _ => true
  | _ => false

def LinksKept (tr : Trace) : Prop := ∀ st ∈ tr, st.event.clearsLinks = false

instance (tr : Trace) : Decidable (LinksKept tr) :=
  inferInstanceAs (Decidable (∀ st ∈ tr, _))

theorem length_linkBlockRate {gates : Nat} (h : Run step (initial gates) tr s)
    (hdomain : ∀ st ∈ tr, InDomain gates st.event) :
    s.rules.linkBlockRate.length = if LinksKept tr then gates else 0 := by
  induction h with
  | start => simp [initial, initializeLimiter, LinksKept]
  | @next tr s s' e out _ hstep ih =>
    obtain ⟨hhead, htail⟩ := forall_mem_cons.mp hdomain
    have hlength := ih htail
    have hkept : LinksKept (⟨s, e, out⟩ :: tr) ↔ e.clearsLinks = false ∧ LinksKept tr :=
      forall_mem_cons
    have hrules := rulesStep_of_step hstep
    generalize s'.rules = rules' at hrules
    cases hrules with
    | resized => exact absurd hhead id
    | linked | flowListed | flowAdded | ordered | marked | passed =>
      simpa [hkept, Event.clearsLinks] using hlength
    | listed | ipAdded => simp [hkept, Event.clearsLinks]
    | unmarked => simpa [hkept, Event.clearsLinks, Rules.unmark] using hlength

/-- The next event accesses the link vectors within their lengths: they have not been emptied, and
the marks of a packet that comes back are at positions below the number of gates. -/
def IndexSafe (gates : Nat) (tr : Trace) (s : State) : Event → Prop
  | .addLinkBlock _ _ => LinksKept tr
  | .arrival (.ifInPpp _) _ _ => LinksKept tr
  | .arrival (.ifInNetwork _) m _ => ∀ i ∈ marksOf s.rules m.id, LinksKept tr ∧ i < gates
  | _ => True

instance (gates : Nat) (tr : Trace) (s : State) : ∀ e, Decidable (IndexSafe gates tr s e)
  | .initialization _ => isTrue trivial
  | .addLinkBlock _ _ => inferInstanceAs (Decidable (LinksKept tr))
  | .addIPBlock _ _ => isTrue trivial
  | .addFlowBlock _ _ _ _ => isTrue trivial
  | .arrival (.ifInPpp _) _ _ => inferInstanceAs (Decidable (LinksKept tr))
  | .arrival (.ifInNetwork _) _ _ => inferInstanceAs (Decidable (∀ i ∈ _, _ ∧ _))
  | .arrival .fromIDS _ _ => isTrue trivial

theorem addLinkBlock_outOfRange_iff {index rate : Int} :
    step s (.addLinkBlock index rate) = .error .outOfRange ↔
      ¬ (0 ≤ index ∧ index.toNat < s.rules.linkBlock.length ∧
        index.toNat < s.rules.linkBlockRate.length) := by
  simp only [step, addLinkBlock]
  split <;> rename_i hrange <;> simp [hrange, bind, Except.bind]

theorem handlePpp_outOfRange_iff {index : Nat} :
    handlePpp s index m = .error .outOfRange ↔ ¬ index < s.rules.linkBlock.length := by
  unfold handlePpp
  split
  · rename_i hnone
    have hle := getElem?_eq_none_iff.mp hnone
    simp [hle]
  · rename_i hsome
    have hlt := (List.getElem?_eq_some_iff.mp hsome).1
    simp [hlt]

theorem handleNetwork_outOfRange_iff (hp : Parallel s.rules) {index : Nat} {draws : Nat → Nat} :
    handleNetwork s index m draws = .error .outOfRange ↔
      ¬ ∀ i ∈ marksOf s.rules m.id, i < s.rules.linkBlockRate.length := by
  rw [← checksAt_isSome .link s.rules.linkBlockRate draws (marksOf s.rules m.id) 0]
  cases hlink : checksAt .link s.rules.linkBlockRate draws 0 (marksOf s.rules m.id) with
  | none => simp [handleNetwork_outOfRange index hlink]
  | some link =>
    by_cases hbody : ∃ d, m.body = .datagram d
    · obtain ⟨d, hbody⟩ := hbody
      obtain ⟨s', out, heq, -⟩ := handleNetwork_linkRates hp index hbody hlink
      simp [heq]
    · have hcast := handleNetwork_badCast index (not_exists.mp hbody) hlink
      simp [hcast]

/-- After any run of operations and arrivals on existing gates, the next one
accesses the link vectors within their lengths exactly when `IndexSafe` holds. -/
theorem index_safe_iff {gates : Nat} {tr : Trace} {s : State}
    (h : Run step (initial gates) tr s) (hdomain : ∀ st ∈ tr, InDomain gates st.event)
    {e : Event} (he : InDomain gates e) :
    step s e ≠ .error .outOfRange ↔ IndexSafe gates tr s e := by
  have hp := parallel_run h
  have hrates := length_linkBlockRate h hdomain
  have hlinks := hp.link.trans hrates
  cases e with
  | initialization => exact absurd he id
  | addLinkBlock index rate =>
    rw [Ne, addLinkBlock_outOfRange_iff, hlinks, hrates, not_not]
    obtain ⟨hnonneg, hlt⟩ := he
    simp only [IndexSafe]
    split_ifs with hkept
    · simp only [hkept, iff_true]
      omega
    · simp [hkept]
  | addIPBlock ip rate =>
    simp only [IndexSafe, iff_true, step, addIPBlock]
    split
    · simp [bind, Except.bind]
    · split <;> simp [bind, Except.bind]
  | addFlowBlock source destination protocol rate =>
    simp only [IndexSafe, iff_true, step, addFlowBlock,
      eraseWhere_parallel Stop.outOfRange _ _ _ hp.ip]
    by_cases hlisted : djbHash (generateKey source destination protocol) ∈ s.rules.flowBlock <;>
      simp [bind, Except.bind, hlisted]
  | arrival gate m draws =>
    cases gate with
    | fromIDS =>
      simp only [IndexSafe, iff_true, step, handleMessage, handleIDS]
      split <;> simp
    | ifInPpp index =>
      change handlePpp s index m ≠ _ ↔ _
      rw [Ne, handlePpp_outOfRange_iff, hlinks, not_not]
      simp only [IndexSafe]
      have hindex : index < gates := he
      split <;> rename_i hkept <;> simp [hkept, hindex]
    | ifInNetwork index =>
      change handleNetwork s index m draws ≠ _ ↔ _
      rw [Ne, handleNetwork_outOfRange_iff hp, hrates, not_not]
      simp only [IndexSafe]
      split <;> rename_i hkept <;> simp [hkept]

theorem index_safe_marked :
    step (replayState step (initial 4) (markedOn 1 7 100))
      (.arrival (.ifInNetwork 0) (transit 7) fun _ => 50) ≠ .error .outOfRange :=
  (index_safe_iff (run_of_replays (by decide)) (by decide) (by decide)).mpr (by decide)

/-- After `addIPBlock` the next packet reads beyond the emptied vector. -/
theorem index_beyond_vectors :
    (Run step (initial 2) (replayTrace step (initial 2) [.addIPBlock "0.0.0.9" 50])
        (replayState step (initial 2) [.addIPBlock "0.0.0.9" 50]) ∧
      step (replayState step (initial 2) [.addIPBlock "0.0.0.9" 50])
        (.arrival (.ifInPpp 0) (transit 1) fun _ => 0) = .error .outOfRange) ∧
    Run step (initial 2)
        (replayTrace step (initial 2) (markedOn 0 1 50 ++ markedOn 0 2 50 ++ markedOn 0 3 50))
        (replayState step (initial 2) (markedOn 0 1 50 ++ markedOn 0 2 50 ++ markedOn 0 3 50)) ∧
      step (replayState step (initial 2) (markedOn 0 1 50 ++ markedOn 0 2 50 ++ markedOn 0 3 50))
        (.arrival (.ifInNetwork 0) (transit 3) fun _ => 0) = .error .outOfRange :=
  ⟨⟨run_of_replays (by decide +kernel), by decide +kernel⟩, run_of_replays (by decide),
    by decide⟩

end WormsAttack.Limiter
