/-
  What the two recorded counters count.
-/
import WormsAttack.Limiter.Links

namespace WormsAttack.Limiter

open Foundation Inet Omnet List

/-! ## Packets -/

def deletes (out : List Action) : Bool := out.contains .delete

def matched (out : List Action) : Bool :=
  out.any fun
    | .check _ => true
    | _ => false

def fromNetwork : Event → Bool
  | .arrival (.ifInNetwork _) _ _ => true
  | _ => false

def Event.initializes : Event → Bool
  | .initialization _ => true
  | _ => false

def sinceInitialization (tr : Trace) : Trace := tr.takeWhile fun st => !st.event.initializes

def deletedPackets (tr : Trace) : Nat :=
  (sinceInitialization tr).countP fun st => fromNetwork st.event && deletes st.out

def allowedPackets (tr : Trace) : Nat :=
  (sinceInitialization tr).countP fun st =>
    fromNetwork st.event && (forwards st.out && matched st.out)

def CountsPackets (tr : Trace) (s : State) : Prop :=
  finish s.limiter =
    [("Packets blocked", deletedPackets tr), ("Packets allowed", allowedPackets tr)]

variable {s : State} {draws : Nat → Nat} {s' : State} {out : List Action}

theorem countsPackets_iff {tr : Trace} :
    CountsPackets tr s ↔
      s.limiter.blocked = deletedPackets tr ∧ s.limiter.allowed = allowedPackets tr := by
  simp [CountsPackets, finish]

/-- The packet is counted as one: it matches at most one rule, or, when the detector
has blocked its source, it has exactly one mark and the draw says to block. -/
def countedOnce (s : State) : Event → Bool
  | .arrival (.ifInNetwork _) m draws =>
      match m.body with
      | .datagram d =>
          if d.srcAddress.addr.toInt32 ∈ s.limiter.blockedIPs then
            match marksOf s.rules m.id with
            | [i] => s.rules.linkBlockRate[i]?.any fun rate : Int => (draws 0 % 100 : Nat) ≤ rate
            | _ => false
          else
            (marksOf s.rules m.id).length +
              (positions (· == d.destAddress) 0 s.rules.ipBlock).length +
              (positions (· == djbHash (generateKey d.srcAddress.str d.destAddress.str
                d.transportProtocol)) 0 s.rules.flowBlock).length ≤ 1
      | _ => true
  | _ => true

/-! ## One packet -/

section Output

variable (checks : List Check) (index : Nat) (x : RateLimiter)

theorem deletes_output (toSend : Bool) :
    deletes (checks.map .check ++ [if toSend then .send (.ifOutPpp index) else .delete] ++
      (report x).2) = !toSend := by
  cases toSend <;> by_cases hrow : x.seen + x.unseen = 10 <;> simp [deletes, report, hrow]

theorem forwards_output (toSend : Bool) :
    forwards (checks.map .check ++ [if toSend then .send (.ifOutPpp index) else .delete] ++
      (report x).2) = toSend := by
  cases toSend <;> by_cases hrow : x.seen + x.unseen = 10 <;> simp [forwards, report, hrow]

theorem matched_output (toSend : Bool) :
    matched (checks.map .check ++ [if toSend then .send (.ifOutPpp index) else .delete] ++
      (report x).2) = !checks.isEmpty := by
  cases checks <;> cases toSend <;> by_cases hrow : x.seen + x.unseen = 10 <;>
    simp [matched, report, hrow]

@[simp] theorem report_blocked : (report x).1.blocked = x.blocked := by
  unfold report
  split <;> rfl

@[simp] theorem report_allowed : (report x).1.allowed = x.allowed := by
  unfold report
  split <;> rfl

@[simp] theorem noted_blocked (d : IPDatagram) (toSend : Bool) :
    (x.noted d toSend).blocked = x.blocked := by
  unfold RateLimiter.noted
  split
  · split <;> rfl
  · rfl

@[simp] theorem noted_allowed (d : IPDatagram) (toSend : Bool) :
    (x.noted d toSend).allowed = x.allowed := by
  unfold RateLimiter.noted
  split
  · split <;> rfl
  · rfl

end Output

def Gains (s s' : State) (b a : Nat) : Prop :=
  s'.limiter.blocked = s.limiter.blocked + b ∧ s'.limiter.allowed = s.limiter.allowed + a

theorem length_checksAt {kind : RuleKind} {rates : List Int} {positions : List Nat} {k : Nat}
    {checks : List Check} (h : checksAt kind rates draws k positions = some checks) :
    checks.length = positions.length := by
  rw [← (mem_checksAt h).1, length_map]

theorem countP_blocks_add (checks : List Check) :
    checks.countP Check.blocks + checks.countP (fun c => !c.blocks) = checks.length := by
  have hsplit := length_eq_countP_add_countP Check.blocks (l := checks)
  rw [hsplit]
  congr 2
  funext c
  cases c.blocks <;> rfl

/-- A packet that is judged by all rules: what the comparisons add is the packet if and
only if there is at most one of them. -/
theorem judged_counted_iff {checks : List Check} {toSend : Bool}
    (h : toSend = checks.all fun c => !c.blocks) :
    (checks.countP Check.blocks = (if !toSend then 1 else 0) ∧
      checks.countP (fun c => !c.blocks) = if toSend && !checks.isEmpty then 1 else 0) ↔
    checks.length ≤ 1 := by
  have hsum := countP_blocks_add checks
  have hsend : toSend = true ↔ checks.countP Check.blocks = 0 := by
    rw [h, countP_eq_zero]
    simp
  have hempty : checks.isEmpty = true ↔ checks.length = 0 := by
    rw [List.isEmpty_iff, List.length_eq_zero_iff]
  cases htoSend : toSend with
  | true =>
    have hnone := hsend.mp htoSend
    cases hnil : checks.isEmpty with
    | true =>
      have hlength := hempty.mp hnil
      simp only [Bool.not_true, Bool.and_false, Bool.false_eq_true, if_false]
      omega
    | false =>
      have hlength : checks.length ≠ 0 := fun h0 => by simp [hempty.mpr h0] at hnil
      simp only [Bool.not_true, Bool.not_false, Bool.and_true, Bool.false_eq_true, if_false,
        if_true]
      omega
  | false =>
    have hsome : checks.countP Check.blocks ≠ 0 := fun h0 => by simp [hsend.mpr h0] at htoSend
    simp only [Bool.not_false, Bool.false_and, Bool.false_eq_true, if_false, if_true]
    omega

theorem blocked_counted_iff {m : Message} {link : List Check}
    (hlink : checksAt .link s.rules.linkBlockRate draws 0 (marksOf s.rules m.id) = some link) :
    (link.countP Check.blocks = 1 ∧ link.countP (fun c => !c.blocks) = 0) ↔
      (match marksOf s.rules m.id with
        | [i] => s.rules.linkBlockRate[i]?.any fun rate : Int => (draws 0 % 100 : Nat) ≤ rate
        | _ => false) = true := by
  have hlength := length_checksAt hlink
  have hsum := countP_blocks_add link
  match hmarks : marksOf s.rules m.id with
  | [] =>
    rw [hmarks] at hlength
    simp only [length_nil] at hlength
    refine iff_of_false ?_ Bool.false_ne_true
    omega
  | [i] =>
    rw [hmarks] at hlink
    simp only [checksAt] at hlink
    cases hrate : s.rules.linkBlockRate[i]? with
    | none => simp [hrate] at hlink
    | some rate =>
      simp only [hrate, Option.some.injEq] at hlink
      subst hlink
      simp [Check.blocks, hrate]
  | i :: j :: rest =>
    rw [hmarks] at hlength
    simp only [length_cons] at hlength
    refine iff_of_false ?_ Bool.false_ne_true
    omega

theorem network_counted_iff (hp : Parallel s.rules) {index : Nat} {m : Message}
    (h : handleNetwork s index m draws = .ok (s', out)) :
    Gains s s' (if deletes out then 1 else 0) (if forwards out && matched out then 1 else 0) ↔
      countedOnce s (.arrival (.ifInNetwork index) m draws) = true := by
  obtain ⟨⟨d, hbody⟩, link, hlink⟩ := handled_of_ok h
  by_cases hblocked : d.srcAddress.addr.toInt32 ∈ s.limiter.blockedIPs
  · cases (handleNetwork_blocked index hbody hlink hblocked).symm.trans h
    have hdeletes : deletes (link.map .check ++ [.delete]) = true := by simp [deletes]
    have hforwards : forwards (link.map .check ++ [.delete]) = false := by simp [forwards]
    simp only [countedOnce, hbody, hblocked, if_true]
    rw [← blocked_counted_iff hlink]
    simp only [Gains, RateLimiter.counted, Verdict.addAll_blocked, Verdict.addAll_allowed,
      Verdict.start, hdeletes, hforwards, if_true, Bool.false_and, Bool.false_eq_true, if_false]
    omega
  · obtain ⟨ip, flow, hip, hflow, v, hv, heq⟩ :=
      handleNetwork_judged index hp hbody hlink hblocked
    cases heq.symm.trans h
    have hlength : (link ++ ip ++ flow).length = (marksOf s.rules m.id).length +
        (positions (· == d.destAddress) 0 s.rules.ipBlock).length +
        (positions (· == djbHash (generateKey d.srcAddress.str d.destAddress.str
          d.transportProtocol)) 0 s.rules.flowBlock).length := by
      rw [length_append, length_append, length_checksAt hlink, length_checksAt hip,
        length_checksAt hflow]
    simp only [countedOnce, hbody, hblocked, if_false, decide_eq_true_eq, ← hlength]
    rw [deletes_output, forwards_output, matched_output]
    have hsend : v.toSend = (link ++ ip ++ flow).all fun c => !c.blocks := by
      rw [hv, Verdict.addAll_toSend]
      rfl
    have hb : v.blocked = s.limiter.blocked + (link ++ ip ++ flow).countP Check.blocks := by
      rw [hv, Verdict.addAll_blocked]
      rfl
    have ha : v.allowed =
        s.limiter.allowed + (link ++ ip ++ flow).countP fun c => !c.blocks := by
      rw [hv, Verdict.addAll_allowed]
      rfl
    rw [← judged_counted_iff hsend]
    simp only [Gains, report_blocked, report_allowed, noted_blocked, noted_allowed,
      RateLimiter.counted, hb, ha, Nat.add_left_cancel_iff]

theorem others_counted {e : Event} (h : step s e = .ok (s', out)) (hnetwork : fromNetwork e = false)
    (hinit : e.initializes = false) : Gains s s' 0 0 := by
  cases e with
  | initialization gates => cases hinit
  | addLinkBlock index rate | addIPBlock ip rate | addFlowBlock source destination protocol rate =>
    obtain ⟨rules, -, h⟩ := bind_eq_ok.mp h
    cases h
    exact ⟨rfl, rfl⟩
  | arrival gate m draws =>
    cases gate with
    | fromIDS =>
      simp only [step, handleMessage, handleIDS] at h
      split at h
      · cases h
        exact ⟨rfl, rfl⟩
      · cases h
    | ifInPpp index =>
      simp only [step, handleMessage, handlePpp] at h
      split at h
      · cases h
      · cases h
        exact ⟨rfl, rfl⟩
    | ifInNetwork index => cases hnetwork

/-! ## Runs -/

/-- While the counters have counted packets, a step keeps them so if and only if its
packet is counted once. -/
theorem countsPackets_step {tr : Trace} {e : Event} (hp : Parallel s.rules)
    (hcounts : CountsPackets tr s) (h : step s e = .ok (s', out)) :
    CountsPackets (⟨s, e, out⟩ :: tr) s' ↔ countedOnce s e = true := by
  rw [countsPackets_iff] at hcounts ⊢
  obtain ⟨hblocked, hallowed⟩ := hcounts
  cases hinit : e.initializes with
  | true =>
    cases e with
    | initialization gates =>
      cases h
      simp [deletedPackets, allowedPackets, sinceInitialization, Event.initializes, countedOnce,
        initializeLimiter]
    | _ => cases hinit
  | false =>
    have hgains : s'.limiter.blocked = deletedPackets (⟨s, e, out⟩ :: tr) ∧
        s'.limiter.allowed = allowedPackets (⟨s, e, out⟩ :: tr) ↔
        Gains s s' (if fromNetwork e && deletes out then 1 else 0)
          (if fromNetwork e && (forwards out && matched out) then 1 else 0) := by
      simp only [Gains, hblocked, hallowed, deletedPackets, allowedPackets, sinceInitialization,
        takeWhile_cons, hinit, Bool.not_false, if_true, countP_cons]
    rw [hgains]
    cases hnetwork : fromNetwork e with
    | false =>
      have hnone := others_counted h hnetwork hinit
      have hother : countedOnce s e = true := by
        cases e with
        | arrival gate m draws =>
          cases gate with
          | ifInNetwork index => cases hnetwork
          | _ => rfl
        | _ => rfl
      simpa [hother] using hnone
    | true =>
      cases e with
      | arrival gate m draws =>
        cases gate with
        | ifInNetwork index => exact network_counted_iff hp h
        | _ => cases hnetwork
      | _ => cases hnetwork

/-- The recorded scalars count the deleted packets and the forwarded ones that matched, if and only
if every packet is counted once. -/
theorem counters_exact_iff {gates : Nat} {tr : Trace} {s : State}
    (h : Run step (initial gates) tr s) :
    (∀ earlier s', earlier <:+ tr → Run step (initial gates) earlier s' →
      CountsPackets earlier s') ↔
    ∀ st ∈ tr, countedOnce st.pre st.event = true := by
  induction h with
  | start =>
    refine iff_of_true ?_ (by simp)
    intro earlier s' hsuffix hrun
    cases suffix_nil.mp hsuffix
    cases hrun
    rfl
  | @next tr s s' e out hrun hstep ih =>
    have hp := parallel_run hrun
    rw [forall_mem_cons, and_comm, ← ih]
    constructor
    · intro hall
      have htail : ∀ earlier s₁, earlier <:+ tr → Run step (initial gates) earlier s₁ →
          CountsPackets earlier s₁ :=
        fun earlier s₁ hsuffix => hall earlier s₁ (hsuffix.trans (suffix_cons _ _))
      refine ⟨htail, ?_⟩
      have hlast := hall _ s' suffix_rfl (.next hrun hstep)
      exact (countsPackets_step hp (htail tr s suffix_rfl hrun) hstep).mp hlast
    · rintro ⟨htail, honce⟩ earlier s₁ hsuffix hrun₁
      rcases suffix_cons_iff.mp hsuffix with rfl | hsuffix
      · obtain rfl := hrun₁.state_unique (.next hrun hstep)
        exact (countsPackets_step hp (htail tr s suffix_rfl hrun) hstep).mpr honce
      · exact htail earlier s₁ hsuffix hrun₁

def ruleThenPackets : List Event :=
  [.addIPBlock "0.0.0.2" 40, .arrival (.ifInNetwork 0) (transit 7) fun _ => 30,
    .arrival (.ifInNetwork 0) (transit 8) fun _ => 50]

theorem counters_exact_ruleThenPackets :
    CountsPackets (replayTrace step (initial 1) ruleThenPackets)
      (replayState step (initial 1) ruleThenPackets) :=
  have hrun : Run step (initial 1) (replayTrace step (initial 1) ruleThenPackets)
      (replayState step (initial 1) ruleThenPackets) := run_of_replays (by decide +kernel)
  (counters_exact_iff hrun).mpr (by decide +kernel) _ _ suffix_rfl hrun

/-- One packet that matches an IP rule and a flow rule is deleted once and counted
twice; a packet of a source that the detector has blocked is deleted and not
counted. -/
theorem counters_not_packets :
    (∃ tr s, Run step (initial 1) tr s ∧ deletedPackets tr = 1 ∧
      finish s.limiter = [("Packets blocked", 2), ("Packets allowed", 0)]) ∧
    ∃ tr s, Run step (initial 1) tr s ∧ deletedPackets tr = 1 ∧
      finish s.limiter = [("Packets blocked", 0), ("Packets allowed", 0)] :=
  ⟨⟨replayTrace step (initial 1) [.addIPBlock "0.0.0.2" 100,
        .addFlowBlock "0.0.0.1" "0.0.0.2" 17 100,
        .arrival (.ifInNetwork 0) (transit 7) fun _ => 30],
      replayState step (initial 1) [.addIPBlock "0.0.0.2" 100,
        .addFlowBlock "0.0.0.1" "0.0.0.2" 17 100,
        .arrival (.ifInNetwork 0) (transit 7) fun _ => 30],
      run_of_replays (by decide +kernel), by decide +kernel, by decide +kernel⟩,
    replayTrace step (initial 1) [.arrival .fromIDS ⟨5, "block", .ipBlock 1 true⟩ fun _ => 0,
      .arrival (.ifInNetwork 0) (transit 7) fun _ => 30],
    replayState step (initial 1) [.arrival .fromIDS ⟨5, "block", .ipBlock 1 true⟩ fun _ => 0,
      .arrival (.ifInNetwork 0) (transit 7) fun _ => 30],
    run_of_replays (by decide +kernel), by decide +kernel, by decide +kernel⟩

end WormsAttack.Limiter
