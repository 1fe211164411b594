/-
  The loop from detection to mitigation.

  Source: ReaSE/src/applications/ids/IDSModule.cc (publication), the policy `adaptToIntrusion`
  of deliverable/ponder2/src/resource/policy.p2 (reaction), and
  ReaSE/src/applications/limiter/RateLimiter.cc (enforcement).

  The detector publishes the host that probes.  The policy hands its address to `addIPBlock` of
  a limiter, which compares its IP rules with the DESTINATION of a packet.

  The transport between simulation and policy server is a queue here: published addresses are
  handled in order, each after any delay.  The rate is a parameter (the policy has 1).
-/
import WormsAttack.Ids.Publication
import WormsAttack.Limiter.Transition

namespace WormsAttack.Mitigation

open Foundation Inet Omnet List Limiter
open Ids (IDSModule)

/-! ## The system -/

/-- The detector, the published addresses the policy has not handled, and a
limiter. -/
structure System where
  ids : IDSModule
  raised : List String
  limiter : Limiter.State

inductive Event
  | detect (m : Message)
  /-- the policy handles the oldest published address -/
  | react
  | limit (e : Limiter.Event)

inductive Output
  | detected (out : List Ids.Action)
  | reacted (victim : String)
  | limited (out : List Limiter.Action)
  deriving DecidableEq

def victims (out : List Ids.Action) : List String :=
  out.filterMap fun
    | .publish name (victim :: _) => if name = "intrusion" then some victim else none
    | _ => none

def step (rate : Int) (s : System) : Event → Except Stop (System × Output)
  | .detect m => do
      let (ids, out) ← Ids.handleMessage s.ids m
      .ok ({ s with ids := ids, raised := s.raised ++ victims out }, .detected out)
  | .react =>
      match s.raised with
      | [] => .error .notNext
      | victim :: rest => do
          let (limiter, _) ← Limiter.step s.limiter (.addIPBlock victim rate)
          .ok ({ s with raised := rest, limiter := limiter }, .reacted victim)
  | .limit e => do
      let (limiter, out) ← Limiter.step s.limiter e
      .ok ({ s with limiter := limiter }, .limited out)

def initial (dropRatio : Rat) (gates : Nat) : System :=
  { ids := Ids.initial dropRatio, raised := [], limiter := Limiter.initial gates }

abbrev Trace : Type := List (Step System Event Output)

inductive Transition (rate : Int) (s : System) : Event → System → Output → Prop
  | detected {m : Message} {ids : IDSModule} {out : List Ids.Action}
      (hids : Ids.handleMessage s.ids m = .ok (ids, out)) :
      Transition rate s (.detect m)
        { s with ids := ids, raised := s.raised ++ victims out } (.detected out)
  | reacted {victim : String} {rest : List String} {limiter : Limiter.State}
      {out : List Limiter.Action} (hraised : s.raised = victim :: rest)
      (hlimiter : Limiter.step s.limiter (.addIPBlock victim rate) = .ok (limiter, out)) :
      Transition rate s .react { s with raised := rest, limiter := limiter } (.reacted victim)
  | limited {e : Limiter.Event} {limiter : Limiter.State} {out : List Limiter.Action}
      (hlimiter : Limiter.step s.limiter e = .ok (limiter, out)) :
      Transition rate s (.limit e) { s with limiter := limiter } (.limited out)

variable {s : System} {rate : Int} {tr : Trace}

theorem transition_of_step {s' : System} {e : Event} {out : Output}
    (h : step rate s e = .ok (s', out)) : Transition rate s e s' out := by
  cases e with
  | detect m =>
    simp only [step, bind_eq_ok, Prod.exists] at h
    obtain ⟨ids, actions, hids, h⟩ := h
    cases h
    exact .detected hids
  | react =>
    simp only [step] at h
    split at h
    · cases h
    rename_i victim rest hraised
    simp only [bind_eq_ok, Prod.exists] at h
    obtain ⟨limiter, actions, hlimiter, h⟩ := h
    cases h
    exact .reacted hraised hlimiter
  | limit e =>
    simp only [step, bind_eq_ok, Prod.exists] at h
    obtain ⟨limiter, actions, hlimiter, h⟩ := h
    cases h
    exact .limited hlimiter

/-! ## From publication to reaction -/

def Published (victim : String) (tr : Trace) : Prop :=
  ∃ st ∈ tr, ∃ out, st.out = .detected out ∧ Ids.Action.publish "intrusion" [victim] ∈ out

theorem Published.later {victim : String} {tr : Trace} (h : Published victim tr)
    (st : Step System Event Output) : Published victim (st :: tr) := by
  obtain ⟨st', hmem, hout⟩ := h
  exact ⟨st', mem_cons_of_mem st hmem, hout⟩

theorem publish_of_mem_victims {x x' : IDSModule} {m : Message} {out : List Ids.Action}
    (h : Ids.handleMessage x m = .ok (x', out)) {victim : String} (hmem : victim ∈ victims out) :
    Ids.Action.publish "intrusion" [victim] ∈ out := by
  obtain ⟨action, haction, hvictim⟩ := mem_filterMap.mp hmem
  cases action with
  | sendDistack m => cases hvictim
  | publish name values =>
    obtain ⟨a, rfl, rfl⟩ := Ids.publish_shape h haction
    simp only [if_true, Option.some.injEq] at hvictim
    exact hvictim ▸ haction

/-- What is kept: raised and handled addresses have been published, and the lists of
the limiter stay parallel. -/
structure Sound (tr : Trace) (s : System) : Prop where
  raised : ∀ victim ∈ s.raised, Published victim tr
  reacted : ∀ st ∈ tr, ∀ victim, st.out = .reacted victim → Published victim tr
  parallel : Limiter.Parallel s.limiter.rules

theorem sound_step {s' : System} {e : Event} {out : Output} (hi : Sound tr s)
    (h : step rate s e = .ok (s', out)) : Sound (⟨s, e, out⟩ :: tr) s' := by
  have hearlier : ∀ st ∈ tr, ∀ victim, st.out = .reacted victim →
      Published victim (⟨s, e, out⟩ :: tr) :=
    fun st hst victim hout => (hi.reacted st hst victim hout).later _
  cases transition_of_step h with
  | @detected m ids actions hids =>
    refine ⟨?_, forall_mem_cons.mpr ⟨fun victim hout => (by cases hout), hearlier⟩,
      hi.parallel⟩
    intro victim hmem
    rcases mem_append.mp hmem with hold | hnew
    · exact (hi.raised victim hold).later _
    · exact ⟨_, mem_cons_self, actions, rfl, publish_of_mem_victims hids hnew⟩
  | @reacted victim rest limiter actions hraised hlimiter =>
    refine ⟨?_, forall_mem_cons.mpr ⟨?_, hearlier⟩,
      parallel_step hi.parallel (rulesStep_of_step hlimiter)⟩
    · intro other hmem
      exact (hi.raised other (hraised ▸ mem_cons_of_mem victim hmem)).later _
    · intro other hout
      cases hout
      exact (hi.raised _ (hraised ▸ mem_cons_self)).later _
  | limited hlimiter =>
    exact ⟨fun victim hmem => (hi.raised victim hmem).later _,
      forall_mem_cons.mpr ⟨fun victim hout => (by cases hout), hearlier⟩,
      parallel_step hi.parallel (rulesStep_of_step hlimiter)⟩

theorem sound_run {dropRatio : Rat} {gates : Nat}
    (h : Run (step rate) (initial dropRatio gates) tr s) : Sound tr s := by
  refine h.invariant (I := Sound) ⟨?_, ?_, parallel_initial gates⟩
    fun _ _ _ _ _ hi hstep => sound_step hi hstep
  · intro victim hmem
    cases hmem
  · intro st hst
    cases hst

/-! ## From reaction to enforcement -/

section Enforcement

open Limiter (Rules RulesStep Action Check RuleKind)

/-- The operation erases no IP rule and adds IP rules of this rate only.  (A new flow
rule erases the IP rules of every other destination.) -/
def KeepsRules (rate : Int) : Limiter.Event → Prop
  | .addFlowBlock .. => False
  | .addIPBlock _ r => r = rate
  | _ => True

def Enforces (rate : Int) (wanted : IPAddress → Prop) (rules : Rules) : Prop :=
  (∀ x, wanted x → x ∈ rules.ipBlock) ∧ ∀ r ∈ rules.ipBlockRate, r = rate

variable {rules : Rules} {rate : Int} {x : IPAddress} {tr : Trace} {s : System}
  {wanted : IPAddress → Prop} {e : Limiter.Event}

theorem enforces_step {rules' : Rules}
    (hi : Enforces rate wanted rules) (hkeeps : KeepsRules rate e) (h : RulesStep rules e rules') :
    Enforces rate wanted rules' := by
  obtain ⟨hlisted, hrates⟩ := hi
  cases h with
  | ipAdded hparse hnew =>
    refine ⟨fun x hx => mem_append_left _ (hlisted x hx), ?_⟩
    exact forall_mem_append.mpr ⟨hrates, forall_mem_singleton.mpr hkeeps⟩
  | flowListed herase hlisted | flowAdded herase hnew => cases hkeeps
  | resized gates | linked | listed | ordered m draws | marked | passed | unmarked index m draws =>
    exact ⟨hlisted, hrates⟩

theorem mem_ipBlock_of_addIPBlock {rules' : Rules}
    (h : RulesStep rules (.addIPBlock x.str rate) rules') : x ∈ rules'.ipBlock := by
  cases h with
  | listed hparse hlisted =>
    rw [IPAddress.parse_str] at hparse
    exact Option.some.inj hparse ▸ hlisted
  | ipAdded hparse hnew =>
    rw [IPAddress.parse_str] at hparse
    exact Option.some.inj hparse ▸ mem_append_right _ mem_cons_self

def Reacted (tr : Trace) (x : IPAddress) : Prop :=
  ∃ st ∈ tr, st.out = .reacted x.str

instance (tr : Trace) (x : IPAddress) : Decidable (Reacted tr x) :=
  inferInstanceAs (Decidable (∃ st ∈ tr, st.out = .reacted x.str))

/-- The operations on the limiter that are not the policy's keep its rules. -/
def Undisturbed (rate : Int) (tr : Trace) : Prop :=
  ∀ st ∈ tr, ∀ e, st.event = .limit e → KeepsRules rate e

theorem reacted_cons {st : Step System Event Output} :
    Reacted (st :: tr) x ↔ st.out = .reacted x.str ∨ Reacted tr x := by
  simp [Reacted]

theorem enforces_system_step {s' : System} {e : Event} {out : Output}
    (hi : Enforces rate (Reacted tr) s.limiter.rules)
    (hkeeps : ∀ e', e = .limit e' → KeepsRules rate e') (h : step rate s e = .ok (s', out)) :
    Enforces rate (Reacted (⟨s, e, out⟩ :: tr)) s'.limiter.rules := by
  cases transition_of_step h with
  | detected hids =>
    refine ⟨fun x hx => hi.1 x ((reacted_cons.mp hx).resolve_left ?_), hi.2⟩
    intro hout
    cases hout
  | @reacted victim rest limiter actions hraised hlimiter =>
    have hrules := rulesStep_of_step hlimiter
    have hkeep : KeepsRules rate (.addIPBlock victim rate) := rfl
    obtain ⟨hlisted, hrates⟩ := enforces_step hi hkeep hrules
    refine ⟨fun x hx => ?_, hrates⟩
    rcases reacted_cons.mp hx with hout | hearlier
    · cases hout
      exact mem_ipBlock_of_addIPBlock hrules
    · exact hlisted x hearlier
  | @limited e limiter actions hlimiter =>
    obtain ⟨hlisted, hrates⟩ :=
      enforces_step hi (hkeeps e rfl) (rulesStep_of_step hlimiter)
    refine ⟨fun x hx => hlisted x ((reacted_cons.mp hx).resolve_left ?_), hrates⟩
    intro hout
    cases hout

theorem enforces_run {dropRatio : Rat} {gates : Nat}
    (h : Run (step rate) (initial dropRatio gates) tr s) (hquiet : Undisturbed rate tr) :
    Enforces rate (Reacted tr) s.limiter.rules := by
  refine h.invariant (I := fun tr s => Undisturbed rate tr →
    Enforces rate (Reacted tr) s.limiter.rules) ?_ ?_ hquiet
  · intro _
    refine ⟨?_, ?_⟩
    · rintro x ⟨st, hst, -⟩
      cases hst
    · intro r hr
      cases hr
  · intro tr s s' e out hi hstep hquiet
    obtain ⟨hnow, hbefore⟩ := forall_mem_cons.mp hquiet
    exact enforces_system_step (hi hbefore) hnow hstep

theorem exists_rule (hp : Limiter.Parallel rules) (h : Enforces rate wanted rules) (hx : wanted x) :
    ∃ i : Nat, rules.ipBlock[i]? = some x ∧ rules.ipBlockRate[i]? = some rate := by
  obtain ⟨i, hi, hlisted⟩ := mem_iff_getElem.mp (h.1 x hx)
  have hrange : i < rules.ipBlockRate.length := hp.ip ▸ hi
  refine ⟨i, List.getElem?_eq_some_iff.mpr ⟨hi, hlisted⟩, ?_⟩
  rw [getElem?_eq_getElem hrange, h.2 _ (getElem_mem hrange)]

/-- A packet was evaluated against the IP rule for `x` with this rate, and dropped if
the draw said so. -/
def JudgedBy (rules : Rules) (x : IPAddress) (rate : Int) (out : List Action) : Prop :=
  ∃ c, Action.check c ∈ out ∧ c.kind = .ip ∧ rules.ipBlock[c.position]? = some x ∧
    c.rate = rate ∧ (c.blocks = true → Limiter.forwards out = false)

variable {checks : List Check}

theorem check_mem_iff {c : Check} {rest : List Action} (hrest : ∀ a ∈ rest, ∀ c, a ≠ .check c) :
    Action.check c ∈ checks.map .check ++ rest ↔ c ∈ checks := by
  constructor
  · intro hmem
    rcases mem_append.mp hmem with hmem | hmem
    · obtain ⟨c', hc', heq⟩ := mem_map.mp hmem
      cases heq
      exact hc'
    · exact absurd rfl (hrest _ hmem c)
  · intro hmem
    exact mem_append_left _ (mem_map_of_mem hmem)

theorem ne_check_of_mem_tail (toSend : Bool) (index : Nat) (y : Limiter.RateLimiter) :
    ∀ a ∈ [if toSend then Action.send (.ifOutPpp index) else .delete] ++ (report y).2,
      ∀ c, a ≠ .check c := by
  intro a hmem c heq
  subst heq
  rcases mem_append.mp hmem with hmem | hmem
  · cases toSend <;> cases mem_singleton.mp hmem
  · unfold report at hmem
    split at hmem <;> simp at hmem

theorem forwards_of_blocks {x : Limiter.RateLimiter} {index : Nat}
    {c : Check} (hmem : c ∈ checks) (hblocks : c.blocks = true) (y : Limiter.RateLimiter) :
    forwards (checks.map Action.check ++ [if ((Limiter.Verdict.start x).addAll checks).toSend then
        Action.send (.ifOutPpp index) else .delete] ++ (report y).2) = false := by
  have hdrop : ((Limiter.Verdict.start x).addAll checks).toSend = false := by
    rw [Limiter.Verdict.addAll_toSend, Bool.and_eq_false_iff]
    right
    rw [all_eq_false]
    exact ⟨c, hmem, by simp [hblocks]⟩
  have hreport : forwards (report y).2 = false := by
    unfold report
    split <;> rfl
  simp only [forwards] at hreport
  simp [forwards, hdrop, hreport, Function.comp_def]

theorem exists_check_iff {destination : IPAddress} {draws : Nat → Nat} {k : Nat} {ip : List Check}
    (hip : checksAt .ip rules.ipBlockRate draws k
      (positions (· == destination) 0 rules.ipBlock) = some ip) :
    (∃ c ∈ ip, rules.ipBlock[c.position]? = some x ∧ c.rate = rate) ↔
      destination = x ∧
        ∃ i : Nat, rules.ipBlock[i]? = some x ∧ rules.ipBlockRate[i]? = some rate := by
  obtain ⟨hpositions, hrates⟩ := mem_checksAt hip
  constructor
  · rintro ⟨c, hc, hlisted, rfl⟩
    have hposition : c.position ∈ positions (· == destination) 0 rules.ipBlock := by
      rw [← hpositions]
      exact mem_map_of_mem hc
    obtain ⟨-, rule, hrule, hdest⟩ := mem_positions.mp hposition
    rw [Nat.sub_zero, hlisted] at hrule
    cases hrule
    exact ⟨(beq_iff_eq.mp hdest).symm, c.position, hlisted, (hrates c hc).2⟩
  · rintro ⟨rfl, i, hlisted, hrate⟩
    have hposition : i ∈ positions (· == destination) 0 rules.ipBlock :=
      mem_positions.mpr ⟨Nat.zero_le i, destination, hlisted, beq_self_eq_true _⟩
    rw [← hpositions] at hposition
    obtain ⟨c, hc, rfl⟩ := mem_map.mp hposition
    exact ⟨c, hc, hlisted, Option.some.inj ((hrates c hc).2.symm.trans hrate)⟩

theorem judgedBy_output_iff (rules : Rules) (x : IPAddress) (rate : Int)
    {link ip flow : List Check} (hlink : ∀ c ∈ link, c.kind = .link)
    (hip : ∀ c ∈ ip, c.kind = .ip) (hflow : ∀ c ∈ flow, c.kind = .flow)
    (before after : Limiter.RateLimiter) (index : Nat) :
    JudgedBy rules x rate ((link ++ ip ++ flow).map Action.check ++
        [if ((Limiter.Verdict.start before).addAll (link ++ ip ++ flow)).toSend then
          Action.send (.ifOutPpp index) else .delete] ++ (report after).2) ↔
      ∃ c ∈ ip, rules.ipBlock[c.position]? = some x ∧ c.rate = rate := by
  constructor
  · rintro ⟨c, hmem, hkind, hlisted, hrate, -⟩
    rw [append_assoc, check_mem_iff (ne_check_of_mem_tail _ index _), mem_append,
      mem_append] at hmem
    rcases hmem with (hmem | hmem) | hmem
    · cases (hlink c hmem).symm.trans hkind
    · exact ⟨c, hmem, hlisted, hrate⟩
    · cases (hflow c hmem).symm.trans hkind
  · rintro ⟨c, hc, hlisted, hrate⟩
    have hmem : c ∈ link ++ ip ++ flow :=
      mem_append_left _ (mem_append_right _ hc)
    refine ⟨c, ?_, hip c hc, hlisted, hrate, fun hblocks => forwards_of_blocks hmem hblocks _⟩
    exact mem_append_left _ (mem_append_left _ (mem_map_of_mem hmem))

/-- A datagram from the network layer is evaluated against a listed rule exactly when it is handled,
is sent TO the address of the rule, and does not come from a blocked source. -/
theorem judgedBy_iff {s : Limiter.State} (hp : Limiter.Parallel s.rules) (index : Nat)
    {m : Message} {d : IPDatagram} (hbody : m.body = .datagram d) (draws : Nat → Nat)
    (x : IPAddress) (rate : Int) :
    (∃ s' out, Limiter.step s (.arrival (.ifInNetwork index) m draws) = .ok (s', out) ∧
      JudgedBy s.rules x rate out) ↔
    (∀ i ∈ marksOf s.rules m.id, i < s.rules.linkBlockRate.length) ∧
      d.srcAddress.addr.toInt32 ∉ s.limiter.blockedIPs ∧ d.destAddress = x ∧
      ∃ i : Nat, s.rules.ipBlock[i]? = some x ∧ s.rules.ipBlockRate[i]? = some rate := by
  rw [← checksAt_isSome .link s.rules.linkBlockRate draws]
  change (∃ s' out, handleNetwork s index m draws = .ok (s', out) ∧ _) ↔ _
  cases hlink : checksAt .link s.rules.linkBlockRate draws 0
      (marksOf s.rules m.id) with
  | none =>
    rw [handleNetwork_outOfRange index hlink]
    simp
  | some link =>
    have hlinkKind : ∀ c ∈ link, c.kind = .link :=
      fun c hc => ((mem_checksAt hlink).2 c hc).1
    by_cases hblocked : d.srcAddress.addr.toInt32 ∈ s.limiter.blockedIPs
    · -- Only the link rules are compared, then the packet is deleted.
      rw [handleNetwork_blocked index hbody hlink hblocked]
      constructor
      · rintro ⟨s', out, heq, c, hmem, hkind, -⟩
        cases heq
        rw [check_mem_iff (by simp)] at hmem
        cases (hlinkKind c hmem).symm.trans hkind
      · rintro ⟨-, hnot, -⟩
        exact absurd hblocked hnot
    · obtain ⟨ip, flow, hip, hflow, v, rfl, heq⟩ :=
        handleNetwork_judged index hp hbody hlink hblocked
      have houtput := fun after => (judgedBy_output_iff s.rules x rate hlinkKind
        (fun c hc => ((mem_checksAt hip).2 c hc).1)
        (fun c hc => ((mem_checksAt hflow).2 c hc).1) s.limiter after index).trans
        (exists_check_iff hip)
      rw [heq]
      constructor
      · rintro ⟨s', out, hout, hjudged⟩
        cases hout
        exact ⟨rfl, hblocked, (houtput _).mp hjudged⟩
      · rintro ⟨-, -, hrule⟩
        exact ⟨_, _, rfl, (houtput _).mpr hrule⟩

theorem limit_step_iff {out : List Action} :
    (∃ s', step rate s (.limit e) = .ok (s', .limited out)) ↔
      ∃ limiter, Limiter.step s.limiter e = .ok (limiter, out) := by
  constructor
  · rintro ⟨s', h⟩
    cases transition_of_step h with
    | limited hlimiter => exact ⟨_, hlimiter⟩
  · rintro ⟨limiter, hlimiter⟩
    exact ⟨{ s with limiter := limiter }, by rw [step, hlimiter]; rfl⟩

/-- An address that the policy has handled has been published and stays listed; but a datagram FROM
it is judged exactly when it is also sent TO it. -/
theorem mitigation_iff {rate : Int} {dropRatio : Rat} {gates : Nat} {tr : Trace} {s : System}
    (h : Run (step rate) (initial dropRatio gates) tr s) {x : IPAddress} (hreacted : Reacted tr x)
    {m : Message} {d : IPDatagram} (hbody : m.body = .datagram d) (hsource : d.srcAddress = x)
    (index : Nat) (draws : Nat → Nat) :
    Published x.str tr ∧
      (Undisturbed rate tr → ∃ i : Nat, s.limiter.rules.ipBlock[i]? = some x ∧
        s.limiter.rules.ipBlockRate[i]? = some rate) ∧
      ((∃ out, (∃ s', step rate s (.limit (.arrival (.ifInNetwork index) m draws)) =
          .ok (s', .limited out)) ∧ JudgedBy s.limiter.rules x rate out) ↔
        d.destAddress = x ∧ x.addr.toInt32 ∉ s.limiter.limiter.blockedIPs ∧
          (∃ i : Nat, s.limiter.rules.ipBlock[i]? = some x ∧
            s.limiter.rules.ipBlockRate[i]? = some rate) ∧
          ∀ i ∈ Limiter.marksOf s.limiter.rules m.id,
            i < s.limiter.rules.linkBlockRate.length) := by
  have hsound := sound_run h
  refine ⟨?_, fun hquiet => exists_rule hsound.parallel (enforces_run h hquiet) hreacted, ?_⟩
  · obtain ⟨st, hst, hout⟩ := hreacted
    exact hsound.reacted st hst x.str hout
  · have hjudged := judgedBy_iff hsound.parallel index hbody draws x rate
    rw [hsource] at hjudged
    simp only [limit_step_iff]
    constructor
    · rintro ⟨out, ⟨limiter, hstep⟩, hby⟩
      obtain ⟨hmarks, hsource, hdest, hlisted⟩ := hjudged.mp ⟨limiter, out, hstep, hby⟩
      exact ⟨hdest, hsource, hlisted, hmarks⟩
    · rintro ⟨hdest, hsource, hlisted, hmarks⟩
      obtain ⟨limiter, out, hstep, hby⟩ := hjudged.mpr ⟨hmarks, hsource, hdest, hlisted⟩
      exact ⟨out, ⟨limiter, hstep⟩, hby⟩

def probed : List Event :=
  [.detect (Ids.unreachableMessage 1), .detect (Ids.unreachableMessage 2), .react]

def probe (destination : IPAddress) : Message :=
  { id := 3, name := "worm_udp"
    body := .datagram
      { version := 4, srcAddress := ⟨5⟩, destAddress := destination
        transportProtocol := 17, byteLength := 48, encapsulated := none } }

theorem mitigation_of_probe_to_itself :
    ∃ out, (∃ s', step 1 (replayState (step 1) (initial (6 / 10) 2) probed)
        (.limit (.arrival (.ifInNetwork 0) (probe ⟨5⟩) fun _ => 0)) = .ok (s', .limited out)) ∧
      JudgedBy (replayState (step 1) (initial (6 / 10) 2) probed).limiter.rules ⟨5⟩ 1 out :=
  (mitigation_iff (run_of_replays (by decide +kernel)) (x := ⟨5⟩) (by decide +kernel) rfl rfl
    0 _).2.2.mpr ⟨rfl, by decide +kernel, ⟨0, by decide +kernel, by decide +kernel⟩,
      by decide +kernel⟩

theorem probe_to_other_forwarded :
    Run (step 1) (initial (6 / 10) 2) (replayTrace (step 1) (initial (6 / 10) 2) probed)
      (replayState (step 1) (initial (6 / 10) 2) probed) ∧
    Reacted (replayTrace (step 1) (initial (6 / 10) 2) probed) ⟨5⟩ ∧
    (step 1 (replayState (step 1) (initial (6 / 10) 2) probed)
      (.limit (.arrival (.ifInNetwork 0) (probe ⟨2⟩) fun _ => 0))).map Prod.snd =
        .ok (.limited [.send (.ifOutPpp 0)]) :=
  ⟨run_of_replays (by decide +kernel), by decide +kernel, by decide +kernel⟩

end Enforcement

/-! ## No reaction is lost or made twice -/

def messages (tr : Trace) : List Message :=
  tr.filterMap fun
    | ⟨_, .detect m, _⟩ => some m
    | _ => none

variable {dropRatio : Rat} {gates : Nat}

end WormsAttack.Mitigation
