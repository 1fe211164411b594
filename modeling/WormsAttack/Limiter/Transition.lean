/-
  What one step of a limiter can do.

  The lists of rules and the lists of their rates have the same lengths (`Parallel`), which
  every step keeps.
-/
import WormsAttack.Limiter.Judging

namespace WormsAttack.Limiter

open Foundation Inet Omnet

/-! ## The shared lists -/

def Rules.unmark (rules : Rules) (id : Nat) : Rules :=
  { rules with toBlock := kept (· == id) rules.toBlock }

inductive RulesStep (rules : Rules) : Event → Rules → Prop
  | resized (gates : Nat) :
      RulesStep rules (.initialization gates)
        { rules with
          linkBlock := resize gates false rules.linkBlock
          linkBlockRate := resize gates 0 rules.linkBlockRate }
  | linked {index rate : Int} (hindex : 0 ≤ index)
      (hlink : index.toNat < rules.linkBlock.length)
      (hrate : index.toNat < rules.linkBlockRate.length) :
      RulesStep rules (.addLinkBlock index rate)
        { rules with
          linkBlock := rules.linkBlock.set index.toNat true
          linkBlockRate := rules.linkBlockRate.set index.toNat rate }
  | listed {ip : String} {rate : Int} {address : IPAddress}
      (hparse : IPAddress.parse ip = some address) (hlisted : address ∈ rules.ipBlock) :
      RulesStep rules (.addIPBlock ip rate)
        { rules with linkBlock := [], linkBlockRate := [] }
  | ipAdded {ip : String} {rate : Int} {address : IPAddress}
      (hparse : IPAddress.parse ip = some address) (hnew : address ∉ rules.ipBlock) :
      RulesStep rules (.addIPBlock ip rate)
        { rules with
          linkBlock := [], linkBlockRate := []
          ipBlock := rules.ipBlock ++ [address], ipBlockRate := rules.ipBlockRate ++ [rate] }
  | flowListed {source destination : String} {protocol rate : Int}
      {ipBlock : List IPAddress} {ipBlockRate : List Int}
      (herase : eraseWhere (fun address : IPAddress => destination != address.str)
        (eraseAt Stop.outOfRange) rules.ipBlock rules.ipBlockRate = .ok (ipBlock, ipBlockRate))
      (hlisted : djbHash (generateKey source destination protocol) ∈ rules.flowBlock) :
      RulesStep rules (.addFlowBlock source destination protocol rate)
        { rules with ipBlock := ipBlock, ipBlockRate := ipBlockRate }
  | flowAdded {source destination : String} {protocol rate : Int}
      {ipBlock : List IPAddress} {ipBlockRate : List Int}
      (herase : eraseWhere (fun address : IPAddress => destination != address.str)
        (eraseAt Stop.outOfRange) rules.ipBlock rules.ipBlockRate = .ok (ipBlock, ipBlockRate))
      (hnew : djbHash (generateKey source destination protocol) ∉ rules.flowBlock) :
      RulesStep rules (.addFlowBlock source destination protocol rate)
        { rules with
          ipBlock := ipBlock, ipBlockRate := ipBlockRate
          flowBlock := rules.flowBlock ++ [djbHash (generateKey source destination protocol)]
          flowBlockRate := rules.flowBlockRate ++ [rate] }
  | ordered (m : Message) (draws : Nat → Nat) :
      RulesStep rules (.arrival .fromIDS m draws) rules
  | marked {index : Nat} {m : Message} {draws : Nat → Nat}
      (hlink : rules.linkBlock[index]? = some true) :
      RulesStep rules (.arrival (.ifInPpp index) m draws)
        { rules with toBlock := rules.toBlock ++ [m.id] }
  | passed {index : Nat} {m : Message} {draws : Nat → Nat}
      (hlink : rules.linkBlock[index]? = some false) :
      RulesStep rules (.arrival (.ifInPpp index) m draws) rules
  | unmarked (index : Nat) (m : Message) (draws : Nat → Nat) :
      RulesStep rules (.arrival (.ifInNetwork index) m draws)
        (rules.unmark m.id)

def forwards (out : List Action) : Bool :=
  out.any fun
    | .send _ => true
    | _ => false

variable {rules : Rules} {s : State} {rate : Int} {rules' : Rules}

theorem linkLoop_marks {id : Nat} {draws : Nat → Nat} {v v' : Verdict} {toBlock : List Nat}
    (h : linkLoop rules id draws v = .ok (toBlock, v')) :
    toBlock = kept (· == id) rules.toBlock := by
  rw [linkLoop_eq, bind_eq_ok] at h
  obtain ⟨v₁, -, h⟩ := h
  exact (congrArg Prod.fst (Except.ok.inj h)).symm

theorem handleNetwork_rules {s' : State} {index : Nat} {m : Message} {draws : Nat → Nat}
    {out : List Action} (h : handleNetwork s index m draws = .ok (s', out)) :
    s'.rules = s.rules.unmark m.id := by
  simp only [handleNetwork, bind_eq_ok, Prod.exists] at h
  obtain ⟨toBlock, v, hloop, h⟩ := h
  rw [Rules.unmark, ← linkLoop_marks hloop]
  split at h
  · split at h
    · cases h; rfl
    · simp only [bind_eq_ok] at h
      obtain ⟨v', -, h⟩ := h
      cases h; rfl
  · cases h

theorem rulesStep_of_addLinkBlock {index : Int} (h : addLinkBlock rules index rate = .ok rules') :
    RulesStep rules (.addLinkBlock index rate) rules' := by
  obtain ⟨hrange, h⟩ := guard_eq_ok.mp h
  cases h
  exact .linked hrange.1 hrange.2.1 hrange.2.2

theorem rulesStep_of_addIPBlock {ip : String} (h : addIPBlock rules ip rate = .ok rules') :
    RulesStep rules (.addIPBlock ip rate) rules' := by
  simp only [addIPBlock] at h
  split at h
  · cases h
  rename_i address hparse
  split_ifs at h with hlisted
  · cases h
    exact .listed hparse hlisted
  · cases h
    exact .ipAdded hparse hlisted

theorem rulesStep_of_addFlowBlock {source destination : String} {protocol : Int}
    (h : addFlowBlock rules source destination protocol rate = .ok rules') :
    RulesStep rules (.addFlowBlock source destination protocol rate) rules' := by
  simp only [addFlowBlock, bind_eq_ok, Prod.exists] at h
  obtain ⟨ipBlock, ipBlockRate, herase, h⟩ := h
  split_ifs at h with hlisted
  · cases h
    exact .flowListed herase hlisted
  · cases h
    exact .flowAdded herase hlisted

theorem rulesStep_of_step {s' : State} {e : Event} {out : List Action}
    (h : step s e = .ok (s', out)) : RulesStep s.rules e s'.rules := by
  cases e with
  | initialization gates =>
    cases h
    exact .resized gates
  | addLinkBlock index rate =>
    obtain ⟨rules, hrules, h⟩ := bind_eq_ok.mp h
    cases h
    exact rulesStep_of_addLinkBlock hrules
  | addIPBlock ip rate =>
    obtain ⟨rules, hrules, h⟩ := bind_eq_ok.mp h
    cases h
    exact rulesStep_of_addIPBlock hrules
  | addFlowBlock source destination protocol rate =>
    obtain ⟨rules, hrules, h⟩ := bind_eq_ok.mp h
    cases h
    exact rulesStep_of_addFlowBlock hrules
  | arrival gate m draws =>
    cases gate with
    | fromIDS =>
      simp only [step, handleMessage, handleIDS] at h
      split at h
      · cases h
        exact .ordered m draws
      · cases h
    | ifInPpp index =>
      simp only [step, handleMessage, handlePpp] at h
      split at h
      · cases h
      rename_i marked hlink
      cases h
      cases marked with
      | true => exact .marked hlink
      | false => exact .passed hlink
    | ifInNetwork index =>
      have hrules := handleNetwork_rules h
      rw [hrules]
      exact .unmarked index m draws

/-! ## Rules and rates -/

structure Parallel (rules : Rules) : Prop where
  ip : rules.ipBlock.length = rules.ipBlockRate.length
  flow : rules.flowBlock.length = rules.flowBlockRate.length
  link : rules.linkBlock.length = rules.linkBlockRate.length

@[simp] theorem length_resize {α : Type} (n : Nat) (fill : α) (v : List α) :
    (resize n fill v).length = n := by
  simp only [resize, List.length_append, List.length_take, List.length_replicate]
  omega

theorem parallel_step {e : Event} (hp : Parallel rules) (h : RulesStep rules e rules') :
    Parallel rules' := by
  -- the loop of `addFlowBlock` erases the same positions from both lists
  have herased : ∀ {destination : String} {ipBlock : List IPAddress} {ipBlockRate : List Int},
      eraseWhere (fun address : IPAddress => destination != address.str)
        (eraseAt Stop.outOfRange) rules.ipBlock rules.ipBlockRate = .ok (ipBlock, ipBlockRate) →
      ipBlock.length = ipBlockRate.length := by
    intro destination ipBlock ipBlockRate herase
    rw [eraseWhere_parallel _ _ _ _ hp.ip] at herase
    cases herase
    rw [List.length_map, List.length_map]
  cases h with
  | resized gates => exact ⟨hp.ip, hp.flow, by simp⟩
  | linked => exact ⟨hp.ip, hp.flow, by simp [hp.link]⟩
  | listed => exact ⟨hp.ip, hp.flow, rfl⟩
  | ipAdded => exact ⟨by simp [hp.ip], hp.flow, rfl⟩
  | flowListed herase => exact ⟨herased herase, hp.flow, hp.link⟩
  | flowAdded herase => exact ⟨herased herase, by simp [hp.flow], hp.link⟩
  | ordered | passed => exact hp
  | marked | unmarked => exact ⟨hp.ip, hp.flow, hp.link⟩

theorem parallel_initial (gates : Nat) : Parallel (initial gates).rules :=
  ⟨rfl, rfl, by simp [initial, initializeLimiter]⟩

theorem parallel_run {gates : Nat} {tr : List (Step State Event (List Action))}
    (h : Run step (initial gates) tr s) : Parallel s.rules :=
  h.invariant (I := fun _ s => Parallel s.rules) (parallel_initial gates)
    fun _ _ _ _ _ hp hstep => parallel_step hp (rulesStep_of_step hstep)

/-! ## Packets from the network layer -/

theorem applyRules_eq (hip : rules.ipBlock.length = rules.ipBlockRate.length)
    (hflow : rules.flowBlock.length = rules.flowBlockRate.length) (d : IPDatagram)
    (draws : Nat → Nat) (v : Verdict) :
    ∃ ip flow,
      checksAt .ip rules.ipBlockRate draws v.checks.length
        (positions (· == d.destAddress) 0 rules.ipBlock) = some ip ∧
      checksAt .flow rules.flowBlockRate draws (v.checks.length + ip.length)
        (positions (· == djbHash (generateKey d.srcAddress.str d.destAddress.str
          d.transportProtocol)) 0 rules.flowBlock) = some flow ∧
      applyRules rules d draws v = .ok (v.addAll (ip ++ flow)) := by
  obtain ⟨ip, hchecks⟩ := Option.isSome_iff_exists.mp
    ((checksAt_isSome .ip rules.ipBlockRate draws
      (positions (· == d.destAddress) 0 rules.ipBlock) v.checks.length).mpr
      fun p hmem => hip ▸ positions_lt hmem)
  obtain ⟨flow, hchecks'⟩ := Option.isSome_iff_exists.mp
    ((checksAt_isSome .flow rules.flowBlockRate draws
      (positions (· == djbHash (generateKey d.srcAddress.str d.destAddress.str
        d.transportProtocol)) 0 rules.flowBlock) (v.checks.length + ip.length)).mpr
      fun p hmem => hflow ▸ positions_lt hmem)
  refine ⟨ip, flow, hchecks, hchecks', ?_⟩
  have hlength : (v.addAll ip).checks.length = v.checks.length + ip.length := by simp
  have hfirst : ruleLoop .ip (· == d.destAddress) rules.ipBlockRate draws 0 rules.ipBlock v =
      .ok (v.addAll ip) := by
    rw [ruleLoop_eq, judgeAll_eq, hchecks]
  have hsecond : ruleLoop .flow (· == djbHash (generateKey d.srcAddress.str d.destAddress.str
      d.transportProtocol)) rules.flowBlockRate draws 0 rules.flowBlock (v.addAll ip) =
      .ok ((v.addAll ip).addAll flow) := by
    rw [ruleLoop_eq, judgeAll_eq, hlength, hchecks']
  rw [applyRules, hfirst]
  refine hsecond.trans ?_
  rw [Verdict.addAll, Verdict.addAll, Verdict.addAll, List.foldl_append]

section Network

variable {s : State} {m : Message} {draws : Nat → Nat} {d : IPDatagram} {link : List Check}

theorem handleNetwork_outOfRange (index : Nat)
    (hlink : checksAt .link s.rules.linkBlockRate draws 0 (marksOf s.rules m.id) = none) :
    handleNetwork s index m draws = .error .outOfRange := by
  rw [handleNetwork, linkLoop_start, hlink]
  rfl

theorem handleNetwork_badCast (index : Nat) (hbody : ∀ d, m.body ≠ .datagram d)
    (hlink : checksAt .link s.rules.linkBlockRate draws 0 (marksOf s.rules m.id) = some link) :
    handleNetwork s index m draws = .error .badCast := by
  rw [handleNetwork, linkLoop_start, hlink]
  cases hm : m.body with
  | datagram d => exact absurd hm (hbody d)
  | plain | packet | ipBlock address block => rfl

theorem handled_of_ok {index : Nat} {r : State × List Action}
    (h : handleNetwork s index m draws = .ok r) :
    (∃ d, m.body = .datagram d) ∧
      ∃ link, checksAt .link s.rules.linkBlockRate draws 0 (marksOf s.rules m.id) = some link := by
  cases hlink : checksAt .link s.rules.linkBlockRate draws 0 (marksOf s.rules m.id) with
  | none => cases (handleNetwork_outOfRange index hlink).symm.trans h
  | some link =>
    refine ⟨by_contra fun hbody => ?_, link, rfl⟩
    cases (handleNetwork_badCast index (not_exists.mp hbody) hlink).symm.trans h

theorem handleNetwork_blocked (index : Nat) (hbody : m.body = .datagram d)
    (hlink : checksAt .link s.rules.linkBlockRate draws 0 (marksOf s.rules m.id) = some link)
    (hblocked : d.srcAddress.addr.toInt32 ∈ s.limiter.blockedIPs) :
    handleNetwork s index m draws =
      .ok (⟨s.rules.unmark m.id, s.limiter.counted ((Verdict.start s.limiter).addAll link)⟩,
        link.map .check ++ [.delete]) := by
  rw [handleNetwork, linkLoop_start, hlink]
  simp only [hbody, hblocked, if_true, bind, Except.bind, Verdict.addAll_checks]
  rfl

theorem handleNetwork_judged (index : Nat) (hp : Parallel s.rules) (hbody : m.body = .datagram d)
    (hlink : checksAt .link s.rules.linkBlockRate draws 0 (marksOf s.rules m.id) = some link)
    (hblocked : d.srcAddress.addr.toInt32 ∉ s.limiter.blockedIPs) :
    ∃ ip flow,
      checksAt .ip s.rules.ipBlockRate draws link.length
        (positions (· == d.destAddress) 0 s.rules.ipBlock) = some ip ∧
      checksAt .flow s.rules.flowBlockRate draws (link.length + ip.length)
        (positions (· == djbHash (generateKey d.srcAddress.str d.destAddress.str
          d.transportProtocol)) 0 s.rules.flowBlock) = some flow ∧
      ∃ v, v = (Verdict.start s.limiter).addAll (link ++ ip ++ flow) ∧
        handleNetwork s index m draws =
          .ok (⟨s.rules.unmark m.id, (report ((s.limiter.counted v).noted d v.toSend)).1⟩,
            (link ++ ip ++ flow).map .check ++
              [if v.toSend then .send (.ifOutPpp index) else .delete] ++
              (report ((s.limiter.counted v).noted d v.toSend)).2) := by
  have hp' : Parallel (s.rules.unmark m.id) := ⟨hp.ip, hp.flow, hp.link⟩
  obtain ⟨ip, flow, hip, hflow, happly⟩ := applyRules_eq hp'.ip hp'.flow d draws
    ((Verdict.start s.limiter).addAll link)
  have hstart : ((Verdict.start s.limiter).addAll link).checks.length = link.length := by
    simp [Verdict.start]
  have hfold : ((Verdict.start s.limiter).addAll link).addAll (ip ++ flow) =
      (Verdict.start s.limiter).addAll (link ++ ip ++ flow) := by
    rw [Verdict.addAll, Verdict.addAll, Verdict.addAll, List.append_assoc, ← List.foldl_append]
  rw [hstart] at hip hflow
  rw [hfold] at happly
  refine ⟨ip, flow, hip, hflow, _, rfl, ?_⟩
  rw [handleNetwork, linkLoop_start, hlink]
  unfold Rules.unmark at happly
  simp only [hbody, hblocked, if_false, bind, Except.bind, happly, Verdict.addAll_checks]
  rfl

end Network

end WormsAttack.Limiter
