/-
  What `addFlowBlock` does, and to which packets its rules apply.

  A flow rule is the hash of a text: source, destination and protocol, one behind the other with
  nothing in between.  Flow rules are never removed, and new ones go to the end.

  Before it adds the rule, `addFlowBlock` goes through the IP rules to remove those of the
  destination.
-/
import WormsAttack.Limiter.Disposal

namespace WormsAttack.Limiter

open Foundation Inet Omnet List

/-! ## Flow rules -/

def AppliesFlow (out : List Action) (i : Nat) : Prop :=
  ∃ c ∈ checksOf out, c.kind = .flow ∧ c.position = i

theorem flowBlock_of_step {s s' : State} {e : Event} {out : List Action}
    (h : step s e = .ok (s', out)) : s.rules.flowBlock <+: s'.rules.flowBlock := by
  have hrules := rulesStep_of_step h
  generalize s'.rules = rules' at hrules
  cases hrules with
  | flowAdded => exact prefix_append _ _
  | _ => exact prefix_rfl

theorem flowBlock_of_run {s₁ s : State} {tr : Trace} (h : Run step s₁ tr s) :
    s₁.rules.flowBlock <+: s.rules.flowBlock :=
  h.invariant (I := fun _ s => s₁.rules.flowBlock <+: s.rules.flowBlock) prefix_rfl
    fun _ _ _ _ _ hprefix hstep => hprefix.trans (flowBlock_of_step hstep)

theorem parallel_of_run {s₁ s : State} {tr : Trace} (hp : Parallel s₁.rules)
    (h : Run step s₁ tr s) : Parallel s.rules :=
  h.invariant (I := fun _ s => Parallel s.rules) hp
    fun _ _ _ _ _ hp hstep => parallel_step hp (rulesStep_of_step hstep)

theorem flowBlock_added {s s' : State} {source destination : String} {protocol rate : Int}
    {out : List Action}
    (h : step s (.addFlowBlock source destination protocol rate) = .ok (s', out))
    (hnew : djbHash (generateKey source destination protocol) ∉ s.rules.flowBlock) :
    s'.rules.flowBlock[s.rules.flowBlock.length]? =
      some (djbHash (generateKey source destination protocol)) := by
  have hrules := rulesStep_of_step h
  generalize s'.rules = rules' at hrules
  cases hrules with
  | flowListed _ hlisted => exact absurd hlisted hnew
  | flowAdded => simp

def OfFlow (source destination : String) (protocol : Int) (d : IPDatagram) : Prop :=
  IPAddress.parse source = some d.srcAddress ∧ IPAddress.parse destination = some d.destAddress ∧
    protocol = d.transportProtocol

section Rule

variable {s₀ s₁ s s' : State} {source destination : String}
  {protocol rate : Int} {out₀ out : List Action} {tr : Trace} {index : Nat} {m : Message}
  {draws : Nat → Nat} {d : IPDatagram}

theorem not_appliesFlow_of_blocked (hbody : m.body = .datagram d)
    (hsource : d.srcAddress.addr.toInt32 ∈ s.limiter.blockedIPs)
    (h : handleMessage s (.ifInNetwork index) m draws = .ok (s', out)) (i : Nat) :
    ¬ AppliesFlow out i := by
  obtain ⟨-, link, hlink⟩ := handled_of_ok h
  have hok := handleNetwork_blocked index hbody hlink hsource
  have hout : _ = out := congrArg Prod.snd (Except.ok.inj (hok.symm.trans h))
  rw [AppliesFlow, ← hout, checksOf_append, checksOf_checks]
  rintro ⟨c, hc, hkind, -⟩
  have hlinks : c ∈ link := by simpa [checksOf] using hc
  rw [((mem_checksAt hlink).2 c hlinks).1] at hkind
  cases hkind

variable (hp : Parallel s₀.rules)
  (hadd : step s₀ (.addFlowBlock source destination protocol rate) = .ok (s₁, out₀))
  (hnew : djbHash (generateKey source destination protocol) ∉ s₀.rules.flowBlock)
  (hrun : Run step s₁ tr s) (hbody : m.body = .datagram d)
  (h : handleMessage s (.ifInNetwork index) m draws = .ok (s', out))

include hp hadd hnew hrun hbody h

theorem appliesFlow_iff :
    AppliesFlow out s₀.rules.flowBlock.length ↔
      d.srcAddress.addr.toInt32 ∉ s.limiter.blockedIPs ∧
        flowHash d = djbHash (generateKey source destination protocol) := by
  by_cases hsource : d.srcAddress.addr.toInt32 ∈ s.limiter.blockedIPs
  · exact iff_of_false (not_appliesFlow_of_blocked hbody hsource h _) fun hboth => hboth.1 hsource
  have hp₁ := parallel_step hp (rulesStep_of_step hadd)
  have hcompared := (judged_of_ok (parallel_of_run hp₁ hrun) hbody hsource h).1
  have hadded := flowBlock_added hadd hnew
  have hrule : s.rules.flowBlock[s₀.rules.flowBlock.length]? =
      some (djbHash (generateKey source destination protocol)) := by
    obtain ⟨later, hlater⟩ := flowBlock_of_run hrun
    rw [← hlater, List.getElem?_append_left (List.getElem?_eq_some_iff.mp hadded).1, hadded]
  rw [AppliesFlow, hcompared.matching, Matches, hrule, Option.some.injEq, eq_comm]
  exact (and_iff_right hsource).symm

/-- The rule is applied only to its flow exactly if the datagram is of that flow, has another hash,
or comes from a blocked source. -/
theorem flow_rule_exact_iff :
    (AppliesFlow out s₀.rules.flowBlock.length → OfFlow source destination protocol d) ↔
      OfFlow source destination protocol d ∨
        flowHash d ≠ djbHash (generateKey source destination protocol) ∨
        d.srcAddress.addr.toInt32 ∈ s.limiter.blockedIPs := by
  rw [appliesFlow_iff hp hadd hnew hrun hbody h, imp_iff_or_not, not_and_or, not_not,
    or_comm (a := _ ∈ _)]

end Rule

def flowMessage (source destination : IPAddress) : Message :=
  { id := 7
    name := "dns"
    body := .datagram
      { version := 4, srcAddress := source, destAddress := destination, transportProtocol := 17
        byteLength := 40, encapsulated := some ⟨.udp ⟨1000, 53⟩, 20⟩ } }

def flowLimited : State :=
  { blank with rules := { blank.rules with
      flowBlock := [djbHash "1.1.1.112.2.2.217"], flowBlockRate := [50] } }

theorem step_flowLimited :
    step blank (.addFlowBlock "1.1.1.1" "12.2.2.2" 17 50) = .ok (flowLimited, []) := rfl

theorem flow_rule_exact_elsewhere :
    ∃ s' out, handleMessage flowLimited (.ifInNetwork 0) (flowMessage ⟨1⟩ ⟨2⟩) (fun _ => 0) =
        .ok (s', out) ∧
      (AppliesFlow out 0 → OfFlow "1.1.1.1" "12.2.2.2" 17
        ⟨4, ⟨1⟩, ⟨2⟩, 17, 40, some ⟨.udp ⟨1000, 53⟩, 20⟩⟩) := by
  have h : handleMessage flowLimited (.ifInNetwork 0) (flowMessage ⟨1⟩ ⟨2⟩) (fun _ => 0) =
      .ok (flowLimited, [.send (.ifOutPpp 0)]) := by decide +kernel
  refine ⟨_, _, h, (flow_rule_exact_iff ⟨rfl, rfl, rfl⟩ step_flowLimited (by decide +kernel)
    .start rfl h).mpr (.inr (.inl (by decide +kernel)))⟩

theorem flow_rule_applied_elsewhere :
    ∃ s' out,
      handleMessage flowLimited (.ifInNetwork 0) (flowMessage ⟨0x0101010B⟩ ⟨0x02020202⟩)
        (fun _ => 0) = .ok (s', out) ∧
      step blank (.addFlowBlock "1.1.1.1" "12.2.2.2" 17 50) = .ok (flowLimited, []) ∧
      AppliesFlow out 0 ∧ IPAddress.parse "1.1.1.1" ≠ some ⟨0x0101010B⟩ ∧
      IPAddress.parse "1.1.1.11" = some ⟨0x0101010B⟩ ∧
      IPAddress.parse "2.2.2.2" = some ⟨0x02020202⟩ :=
  ⟨{ flowLimited with limiter := { flowLimited.limiter with blocked := 1 } },
    [.check ⟨.flow, 0, 50, 0⟩, .delete], by decide +kernel, rfl,
    ⟨⟨.flow, 0, 50, 0⟩, by decide, rfl, rfl⟩, by decide +kernel, by decide +kernel,
    by decide +kernel⟩

/-! ## The IP rules of the destination -/

def Rules.withIp (rules : Rules) (table : List (IPAddress × Int)) : Rules :=
  { rules with ipBlock := table.map Prod.fst, ipBlockRate := table.map Prod.snd }

theorem addFlowBlock_withIp (rules : Rules) (table : List (IPAddress × Int))
    (source destination : String) (protocol rate : Int) :
    ∃ rules', addFlowBlock (rules.withIp table) source destination protocol rate = .ok rules' ∧
      rules'.ipBlock = (kept (fun e => destination != e.1.str) table).map Prod.fst ∧
      rules'.ipBlockRate = (kept (fun e => destination != e.1.str) table).map Prod.snd := by
  have hzip : (table.map Prod.fst).zip (table.map Prod.snd) = table := by
    rw [← unzip_fst, ← unzip_snd, zip_unzip]
  have herase := eraseWhere_parallel Stop.outOfRange
    (fun address : IPAddress => destination != address.str) (table.map Prod.fst)
    (table.map Prod.snd) (by simp)
  rw [hzip] at herase
  simp only [addFlowBlock, Rules.withIp, herase, bind, Except.bind]
  by_cases hlisted : djbHash (generateKey source destination protocol) ∈ rules.flowBlock
  · exact ⟨_, if_pos hlisted, rfl, rfl⟩
  · exact ⟨_, if_neg hlisted, rfl, rfl⟩

/-- `addFlowBlock` removes the IP rules of the destination and no other exactly if there
are no IP rules. -/
theorem addFlowBlock_supersedes_iff (rules : Rules) (table : List (IPAddress × Int))
    (source destination : String) (protocol rate : Int) :
    (∃ rules', addFlowBlock (rules.withIp table) source destination protocol rate = .ok rules' ∧
      rules'.ipBlock = (table.filter fun e => destination != e.1.str).map Prod.fst ∧
      rules'.ipBlockRate = (table.filter fun e => destination != e.1.str).map Prod.snd) ↔
      table = [] := by
  rw [← kept_eq_filter_iff fun e : IPAddress × Int => destination != e.1.str]
  obtain ⟨rules', hok, hblock, hrate⟩ :=
    addFlowBlock_withIp rules table source destination protocol rate
  constructor
  · rintro ⟨rules₁, hok₁, hblock₁, hrate₁⟩
    obtain rfl := Except.ok.inj (hok.symm.trans hok₁)
    -- the addresses and the rates of two lists agree, so the lists do
    rw [← zip_unzip (kept (fun e : IPAddress × Int => destination != e.1.str) table),
      ← zip_unzip (table.filter fun e => destination != e.1.str)]
    rw [unzip_fst, unzip_snd, unzip_fst, unzip_snd, ← hblock, ← hrate, hblock₁, hrate₁]
  · intro h
    exact ⟨rules', hok, by rw [hblock, h], by rw [hrate, h]⟩

theorem addFlowBlock_keeps_destination :
    ∃ rules', addFlowBlock (blank.rules.withIp [(⟨5⟩, 50), (⟨9⟩, 90)]) "0.0.0.1" "0.0.0.9" 17 10 =
        .ok rules' ∧ rules'.ipBlock = [⟨9⟩] ∧ rules'.ipBlockRate = [90] := by
  obtain ⟨rules', hok, hblock, hrate⟩ :=
    addFlowBlock_withIp blank.rules [(⟨5⟩, 50), (⟨9⟩, 90)] "0.0.0.1" "0.0.0.9" 17 10
  exact ⟨rules', hok, hblock.trans (by decide +kernel), hrate.trans (by decide +kernel)⟩

end WormsAttack.Limiter
