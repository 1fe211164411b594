/-
  The tables of IP rules and of flow rules.

  Both are tables that keep the first item (`Ledger.KeepsFirst`): a rule for something that has
  one is ignored.
-/
import WormsAttack.Foundation.Ledger
import WormsAttack.Limiter.Links

namespace WormsAttack.Limiter

open Foundation List
open Foundation.Ledger (KeepsFirst)
open Inet Omnet

/-! ## Histories -/

def removedBy (st : Step State Event (List Action)) : List IPAddress :=
  match step st.pre st.event with
  | .ok (s', _) => st.pre.rules.ipBlock.filter fun a => a ∉ s'.rules.ipBlock
  | .error _ => []

def ipPostings (st : Step State Event (List Action)) : List (Posting IPAddress Int) :=
  match st.event with
  | .addIPBlock ip rate => (IPAddress.parse ip).toList.map fun a => .post a rate
  | _ => (removedBy st).map .close

def ipHistory (tr : Trace) : List (Posting IPAddress Int) := tr.flatMap ipPostings

def flowPostings (st : Step State Event (List Action)) : List (Posting UInt32 Int) :=
  match st.event with
  | .addFlowBlock source destination protocol rate =>
      [.post (djbHash (generateKey source destination protocol)) rate]
  | _ => []

def flowHistory (tr : Trace) : List (Posting UInt32 Int) := tr.flatMap flowPostings

/-! ## The tables keep the first rate -/

def Rules.ipTable (rules : Rules) : List (IPAddress × Int) := rules.ipBlock.zip rules.ipBlockRate

def Rules.flowTable (rules : Rules) : List (UInt32 × Int) :=
  rules.flowBlock.zip rules.flowBlockRate

theorem map_fst_ipTable {rules : Rules} (hp : Parallel rules) :
    rules.ipTable.map Prod.fst = rules.ipBlock :=
  map_fst_zip (Nat.le_of_eq hp.ip)

theorem map_fst_flowTable {rules : Rules} (hp : Parallel rules) :
    rules.flowTable.map Prod.fst = rules.flowBlock :=
  map_fst_zip (Nat.le_of_eq hp.flow)

variable {s' s : State} {tr : Trace} {out : List Action} {e : Event} {rate : Int}

theorem ipTable_kept (hi : KeepsFirst (ipHistory tr) s.rules.ipTable)
    (hstep : step s e = .ok (s', out)) (hevent : ∀ ip rate, e ≠ .addIPBlock ip rate)
    (hblock : s'.rules.ipBlock = s.rules.ipBlock)
    (hrate : s'.rules.ipBlockRate = s.rules.ipBlockRate) :
    KeepsFirst (ipHistory (⟨s, e, out⟩ :: tr)) s'.rules.ipTable := by
  have hnone : removedBy ⟨s, e, out⟩ = [] := by
    simp only [removedBy, hstep, hblock]
    simp
  have hpostings : ipPostings ⟨s, e, out⟩ = [] := by
    cases e with
    | addIPBlock ip rate => exact absurd rfl (hevent ip rate)
    | _ => simp [ipPostings, hnone]
  have htable : s'.rules.ipTable = s.rules.ipTable := by
    rw [Rules.ipTable, hblock, hrate]
    rfl
  rw [ipHistory, flatMap_cons, hpostings, htable]
  exact hi

theorem ipTable_erased {source destination : String} {protocol : Int} (hp : Parallel s.rules)
    (hp' : Parallel s'.rules) (hi : KeepsFirst (ipHistory tr) s.rules.ipTable)
    (hstep : step s (.addFlowBlock source destination protocol rate) = .ok (s', out))
    (herase : eraseWhere (fun address : IPAddress => destination != address.str)
      (eraseAt Stop.outOfRange) s.rules.ipBlock s.rules.ipBlockRate =
        .ok (s'.rules.ipBlock, s'.rules.ipBlockRate)) :
    KeepsFirst (ipHistory (⟨s, .addFlowBlock source destination protocol rate, out⟩ :: tr))
      s'.rules.ipTable := by
  rw [eraseWhere_parallel _ _ _ _ hp.ip] at herase
  have hpair := Prod.mk.inj (Except.ok.inj herase)
  have htable : s'.rules.ipTable =
      kept (fun e => destination != e.1.str) s.rules.ipTable := by
    rw [Rules.ipTable, ← hpair.1, ← hpair.2]
    exact (zip_of_prod rfl rfl).symm
  have hsub : s'.rules.ipTable.Sublist s.rules.ipTable := by
    rw [htable]
    exact kept_sublist _ _
  refine hi.close hsub fun a => ?_
  rw [map_fst_ipTable hp, map_fst_ipTable hp']
  simp [removedBy, hstep]

theorem ipTable_step (hp : Parallel s.rules) (hi : KeepsFirst (ipHistory tr) s.rules.ipTable)
    (hstep : step s e = .ok (s', out)) :
    KeepsFirst (ipHistory (⟨s, e, out⟩ :: tr)) s'.rules.ipTable := by
  have hrules := rulesStep_of_step hstep
  have hp' := parallel_step hp hrules
  generalize hr : s'.rules = rules' at hrules
  cases hrules with
  | @listed ip rate address hparse hlisted =>
    have hpostings : ipPostings ⟨s, .addIPBlock ip rate, out⟩ = [.post address rate] := by
      simp [ipPostings, hparse]
    rw [ipHistory, flatMap_cons, hpostings]
    refine hi.post_known ?_ rate
    rw [map_fst_ipTable hp]
    exact hlisted
  | @ipAdded ip rate address hparse hnew =>
    have hpostings : ipPostings ⟨s, .addIPBlock ip rate, out⟩ = [.post address rate] := by
      simp [ipPostings, hparse]
    have htable : (s.rules.ipBlock ++ [address]).zip (s.rules.ipBlockRate ++ [rate]) =
        s.rules.ipTable ++ [(address, rate)] :=
      zip_append hp.ip
    rw [ipHistory, flatMap_cons, hpostings, Rules.ipTable, htable]
    refine hi.post_new ?_ rate
    rw [map_fst_ipTable hp]
    exact hnew
  | flowListed herase hlisted | flowAdded herase hnew =>
    rw [← hr]
    refine ipTable_erased hp hp' hi hstep ?_
    rw [hr]
    exact herase
  | _ =>
    -- no other event touches the IP rules
    have hblock := congrArg Rules.ipBlock hr
    have hrate := congrArg Rules.ipBlockRate hr
    rw [← hr]
    exact ipTable_kept hi hstep (fun _ _ => nofun) hblock hrate

theorem flowTable_step (hp : Parallel s.rules) (hi : KeepsFirst (flowHistory tr) s.rules.flowTable)
    (hstep : step s e = .ok (s', out)) :
    KeepsFirst (flowHistory (⟨s, e, out⟩ :: tr)) s'.rules.flowTable := by
  have hrules := rulesStep_of_step hstep
  generalize s'.rules = rules' at hrules
  cases hrules with
  | flowListed herase hlisted =>
    refine hi.post_known ?_ _
    rw [map_fst_flowTable hp]
    exact hlisted
  | @flowAdded source destination protocol rate _ _ herase hnew =>
    have htable : (s.rules.flowBlock ++ [djbHash (generateKey source destination protocol)]).zip
        (s.rules.flowBlockRate ++ [rate]) =
          s.rules.flowTable ++ [(djbHash (generateKey source destination protocol), rate)] :=
      zip_append hp.flow
    rw [Rules.flowTable, htable]
    refine hi.post_new ?_ rate
    rw [map_fst_flowTable hp]
    exact hnew
  | _ => exact hi

theorem tables_run {gates : Nat} (h : Run step (initial gates) tr s) :
    KeepsFirst (ipHistory tr) s.rules.ipTable ∧
      KeepsFirst (flowHistory tr) s.rules.flowTable := by
  induction h with
  | start => exact ⟨.nil, .nil⟩
  | next hrun hstep ih =>
    have hp := parallel_run hrun
    exact ⟨ipTable_step hp ih.1 hstep, flowTable_step hp ih.2 hstep⟩

/-! ## A rule that is listed stays as it is -/

theorem addIPBlock_listed {a : IPAddress} (ha : a ∈ s.rules.ipBlock) {ip : String}
    (hparse : IPAddress.parse ip = some a) (hstep : step s (.addIPBlock ip rate) = .ok (s', out)) :
    s'.rules.ipTable = s.rules.ipTable := by
  have hrules := rulesStep_of_step hstep
  generalize s'.rules = rules' at hrules
  cases hrules with
  | listed => rfl
  | ipAdded hparse' hnew =>
    rw [hparse] at hparse'
    cases hparse'
    exact absurd ha hnew

theorem addFlowBlock_listed {source destination : String} {protocol : Int}
    (hlisted : djbHash (generateKey source destination protocol) ∈ s.rules.flowBlock)
    (hstep : step s (.addFlowBlock source destination protocol rate) = .ok (s', out)) :
    s'.rules.flowTable = s.rules.flowTable := by
  have hrules := rulesStep_of_step hstep
  generalize s'.rules = rules' at hrules
  cases hrules with
  | flowListed => rfl
  | flowAdded herase hnew => exact absurd hlisted hnew

/-- Rules and rates are parallel, no rule is listed twice, and each rate is the one of the first
add since the last removal. -/
theorem rule_tables {gates : Nat} {tr : Trace} {s : State} (h : Run step (initial gates) tr s) :
    (s.rules.ipBlock.length = s.rules.ipBlockRate.length ∧
      s.rules.flowBlock.length = s.rules.flowBlockRate.length) ∧
    (s.rules.ipBlock.Nodup ∧ s.rules.flowBlock.Nodup) ∧
    (∀ (i : Nat) a rate, s.rules.ipBlock[i]? = some a → s.rules.ipBlockRate[i]? = some rate →
      (Ledger.openLog a (ipHistory tr)).head? = some rate) ∧
    (∀ (i : Nat) flow rate, s.rules.flowBlock[i]? = some flow →
      s.rules.flowBlockRate[i]? = some rate →
      (Ledger.openLog flow (flowHistory tr)).head? = some rate) ∧
    (∀ ip a rate s' out, IPAddress.parse ip = some a → a ∈ s.rules.ipBlock →
      step s (.addIPBlock ip rate) = .ok (s', out) → s'.rules.ipTable = s.rules.ipTable) ∧
    (∀ source destination protocol rate s' out,
      djbHash (generateKey source destination protocol) ∈ s.rules.flowBlock →
      step s (.addFlowBlock source destination protocol rate) = .ok (s', out) →
      s'.rules.flowTable = s.rules.flowTable) := by
  have hp := parallel_run h
  obtain ⟨hip, hflow⟩ := tables_run h
  refine ⟨⟨hp.ip, hp.flow⟩, ⟨?_, ?_⟩, ?_, ?_, ?_, ?_⟩
  · exact map_fst_ipTable hp ▸ hip.nodup
  · exact map_fst_flowTable hp ▸ hflow.nodup
  · intro i a rate ha hrate
    refine hip.first (a, rate) (mem_of_getElem? (i := i) ?_)
    simp [Rules.ipTable, getElem?_zip_eq_some, ha, hrate]
  · intro i flow rate hf hrate
    refine hflow.first (flow, rate) (mem_of_getElem? (i := i) ?_)
    simp [Rules.flowTable, getElem?_zip_eq_some, hf, hrate]
  · intro ip a rate s' out hparse ha hstep
    exact addIPBlock_listed ha hparse hstep
  · intro source destination protocol rate s' out hlisted hstep
    exact addFlowBlock_listed hlisted hstep

theorem rule_tables_readded :
    (Ledger.openLog ⟨9⟩ (ipHistory (replayTrace step (initial 2)
      [.addIPBlock "0.0.0.9" 50, .addIPBlock "0.0.0.9" 60,
        .addFlowBlock "0.0.0.1" "0.0.0.2" 17 10, .addIPBlock "0.0.0.9" 70]))).head? = some 70 :=
  (rule_tables (run_of_replays (by decide +kernel))).2.2.1 0 ⟨9⟩ 70 (by decide +kernel)
    (by decide +kernel)

end WormsAttack.Limiter
