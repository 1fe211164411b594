/-
  What becomes of a message.

  RATES.  The source compares with `probability <= rate`, where `probability` is one of
  0, ..., 99.  A rule of rate r therefore drops r + 1 packets of a hundred.

  OWNERSHIP.  Whoever handles a message has to send it on or to delete it, once.  A path on
  which the simulation stops, or a vector is accessed beyond its length, disposes of nothing.
-/
import WormsAttack.Limiter.Counters

namespace WormsAttack.Limiter

open Foundation Inet Omnet List

/-! ## The comparisons of a packet -/

def flowHash (d : IPDatagram) : UInt32 :=
  djbHash (generateKey d.srcAddress.str d.destAddress.str d.transportProtocol)

def Rules.rates (rules : Rules) : RuleKind → List Int
  | .link => rules.linkBlockRate
  | .ip => rules.ipBlockRate
  | .flow => rules.flowBlockRate

/-- The rule at position `i` matches the datagram `d` in the message `id`.  A link rule
matches by a mark of the message. -/
def Matches (rules : Rules) (id : Nat) (d : IPDatagram) : RuleKind → Nat → Prop
  | .link, i => i ∈ marksOf rules id
  | .ip, i => rules.ipBlock[i]? = some d.destAddress
  | .flow, i => rules.flowBlock[i]? = some (flowHash d)

def checksOf (out : List Action) : List Check :=
  out.filterMap fun
    | .check c => some c
    | _ => none

variable {draws : Nat → Nat} {d : IPDatagram}

theorem probability_of_checksAt {kind : RuleKind} {rates : List Int} {positions : List Nat} :
    ∀ {first : Nat} {checks : List Check},
      checksAt kind rates draws first positions = some checks →
      ∀ (k : Nat) (c : Check), checks[k]? = some c → c.probability = draws (first + k) % 100 := by
  induction positions with
  | nil =>
    intro first checks h k c hc
    cases h
    cases hc
  | cons i positions ih =>
    intro first checks h k c hc
    simp only [checksAt] at h
    split at h
    · rename_i rate rest hrate hrest
      cases h
      cases k with
      | zero =>
        cases hc
        rfl
      | succ k =>
        have hprobability := ih hrest k c hc
        rwa [Nat.add_right_comm] at hprobability
    · cases h

theorem exists_mem_checksAt {kind : RuleKind} {rates : List Int} {positions : List Nat}
    {first : Nat} {checks : List Check}
    (h : checksAt kind rates draws first positions = some checks) (kind' : RuleKind) (i : Nat) :
    (∃ c ∈ checks, c.kind = kind' ∧ c.position = i) ↔ kind = kind' ∧ i ∈ positions := by
  obtain ⟨hpositions, hmem⟩ := mem_checksAt h
  constructor
  · rintro ⟨c, hc, rfl, rfl⟩
    exact ⟨(hmem c hc).1.symm, hpositions ▸ mem_map_of_mem hc⟩
  · rintro ⟨rfl, hi⟩
    rw [← hpositions] at hi
    obtain ⟨c, hc, rfl⟩ := mem_map.mp hi
    exact ⟨c, hc, (hmem c hc).1, rfl⟩

/-- The comparisons `checks` of the datagram `d` in the message `id`: one with each rule
that matches, with its rate, and with the draws in their order. -/
structure Compared (rules : Rules) (id : Nat) (d : IPDatagram) (draws : Nat → Nat)
    (checks : List Check) : Prop where
  matching : ∀ kind i,
    (∃ c ∈ checks, c.kind = kind ∧ c.position = i) ↔ Matches rules id d kind i
  rate : ∀ c ∈ checks, (rules.rates c.kind)[c.position]? = some c.rate
  draw : ∀ (k : Nat) (c : Check), checks[k]? = some c → c.probability = draws k % 100

theorem mem_positions_eq {α : Type} [DecidableEq α] {a : α} {rules : List α} {i : Nat} :
    i ∈ positions (· == a) 0 rules ↔ rules[i]? = some a := by
  rw [mem_positions]
  simp

theorem compared_append {rules : Rules} {id : Nat} {link ip flow : List Check}
    (hlink : checksAt .link rules.linkBlockRate draws 0 (marksOf rules id) = some link)
    (hip : checksAt .ip rules.ipBlockRate draws link.length
      (positions (· == d.destAddress) 0 rules.ipBlock) = some ip)
    (hflow : checksAt .flow rules.flowBlockRate draws (link.length + ip.length)
      (positions (· == flowHash d) 0 rules.flowBlock) = some flow) :
    Compared rules id d draws (link ++ ip ++ flow) where
  matching := by
    intro kind i
    have hsplit : (∃ c ∈ link ++ ip ++ flow, c.kind = kind ∧ c.position = i) ↔
        (∃ c ∈ link, c.kind = kind ∧ c.position = i) ∨
        (∃ c ∈ ip, c.kind = kind ∧ c.position = i) ∨
        ∃ c ∈ flow, c.kind = kind ∧ c.position = i := by
      simp only [mem_append, or_and_right, exists_or, or_assoc]
    rw [hsplit, exists_mem_checksAt hlink, exists_mem_checksAt hip, exists_mem_checksAt hflow,
      mem_positions_eq, mem_positions_eq]
    cases kind <;> simp [Matches]
  rate := by
    intro c hc
    have hkind : ∀ {kind rates positions first checks},
        checksAt kind rates draws first positions = some checks → rules.rates kind = rates →
        c ∈ checks → (rules.rates c.kind)[c.position]? = some c.rate := by
      intro kind rates positions first checks h hrates hmem
      obtain ⟨rfl, hrate⟩ := (mem_checksAt h).2 c hmem
      rw [hrates]
      exact hrate
    rcases mem_append.mp hc with hc | hc
    · rcases mem_append.mp hc with hc | hc
      · exact hkind hlink rfl hc
      · exact hkind hip rfl hc
    · exact hkind hflow rfl hc
  draw := by
    intro k c hc
    -- the position of a comparison among all of them is the number of its draw
    rcases Nat.lt_or_ge k (link ++ ip).length with hk | hk
    · rw [getElem?_append_left hk] at hc
      rcases Nat.lt_or_ge k link.length with hk' | hk'
      · rw [getElem?_append_left hk'] at hc
        simpa using probability_of_checksAt hlink k c hc
      · rw [getElem?_append_right hk'] at hc
        simpa [Nat.add_sub_cancel' hk'] using probability_of_checksAt hip _ c hc
    · rw [getElem?_append_right hk] at hc
      rw [length_append] at hk hc
      simpa [Nat.add_sub_cancel' hk] using probability_of_checksAt hflow _ c hc

theorem checksOf_append (out more : List Action) :
    checksOf (out ++ more) = checksOf out ++ checksOf more :=
  filterMap_append

theorem checksOf_checks (checks : List Check) : checksOf (checks.map .check) = checks := by
  simp [checksOf, filterMap_map]

theorem checksOf_output (checks : List Check) (toSend : Bool) (index : Nat) (x : RateLimiter) :
    checksOf (checks.map .check ++ [if toSend then .send (.ifOutPpp index) else .delete] ++
      (report x).2) = checks := by
  have hrow : checksOf (report x).2 = [] := by
    unfold report
    split <;> rfl
  rw [checksOf_append, checksOf_append, checksOf_checks, hrow]
  cases toSend <;> simp [checksOf]

theorem judged_of_ok {s s' : State} (hp : Parallel s.rules) {index : Nat} {m : Message}
    (hbody : m.body = .datagram d) (hsource : d.srcAddress.addr.toInt32 ∉ s.limiter.blockedIPs)
    {out : List Action} (h : handleMessage s (.ifInNetwork index) m draws = .ok (s', out)) :
    Compared s.rules m.id d draws (checksOf out) ∧
      (deletes out = true ↔ ∃ c ∈ checksOf out, c.blocks = true) := by
  obtain ⟨-, link, hlink⟩ := handled_of_ok h
  obtain ⟨ip, flow, hip, hflow, v, hv, hok⟩ :=
    handleNetwork_judged index hp hbody hlink hsource
  have hout : _ = out := congrArg Prod.snd (Except.ok.inj (hok.symm.trans h))
  have hsend : v.toSend = (link ++ ip ++ flow).all fun c => !c.blocks := by
    rw [hv, Verdict.addAll_toSend]
    rfl
  rw [← hout, checksOf_output, deletes_output, hsend]
  have hany : ∀ checks : List Check,
      (!checks.all fun c => !c.blocks) = true ↔ ∃ c ∈ checks, c.blocks = true := by simp
  exact ⟨compared_append hlink hip hflow, hany _⟩

/-! ## Rates -/

/-- A packet is deleted exactly if a draw is below the rate of a rule that matches, unless
a draw is equal to the rate of such a rule and none is below. -/
theorem deleted_below_rate_iff {s s' : State} (hp : Parallel s.rules) {index : Nat}
    {m : Message} {draws : Nat → Nat} {d : IPDatagram} (hbody : m.body = .datagram d)
    (hsource : d.srcAddress.addr.toInt32 ∉ s.limiter.blockedIPs) {out : List Action}
    (h : handleMessage s (.ifInNetwork index) m draws = .ok (s', out)) :
    Compared s.rules m.id d draws (checksOf out) ∧
      ((deletes out = true ↔ ∃ c ∈ checksOf out, (c.probability : Int) < c.rate) ↔
        ((∃ c ∈ checksOf out, (c.probability : Int) = c.rate) →
          ∃ c ∈ checksOf out, (c.probability : Int) < c.rate)) := by
  obtain ⟨hcompared, hdeletes⟩ := judged_of_ok hp hbody hsource h
  have hblocks : (∃ c ∈ checksOf out, c.blocks = true) ↔
      (∃ c ∈ checksOf out, (c.probability : Int) < c.rate) ∨
        ∃ c ∈ checksOf out, (c.probability : Int) = c.rate := by
    rw [← exists_or]
    refine exists_congr fun c => ?_
    rw [← and_or_left, Check.blocks, decide_eq_true_eq, Int.le_iff_lt_or_eq]
  refine ⟨hcompared, ?_⟩
  rw [hdeletes, hblocks]
  exact or_iff_left_iff_imp

def limited (rate : Int) : State :=
  { blank with rules := { blank.rules with ipBlock := [⟨2⟩], ipBlockRate := [rate] } }

theorem parallel_limited (rate : Int) : Parallel (limited rate).rules := ⟨rfl, rfl, rfl⟩

theorem deleted_below_rate_three :
    ∃ s' out, handleMessage (limited 10) (.ifInNetwork 0) (transit 7) (fun _ => 3) =
        .ok (s', out) ∧
      (deletes out = true ↔ ∃ c ∈ checksOf out, (c.probability : Int) < c.rate) := by
  have h : handleMessage (limited 10) (.ifInNetwork 0) (transit 7) (fun _ => 3) =
      .ok ({ limited 10 with limiter := { (limited 10).limiter with blocked := 1 } },
        [.check ⟨.ip, 0, 10, 3⟩, .delete]) := by decide +kernel
  refine ⟨_, _, h, (deleted_below_rate_iff (parallel_limited 10) rfl (by decide) h).2.mpr ?_⟩
  exact fun _ => ⟨⟨.ip, 0, 10, 3⟩, by decide, by decide⟩

theorem deleted_by_rate_zero :
    ∃ s' out, handleMessage (limited 0) (.ifInNetwork 0) (transit 7) (fun _ => 100) =
        .ok (s', out) ∧ deletes out = true ∧
      ¬ ∃ c ∈ checksOf out, (c.probability : Int) < c.rate :=
  ⟨{ limited 0 with limiter := { (limited 0).limiter with blocked := 1 } },
    [.check ⟨.ip, 0, 0, 0⟩, .delete], by decide +kernel, by decide, by decide⟩

/-! ## Ownership -/

def disposals (out : List Action) : Nat :=
  out.countP fun
    | .send _ => true
    | .delete => true
    | _ => false

/-- The message is disposed of once, and left alone after that. -/
def DisposedOnce (s : State) (gate : InGate) (m : Message) (draws : Nat → Nat) : Prop :=
  ∃ s' out, handleMessage s gate m draws = .ok (s', out) ∧ disposals out = 1 ∧
    Action.touchDeleted ∉ out

/-- The message comes from an interface that has an entry in `link_block`, or it is a
datagram from the network layer and there is a rate at the position of each of its marks. -/
def Expected (s : State) (m : Message) : InGate → Prop
  | .fromIDS => False
  | .ifInPpp index => index < s.rules.linkBlock.length
  | .ifInNetwork _ =>
      (∃ d, m.body = .datagram d) ∧ ∀ i ∈ marksOf s.rules m.id, i < s.rules.linkBlockRate.length

theorem disposals_append (out more : List Action) :
    disposals (out ++ more) = disposals out + disposals more :=
  countP_append

theorem disposals_checks (checks : List Check) : disposals (checks.map .check) = 0 := by
  simp [disposals, countP_map, Function.comp_def]

theorem touchDeleted_notMem_checks (checks : List Check) :
    Action.touchDeleted ∉ checks.map Action.check := by
  simp

theorem disposals_report (x : RateLimiter) :
    disposals (report x).2 = 0 ∧ Action.touchDeleted ∉ (report x).2 := by
  unfold report
  split
  · exact ⟨rfl, by simp⟩
  · exact ⟨rfl, by simp⟩

theorem disposedOnce_network {s : State} (hp : Parallel s.rules) {index : Nat} {m : Message}
    (hbody : m.body = .datagram d) {link : List Check}
    (hlink : checksAt .link s.rules.linkBlockRate draws 0 (marksOf s.rules m.id) = some link) :
    DisposedOnce s (.ifInNetwork index) m draws := by
  by_cases hsource : d.srcAddress.addr.toInt32 ∈ s.limiter.blockedIPs
  · refine ⟨_, _, handleNetwork_blocked index hbody hlink hsource, ?_, ?_⟩
    · rw [disposals_append, disposals_checks]
      rfl
    · simp
  · obtain ⟨ip, flow, -, -, v, -, hok⟩ := handleNetwork_judged index hp hbody hlink hsource
    obtain ⟨hrow, hrow'⟩ := disposals_report ((s.limiter.counted v).noted d v.toSend)
    refine ⟨_, _, hok, ?_, ?_⟩
    · rw [disposals_append, disposals_append, disposals_checks, hrow]
      cases v.toSend <;> rfl
    · simp only [mem_append, not_or]
      refine ⟨⟨touchDeleted_notMem_checks _, ?_⟩, hrow'⟩
      cases v.toSend <;> simp

/-- The limiter disposes of a message once and leaves it alone exactly if it is not an
order of the detector and nothing stops the simulation on the way. -/
theorem disposed_once_iff {s : State} (hp : Parallel s.rules) (gate : InGate) (m : Message)
    (draws : Nat → Nat) : DisposedOnce s gate m draws ↔ Expected s m gate := by
  cases gate with
  | fromIDS =>
    refine iff_of_false ?_ id
    rintro ⟨s', out, h, -, htouch⟩
    simp only [handleMessage, handleIDS] at h
    split at h
    · cases h
      simp at htouch
    · cases h
  | ifInPpp index =>
    simp only [DisposedOnce, handleMessage, handlePpp, Expected]
    constructor
    · rintro ⟨s', out, h, -⟩
      split at h
      · cases h
      · rename_i marked hmarked
        exact (List.getElem?_eq_some_iff.mp hmarked).1
    · intro hindex
      rw [getElem?_eq_getElem hindex]
      exact ⟨_, _, rfl, rfl, by simp⟩
  | ifInNetwork index =>
    rw [Expected, ← checksAt_isSome .link s.rules.linkBlockRate draws _ 0, Option.isSome_iff_exists]
    constructor
    · rintro ⟨s', out, h, -⟩
      exact handled_of_ok h
    · rintro ⟨⟨d, hbody⟩, link, hlink⟩
      exact disposedOnce_network hp hbody hlink

theorem disposed_once_transit :
    DisposedOnce (limited 10) (.ifInNetwork 0) (transit 7) fun _ => 3 :=
  (disposed_once_iff (parallel_limited 10) _ _ _).mpr ⟨⟨_, rfl⟩, by decide⟩

theorem order_touched_after_delete :
    ∃ s', handleMessage (limited 10) .fromIDS ⟨5, "block", .ipBlock 1 true⟩ (fun _ => 0) =
      .ok (s', [.delete, .touchDeleted]) :=
  ⟨_, rfl⟩

end WormsAttack.Limiter
