/-
  Several exporters in one simulation.
-/
import WormsAttack.Foundation.Network
import WormsAttack.Exporter.Timers

namespace WormsAttack.Exporter

open Foundation Inet Omnet List

variable {ι : Type} [DecidableEq ι]

/-! ## The network -/

structure Shared (ι : Type) where
  kernel : Kernel ι
  table : FlowTable ι

def handle (a : ι) (shared : Shared ι) (x : FlowExporter) (e : Event ι) :
    Except Stop (Shared ι × FlowExporter × List (Action ι)) := do
  let (s, out) ← step a ⟨shared.kernel, shared.table, x⟩ e
  .ok (⟨s.kernel, s.table⟩, s.exporter, out)

abbrev Exporters (ι : Type) : Type := Network ι (Shared ι) FlowExporter

def Exporters.initial : Exporters ι :=
  { shared := { kernel := .start, table := ∅ }, members := fun _ => .initialized }

def Exporters.at (n : Exporters ι) (a : ι) : State ι :=
  { kernel := n.shared.kernel, table := n.shared.table, exporter := n.members a }

abbrev NetworkStep (ι : Type) : Type :=
  Step (Exporters ι) (ι × Event ι) (List (Action ι))

variable {n : Exporters ι} {e : Event ι} {out : List (Action ι)} {n' : Exporters ι} {a : ι}
  {f : Flow ι} {b : ι} {t : Int} {s : State ι}

theorem network_transition (h : Network.step handle n (a, e) = .ok (n', out)) :
    ∃ s', Transition a (n.at a) e s' out ∧
      n' = { shared := ⟨s'.kernel, s'.table⟩
             members := Function.update n.members a s'.exporter } := by
  obtain ⟨shared, own, hhandle, rfl⟩ := Network.step_eq_ok.mp h
  simp only [handle, bind_eq_ok, Prod.exists, Except.ok.injEq, Prod.mk.injEq] at hhandle
  obtain ⟨s', out', hstep, rfl, rfl, rfl⟩ := hhandle
  exact ⟨s', transition_of_step hstep, rfl⟩

/-! ## Ownership -/

/-- The record was created by `a`: its expiry message is one of `a`'s. -/
def Flow.ownedBy (a : ι) (f : Flow ι) : Bool := f.pointer.map (·.owner) = some a

theorem ownedBy_iff : f.ownedBy a = true ↔ f.pointer.map (·.owner) = some a := by
  simp [Flow.ownedBy]

theorem not_ownedBy (hne : b ≠ a) (h : f.ownedBy b = true) : f.ownedBy a = false := by
  rw [ownedBy_iff] at h
  simp [Flow.ownedBy, h, hne]

/-- The key under which an exporter with members `x` searches the table when it
handles the event. -/
def searched (x : FlowExporter) : Event ι → Option String
  | .arrival _ ⟨_, _, .datagram d⟩ => if x.Active then some (flowKey d) else none
  | .arrival _ _ => none
  | .selfMessage p => some p.name
  | .setTimeouts _ _ => none

def FindsOwn (st : NetworkStep ι) : Prop :=
  ∀ k ∈ searched (st.pre.members st.event.1) st.event.2,
    ∀ f ∈ st.pre.shared.table.lookup k, f.ownedBy st.event.1 = true

instance (st : NetworkStep ι) : Decidable (FindsOwn st) :=
  Option.decidableForallMem _

omit [DecidableEq ι] in
theorem searched_of_count {x : FlowExporter} {m : Message} {d : IPDatagram} (hactive : x.Active)
    (hbody : m.body = .datagram d) : searched (ι := ι) x (.arrival t m) = some (flowKey d) := by
  obtain ⟨id, name, body⟩ := m
  subst hbody
  simp [searched, hactive]

/-! ## The records of one exporter -/

def Restricts (a : ι) (full part : FlowTable ι) : Prop :=
  ∀ k, part.lookup k = (full.lookup k).filter (·.ownedBy a)

section Restricts

variable {a : ι} {full part : FlowTable ι} {k : String} {f : Flow ι} (h : Restricts a full part)

include h

theorem Restricts.lookup_own (hk : full.lookup k = some f)
    (hf : f.ownedBy a = true) : part.lookup k = some f := by
  rw [h k, hk]
  exact if_pos hf

theorem Restricts.lookup_none (hk : full.lookup k = none) : part.lookup k = none := by
  rw [h k, hk]
  rfl

theorem Restricts.lookup_other (hk : full.lookup k = some f)
    (hf : f.ownedBy a = false) : part.lookup k = none := by
  rw [h k, hk]
  exact if_neg (by simp [hf])

theorem Restricts.change {full' part' : FlowTable ι} (k : String)
    (hkey : part'.lookup k = (full'.lookup k).filter (·.ownedBy a))
    (hfull : ∀ j, j ≠ k → full'.lookup j = full.lookup j)
    (hpart : ∀ j, j ≠ k → part'.lookup j = part.lookup j) : Restricts a full' part' := by
  intro j
  by_cases hj : j = k
  · exact hj ▸ hkey
  · rw [hfull j hj, hpart j hj]
    exact h j

theorem Restricts.insert_own (hf : f.ownedBy a = true) :
    Restricts a (full.insert k f) (part.insert k f) :=
  h.change k (by simp [AList.lookup_insert, Option.filter_some, hf])
    (fun _ hj => AList.lookup_insert_ne hj) fun _ hj => AList.lookup_insert_ne hj

theorem Restricts.insert_other (hk : part.lookup k = none)
    (hf : f.ownedBy a = false) : Restricts a (full.insert k f) part :=
  h.change k (by simp [AList.lookup_insert, Option.filter_some, hf, hk])
    (fun _ hj => AList.lookup_insert_ne hj) fun _ _ => rfl

theorem Restricts.erase_own : Restricts a (full.erase k) (part.erase k) :=
  h.change k (by simp) (fun _ hj => AList.lookup_erase_ne hj)
    fun _ hj => AList.lookup_erase_ne hj

theorem Restricts.erase_other (hk : part.lookup k = none) : Restricts a (full.erase k) part :=
  h.change k (by simp [hk]) (fun _ hj => AList.lookup_erase_ne hj) fun _ _ => rfl

end Restricts

/-- The state of `a` alone that corresponds to a state of the network. Its clock may be behind. -/
structure View (a : ι) (n : Exporters ι) (s : State ι) : Prop where
  exporter : s.exporter = n.members a
  now : s.kernel.now ≤ n.shared.kernel.now
  pending : s.kernel.pending = n.shared.kernel.pending.filter fun p => p.id.owner = a
  table : Restricts a n.shared.table s.table

theorem View.next (h : View a n s) (hnext : n.shared.kernel.Next t) : s.kernel.Next t := by
  refine ⟨h.now.trans hnext.1, fun p hp => ?_⟩
  rw [h.pending] at hp
  exact hnext.2 p (mem_of_mem_filter hp)

theorem view_own (hfinds : FindsOwn ⟨n, (a, e), out⟩) (hview : View a n s)
    (h : Network.step handle n (a, e) = .ok (n', out)) :
    ∃ s', step a s e = .ok (s', out) ∧ View a n' s' := by
  obtain ⟨s₁, htransition, rfl⟩ := network_transition h
  have hnextAlone : ∀ {t : Int}, n.shared.kernel.Next t → s.kernel.Next t := hview.next
  obtain ⟨⟨now, pending⟩, table, x⟩ := s
  obtain ⟨hexporter, hnow, hpending, htable⟩ := hview
  subst hexporter hpending
  cases htransition with
  | setTimeouts f i =>
    exact ⟨_, step_of_transition (.setTimeouts f i), by simp [Exporters.at], hnow, rfl, htable⟩
  | ignore hnext hcast hcounts =>
    exact ⟨_, step_of_transition (.ignore (hnextAlone hnext) hcast hcounts),
      by simp [Exporters.at, State.atTime], le_refl _, rfl, htable⟩
  | @reschedule t m d new f old hnext hactive hbody hnew hfound hpointer hwindow hfuture =>
    have hown : f.ownedBy a = true := hfinds _ (searched_of_count hactive hbody) f hfound
    refine ⟨_, step_of_transition (.reschedule (hnextAlone hnext) hactive hbody hnew
      (htable.lookup_own hfound hown) hpointer hwindow hfuture), by simp [Exporters.at],
      le_refl _, ?_, htable.insert_own (by simp [Flow.ownedBy])⟩
    simp [Exporters.at, filter_filter, Bool.and_comm]
  | @runOut t m d new f old hnext hactive hbody hnew hfound hpointer hwindow =>
    have hown : f.ownedBy a = true := hfinds _ (searched_of_count hactive hbody) f hfound
    refine ⟨_, step_of_transition (.runOut (hnextAlone hnext) hactive hbody hnew
      (htable.lookup_own hfound hown) hpointer hwindow), by simp [Exporters.at],
      le_refl _, ?_, htable.insert_own hown⟩
    simp [Exporters.at, filter_filter, Bool.and_comm]
  | @openFlow t m d new hnext hactive hbody hnew hmissing hflow hidle =>
    refine ⟨_, step_of_transition (.openFlow (hnextAlone hnext) hactive hbody hnew
      (htable.lookup_none hmissing) hflow hidle), by simp [Exporters.at],
      le_refl _, by simp [Exporters.at], htable.insert_own (by simp [Flow.ownedBy, Flow.opened])⟩
  | @expire p f hpending howner hnext hfound =>
    have hown : f.ownedBy a = true := hfinds _ rfl f hfound
    refine ⟨_, step_of_transition (.expire (mem_filter.mpr ⟨hpending, by simp [howner]⟩)
      howner (hnextAlone hnext) (htable.lookup_own hfound hown)), by simp [Exporters.at],
      le_refl _, ?_, htable.erase_own⟩
    exact erase_filter
  | @lapse p hpending howner hnext hmissing =>
    refine ⟨_, step_of_transition (.lapse (mem_filter.mpr ⟨hpending, by simp [howner]⟩)
      howner (hnextAlone hnext) (htable.lookup_none hmissing)), by simp [Exporters.at],
      le_refl _, ?_, htable⟩
    exact erase_filter

theorem filter_cancel_other (hne : b ≠ a) (hown : f.ownedBy b = true) {old : MsgId ι}
    (hpointer : f.pointer = some old) (pending : List (SelfMessage ι)) :
    (pending.filter fun p => p.id ≠ old).filter (fun p => p.id.owner = a) =
      pending.filter fun p => p.id.owner = a := by
  have hold : old.owner = b := by
    rw [ownedBy_iff, hpointer] at hown
    exact Option.some.inj hown
  rw [filter_filter]
  apply filter_congr
  intro p _
  by_cases hp : p.id.owner = a
  · have hid : p.id ≠ old := by
      rintro rfl
      exact hne (hold.symm.trans hp)
    simp [hid]
  · simp [hp]

theorem erase_filter_other (hne : b ≠ a) {p : SelfMessage ι} (howner : p.id.owner = b)
    (pending : List (SelfMessage ι)) :
    (pending.erase p).filter (fun q => q.id.owner = a) =
      pending.filter fun q => q.id.owner = a := by
  rw [← erase_filter]
  apply erase_of_not_mem
  intro hmem
  have ha := (mem_filter.mp hmem).2
  rw [decide_eq_true_eq, howner] at ha
  exact hne ha

theorem view_other (hne : b ≠ a) (hfinds : FindsOwn ⟨n, (b, e), out⟩) (hview : View a n s)
    (h : Network.step handle n (b, e) = .ok (n', out)) : View a n' s := by
  obtain ⟨s₁, htransition, rfl⟩ := network_transition h
  have hexporter : s.exporter = Function.update n.members b s₁.exporter a := by
    rw [Function.update_of_ne hne.symm]
    exact hview.exporter
  have hlater : ∀ {t : Int}, n.shared.kernel.Next t → s.kernel.now ≤ t :=
    fun hnext => hview.now.trans hnext.1
  cases htransition with
  | setTimeouts => exact ⟨hexporter, hview.now, hview.pending, hview.table⟩
  | ignore hnext => exact ⟨hexporter, hlater hnext, hview.pending, hview.table⟩
  | @reschedule t m d new f old hnext hactive hbody _ hfound hpointer =>
    have hown : f.ownedBy b = true := hfinds _ (searched_of_count hactive hbody) f hfound
    refine ⟨hexporter, hlater hnext, ?_, hview.table.insert_other
      (hview.table.lookup_other hfound (not_ownedBy hne hown))
      (not_ownedBy hne (by simp [Flow.ownedBy]))⟩
    simp only [filter_cons, hne, decide_false, Bool.false_eq_true, if_false]
    exact hview.pending.trans (filter_cancel_other hne hown hpointer _).symm
  | @runOut t m d new f old hnext hactive hbody _ hfound hpointer =>
    have hown : f.ownedBy b = true := hfinds _ (searched_of_count hactive hbody) f hfound
    exact ⟨hexporter, hlater hnext,
      hview.pending.trans (filter_cancel_other hne hown hpointer _).symm,
      hview.table.insert_other (hview.table.lookup_other hfound (not_ownedBy hne hown))
        (not_ownedBy hne hown)⟩
  | @openFlow t m d new hnext _ _ _ hmissing =>
    refine ⟨hexporter, hlater hnext, ?_, hview.table.insert_other (hview.table.lookup_none hmissing)
      (not_ownedBy hne (by simp [Flow.ownedBy, Flow.opened]))⟩
    simp only [filter_cons, hne, decide_false, Bool.false_eq_true, if_false]
    exact hview.pending
  | @expire p f _ howner hnext hfound =>
    have hown : f.ownedBy b = true := hfinds _ rfl f hfound
    exact ⟨hexporter, hlater hnext, hview.pending.trans (erase_filter_other hne howner _).symm,
      hview.table.erase_other (hview.table.lookup_other hfound (not_ownedBy hne hown))⟩
  | lapse _ howner hnext _ =>
    exact ⟨hexporter, hlater hnext, hview.pending.trans (erase_filter_other hne howner _).symm,
      hview.table⟩

/-! ## What the actions show -/

def OwnActions (a : ι) (out : List (Action ι)) : Prop :=
  (∀ m, Action.cancel m ∈ out → m.owner = a) ∧
    ∀ k f, Action.exportFlow k f ∈ out → f.ownedBy a = true

omit [DecidableEq ι] in
theorem searched_of_ignore {x : FlowExporter} {m : Message} (hcounts : ¬ Counts x m) :
    searched (ι := ι) x (.arrival t m) = none := by
  obtain ⟨id, name, body⟩ := m
  cases body with
  | datagram d =>
    have hactive : ¬ x.Active := fun hactive => hcounts ⟨hactive, d, rfl⟩
    simp [searched, hactive]
  | plain | packet | ipBlock address block => rfl

/-- A step finds only records of its own exporter exactly when its actions touch
only what the exporter owns. -/
theorem ownActions_iff {s' : State ι} (h : Transition a s e s' out) :
    OwnActions a out ↔
      ∀ k ∈ searched s.exporter e, ∀ f ∈ s.table.lookup k, f.ownedBy a = true := by
  cases h with
  | setTimeouts => simp [OwnActions, searched]
  | ignore _ _ hcounts => simp [OwnActions, searched_of_ignore hcounts]
  | reschedule _ hactive hbody _ hfound hpointer | runOut _ hactive hbody _ hfound hpointer =>
    simp [OwnActions, searched_of_count hactive hbody, hfound, Flow.ownedBy, hpointer]
  | openFlow _ hactive hbody _ hmissing =>
    simp [OwnActions, searched_of_count hactive hbody, hmissing]
  | expire _ _ _ hfound => simp [OwnActions, searched, hfound]
  | lapse _ _ _ hmissing => simp [OwnActions, searched, hmissing]

theorem alone_owns {tr : Trace ι} (h : Run (step a) initial tr s) :
    ∀ k f, s.table.lookup k = some f → f.ownedBy a = true := by
  refine h.invariant
    (I := fun _ s => ∀ k f, s.table.lookup k = some f → f.ownedBy a = true) ?_ ?_
  · intro k f hk
    cases hk
  · intro tr s s' e out hi hstep k f hk
    cases transition_of_step hstep with
    | setTimeouts | ignore | lapse => exact hi k f hk
    | reschedule =>
      rcases lookup_insert_cases hk with ⟨-, rfl⟩ | ⟨-, hk⟩
      · simp [Flow.ownedBy]
      · exact hi k f hk
    | runOut _ _ _ _ hfound =>
      rcases lookup_insert_cases hk with ⟨-, rfl⟩ | ⟨-, hk⟩
      · have hown := hi _ _ hfound
        exact hown
      · exact hi k f hk
    | openFlow =>
      rcases lookup_insert_cases hk with ⟨-, rfl⟩ | ⟨-, hk⟩
      · simp [Flow.ownedBy, Flow.opened]
      · exact hi k f hk
    | expire => exact hi k f (lookup_erase_cases hk).2

theorem alone_ownActions {tr : Trace ι} (h : Run (step a) initial tr s) :
    ∀ st ∈ tr, OwnActions a st.out := by
  intro st hst
  obtain ⟨later, earlier, rfl⟩ := append_of_mem hst
  obtain ⟨s', hrun, hstep, -⟩ := h.split later
  exact (ownActions_iff (transition_of_step hstep)).mpr fun k _ f hf => alone_owns hrun k f hf

/-! ## Isolation -/

/-- No step finds a foreign record exactly when every exporter does what it does alone. -/
theorem isolated_iff {tr : List (NetworkStep ι)} {n : Exporters ι}
    (h : Run (Network.step handle) Exporters.initial tr n) :
    (∀ st ∈ tr, FindsOwn st) ↔
      ∀ a, ∃ trace s, Run (step a) initial trace s ∧
        trace.map Step.label = Network.labelsOf a tr ∧ View a n s ∧
        ∀ st ∈ trace, OwnActions a st.out := by
  constructor
  · intro hfinds a
    have hstart : View a Exporters.initial (initial : State ι) :=
      ⟨rfl, le_refl _, rfl, fun _ => rfl⟩
    obtain ⟨trace, s, hrun, hlabels, hview⟩ := Network.solo_of_run hstart
      (fun n n' s e out hfinds hview hstep => view_own hfinds hview hstep)
      (fun n n' s b e out hne hfinds hview hstep => view_other hne hfinds hview hstep) h hfinds
    exact ⟨trace, s, hrun, hlabels, hview, alone_ownActions hrun⟩
  · intro halone st hst
    obtain ⟨trace, s, -, hlabels, -, hown⟩ := halone st.event.1
    -- the label of the step is that of a step alone, whose actions are its own
    have hmem : (st.event.2, st.out) ∈ trace.map Step.label := by
      rw [hlabels]
      exact Network.mem_labelsOf hst rfl
    obtain ⟨st', hst', hlabel⟩ := mem_map.mp hmem
    have hout : st'.out = st.out := congrArg Prod.snd hlabel
    obtain ⟨later, earlier, rfl⟩ := append_of_mem hst
    obtain ⟨n', -, hstep, -⟩ := h.split later
    obtain ⟨s', htransition, -⟩ := network_transition hstep
    exact (ownActions_iff htransition).mp (hout ▸ hown st' hst')

def answerMessage : Message :=
  { id := 1
    name := "dns"
    body := .datagram
      { version := 4, srcAddress := ⟨2⟩, destAddress := ⟨1⟩, transportProtocol := 17
        byteLength := 60, encapsulated := some ⟨.udp ⟨53, 1000⟩, 40⟩ } }

def twoExporters (m m' : Message) : List (Bool × Event Bool) :=
  [(false, .setTimeouts 60 10), (true, .setTimeouts 60 10), (false, .arrival 0 m),
    (true, .arrival (seconds 1) m')]

theorem isolated_twoExporters :
    ∃ trace s, Run (step true) initial trace s ∧
      trace.map Step.label = Network.labelsOf true (replayTrace (Network.step handle)
        Exporters.initial (twoExporters (udpMessage "dns") answerMessage)) ∧
      s.exporter.packetCount = 1 := by
  have hrun : Run (Network.step handle) Exporters.initial (replayTrace (Network.step handle)
      Exporters.initial (twoExporters (udpMessage "dns") answerMessage)) _ :=
    run_of_replays (by decide)
  obtain ⟨trace, s, halone, hlabels, hview, -⟩ := (isolated_iff hrun).mp (by decide) true
  refine ⟨trace, s, halone, hlabels, ?_⟩
  rw [hview.exporter]
  decide

/-- Both exporters see the same flow: the second cancels the expiry message of the
first, which it never does alone. -/
theorem sharedFlow_not_isolated :
    Run (Network.step handle) Exporters.initial
      (replayTrace (Network.step handle) Exporters.initial
        (twoExporters (udpMessage "dns") (udpMessage "dns")))
      (replayState (Network.step handle) Exporters.initial
        (twoExporters (udpMessage "dns") (udpMessage "dns"))) ∧
    ¬ ∃ trace s, Run (step true) initial trace s ∧
      trace.map Step.label = Network.labelsOf true
        (replayTrace (Network.step handle) Exporters.initial
          (twoExporters (udpMessage "dns") (udpMessage "dns"))) := by
  refine ⟨run_of_replays (by decide), ?_⟩
  rintro ⟨trace, s, hrun, hlabels⟩
  have hcancel : ∃ l ∈ trace.map Step.label, Action.cancel ⟨false, 0⟩ ∈ l.2 := by
    rw [hlabels]
    decide
  obtain ⟨l, hl, hmem⟩ := hcancel
  obtain ⟨st, hst, rfl⟩ := mem_map.mp hl
  exact absurd ((alone_ownActions hrun st hst).1 _ hmem) (by decide)

end WormsAttack.Exporter
