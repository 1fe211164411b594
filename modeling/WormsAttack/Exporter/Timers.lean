/-
  When records are exported.

  RETENTION.  Every record has its timeout message pending, so no record outlives its flow
  timeout: timeout messages are never cancelled.

  EARLINESS.  The timeout message of a record that went idle stays pending, and it exports
  whatever record has the key when it arrives.
-/
import WormsAttack.Exporter.Accounting

namespace WormsAttack.Exporter

open Foundation Inet Omnet List

variable {ι : Type}

/-! ## Retention -/

/-- A timeout message for the record of key `k` that started at `start`. Of the two messages that a
counted packet creates, the one with the odd number is the timeout message. -/
def Armed (pending : List (SelfMessage ι)) (k : String) (start window : Int) : Prop :=
  ∃ m ∈ pending, m.name = k ∧ m.id.serial % 2 = 1 ∧ m.arrival = start + seconds window

section Armed

variable {pending : List (SelfMessage ι)} {k : String} {start window : Int}

theorem Armed.mono {pending' : List (SelfMessage ι)} (h : Armed pending k start window)
    (hsub : pending ⊆ pending') : Armed pending' k start window := by
  obtain ⟨m, hmem, hm⟩ := h
  exact ⟨m, hsub hmem, hm⟩

variable [DecidableEq ι]

theorem Armed.cancel (h : Armed pending k start window) {old : MsgId ι}
    (hold : old.serial % 2 = 0) :
    Armed (pending.filter fun p => p.id ≠ old) k start window := by
  obtain ⟨m, hmem, hname, hodd, harrival⟩ := h
  refine ⟨m, mem_filter.mpr ⟨hmem, ?_⟩, hname, hodd, harrival⟩
  rw [decide_eq_true_eq]
  rintro rfl
  omega

theorem Armed.deliver (h : Armed pending k start window) {p : SelfMessage ι}
    (hne : k ≠ p.name) : Armed (pending.erase p) k start window := by
  obtain ⟨m, hmem, hname, hodd, harrival⟩ := h
  have hmp : m ≠ p := by
    rintro rfl
    exact hne hname.symm
  exact ⟨m, (mem_erase_of_ne hmp).mpr hmem, hname, hodd, harrival⟩

end Armed

structure Retained (tr : Trace ι) (s : State ι) : Prop where
  created_even : s.exporter.created % 2 = 0
  due : ∀ p ∈ s.kernel.pending, s.kernel.now ≤ p.arrival
  pointer_even : ∀ k f id, s.table.lookup k = some f → f.pointer = some id →
    id.serial % 2 = 0
  armed : ∀ k f, s.table.lookup k = some f → ∃ c, (openLog k tr).head? = some c ∧
    c.time = f.startTime ∧ Armed s.kernel.pending k f.startTime c.flowTimeout

variable [DecidableEq ι] {m : Message} {s : State ι} {d : IPDatagram} {t : Int}
  {out : List (Action ι)} {tr : Trace ι} {self : ι} {window idle : Int}

omit [DecidableEq ι] in
/-- A counted packet keeps the invariant if no timeout message is lost and its record has one. -/
theorem retained_count (hi : Retained tr s) {pending : List (SelfMessage ι)} {f : Flow ι}
    {id : MsgId ι} {c : Counted} (hactive : s.exporter.Active)
    (hbody : m.body = .datagram d) (hdue : ∀ p ∈ pending, t ≤ p.arrival)
    (hkept : ∀ {k start window}, Armed s.kernel.pending k start window →
      Armed pending k start window)
    (hpointer : f.pointer = some id) (heven : id.serial % 2 = 0)
    (hhead : (openLog (flowKey d) (⟨s, .arrival t m, out⟩ :: tr)).head? = some c)
    (htime : c.time = f.startTime)
    (harmed : Armed pending (flowKey d) f.startTime c.flowTimeout) :
    Retained (⟨s, .arrival t m, out⟩ :: tr)
      { kernel := { now := t, pending := pending }
        table := s.table.insert (flowKey d) f
        exporter := s.exporter.count m.name d } where
  created_even := by
    have heven := hi.created_even
    rw [count_created]
    omega
  due := hdue
  pointer_even := by
    intro k g id' hk hid
    rcases lookup_insert_cases hk with ⟨rfl, rfl⟩ | ⟨-, hk⟩
    · cases hpointer.symm.trans hid
      exact heven
    · exact hi.pointer_even k g id' hk hid
  armed := by
    intro k g hk
    rcases lookup_insert_cases hk with ⟨rfl, rfl⟩ | ⟨hne, hk⟩
    · exact ⟨c, hhead, htime, harmed⟩
    · obtain ⟨c, hhead, htime, harmed⟩ := hi.armed k g hk
      refine ⟨c, ?_, htime, hkept harmed⟩
      rw [openLog_count_ne hactive hbody hne]
      exact hhead

theorem retained_update (hi : Retained tr s) {f f' : Flow ι} {old id : MsgId ι}
    (extra : List (SelfMessage ι)) (hnext : s.kernel.Next t) (hactive : s.exporter.Active)
    (hbody : m.body = .datagram d) (hfound : s.table.lookup (flowKey d) = some f)
    (hpointer : f.pointer = some old) (hextra : ∀ p ∈ extra, t ≤ p.arrival)
    (hstart : f'.startTime = f.startTime) (hpointer' : f'.pointer = some id)
    (heven : id.serial % 2 = 0) :
    Retained (⟨s, .arrival t m, out⟩ :: tr)
      { kernel :=
          { now := t, pending := extra ++ s.kernel.pending.filter fun p => p.id ≠ old }
        table := s.table.insert (flowKey d) f'
        exporter := s.exporter.count m.name d } := by
  have hold := hi.pointer_even _ f old hfound hpointer
  obtain ⟨c, hhead, htime, harmed⟩ := hi.armed _ f hfound
  refine retained_count hi hactive hbody (fun p hp => ?_)
    (fun h => (h.cancel hold).mono (subset_append_right _ _)) hpointer' heven (c := c) ?_
    (htime.trans hstart.symm) (hstart ▸ (harmed.cancel hold).mono (subset_append_right _ _))
  · rcases mem_append.mp hp with hp | hp
    · exact hextra p hp
    · exact hnext.2 p (mem_of_mem_filter hp)
  · rw [openLog_count_self hactive hbody, head?_append, hhead]
    rfl

theorem retained_deliver {tr' : Trace ι} (hi : Retained tr s) {p : SelfMessage ι}
    {table : FlowTable ι} (hnext : s.kernel.Next p.arrival)
    (htable : ∀ k f, table.lookup k = some f → k ≠ p.name ∧ s.table.lookup k = some f)
    (hlog : ∀ k, k ≠ p.name → openLog k tr' = openLog k tr) :
    Retained tr' { s with kernel := s.kernel.deliver p, table := table } where
  created_even := hi.created_even
  due := fun q hq => hnext.2 q (mem_of_mem_erase hq)
  pointer_even := fun k f id hk hid => hi.pointer_even k f id (htable k f hk).2 hid
  armed := by
    intro k f hk
    obtain ⟨hne, hk⟩ := htable k f hk
    obtain ⟨c, hhead, htime, harmed⟩ := hi.armed k f hk
    refine ⟨c, ?_, htime, harmed.deliver hne⟩
    rw [hlog k hne]
    exact hhead

theorem retained_step {s' : State ι} {e : Event ι} (hi : Retained tr s)
    (htracks : Tracks tr s.table) (h : Transition self s e s' out) :
    Retained (⟨s, e, out⟩ :: tr) s' := by
  cases h with
  | setTimeouts newFlowTimeout newIdleTimeout =>
    exact ⟨hi.created_even, hi.due, hi.pointer_even, hi.armed⟩
  | ignore hnext _ hcounts =>
    refine ⟨hi.created_even, hnext.2, hi.pointer_even, ?_⟩
    unfold openLog
    rw [ledger_ignore hcounts]
    exact hi.armed
  | reschedule hnext hactive hbody _ hfound hpointer _ hfuture =>
    refine retained_update hi [_] hnext hactive hbody hfound hpointer ?_ rfl rfl hi.created_even
    intro p hp
    rw [mem_singleton.mp hp]
    simp only
    omega
  | runOut hnext hactive hbody _ hfound hpointer =>
    exact retained_update hi [] hnext hactive hbody hfound hpointer (forall_mem_nil _) rfl hpointer
      (hi.pointer_even _ _ _ hfound hpointer)
  | @openFlow t m d _ hnext hactive hbody _ hmissing hflow hidle =>
    have heven := hi.created_even
    refine retained_count (c := countedAs s.exporter t m.name d) hi hactive hbody (fun p hp => ?_)
      (fun h => h.mono (List.Subset.trans (subset_cons_self _ _) (subset_cons_self _ _))) rfl heven
      ?_ rfl ⟨_, mem_cons_of_mem _ mem_cons_self, rfl, by simp only; omega, rfl⟩
    · rcases mem_cons.mp hp with rfl | hp
      · simp only; omega
      rcases mem_cons.mp hp with rfl | hp
      · simp only; omega
      · exact hnext.2 p hp
    · rw [openLog_count_self hactive hbody, htracks.missing _ hmissing]
      rfl
  | expire _ _ hnext =>
    refine retained_deliver hi hnext (fun k f hk => lookup_erase_cases hk) fun k hne => ?_
    unfold openLog
    rw [ledger_expire, Ledger.openLog_close_ne hne.symm]
  | lapse _ _ hnext hmissing =>
    refine retained_deliver hi hnext (fun k f hk => ⟨?_, hk⟩) fun k _ => rfl
    rintro rfl
    rw [hmissing] at hk
    cases hk

theorem retained_run (h : Run (step self) initial tr s) : Retained tr s := by
  induction h with
  | start =>
    refine ⟨rfl, ?_, ?_, ?_⟩
    · intro p hp
      cases hp
    · intro k f id hk
      cases hk
    · intro k f hk
      cases hk
  | next hrun hstep ih => exact retained_step ih (tracks_run hrun) (transition_of_step hstep)

/-- Each record has a pending self-message at the end of its window, and the clock has not passed
it. -/
theorem record_retained_at_most {self : ι} {tr : Trace ι} {s : State ι}
    (h : Run (step self) initial tr s) (k : String) (f : Flow ι) (hk : s.table.lookup k = some f) :
    ∃ c, (openLog k tr).head? = some c ∧ c.time = f.startTime ∧
      (∃ p ∈ s.kernel.pending, p.name = k ∧ p.arrival ≤ f.startTime + seconds c.flowTimeout) ∧
      s.kernel.now ≤ f.startTime + seconds c.flowTimeout := by
  obtain ⟨c, hhead, htime, p, hp, hname, -, harrival⟩ := (retained_run h).armed k f hk
  refine ⟨c, hhead, htime, ⟨p, hp, hname, harrival.le⟩, ?_⟩
  rw [← harrival]
  exact (retained_run h).due p hp

theorem record_retained_twoPackets :
    ∃ f c, (replayState (step ()) initial ((twoPackets "dns" "dns").take 3)).table.lookup
        "0.0.0.1:0.0.0.2:17" = some f ∧
      (openLog "0.0.0.1:0.0.0.2:17"
        (replayTrace (step ()) initial ((twoPackets "dns" "dns").take 3))).head? = some c ∧
      c.flowTimeout = 60 ∧
      (replayState (step ()) initial ((twoPackets "dns" "dns").take 3)).kernel.now ≤
        f.startTime + seconds 60 := by
  have hrun : Run (step ()) initial
      (replayTrace (step ()) initial ((twoPackets "dns" "dns").take 3))
      (replayState (step ()) initial ((twoPackets "dns" "dns").take 3)) :=
    run_of_replays (by decide)
  obtain ⟨c, hhead, -, -, hnow⟩ := record_retained_at_most hrun "0.0.0.1:0.0.0.2:17" _ rfl
  cases hhead
  exact ⟨_, _, rfl, rfl, rfl, hnow⟩

/-! ## Earliness -/

def SetsOnly (window idle : Int) : Event ι → Prop
  | .setTimeouts newFlowTimeout newIdleTimeout =>
      newFlowTimeout = window ∧ newIdleTimeout = idle
  | _ => True

instance (window idle : Int) : ∀ e : Event ι, Decidable (SetsOnly window idle e)
  | .setTimeouts _ _ => inferInstanceAs (Decidable (_ ∧ _))
  | .arrival _ _ => isTrue trivial
  | .selfMessage _ => isTrue trivial

/-- If the step creates a record, no self-message with its key is due inside its window. -/
def NoneStale (st : Step (State ι) (Event ι) (List (Action ι))) : Prop :=
  match st.event with
  | .arrival t ⟨_, _, .datagram d⟩ =>
      st.pre.exporter.Active → st.pre.table.lookup (flowKey d) = none →
        ∀ p ∈ st.pre.kernel.pending, p.name = flowKey d →
          t + seconds st.pre.exporter.flowTimeout ≤ p.arrival
  | _ => True

omit [DecidableEq ι] in
theorem NoneStale.of_open (h : NoneStale ⟨s, .arrival t m, out⟩) (hactive : s.exporter.Active)
    (hbody : m.body = .datagram d) (hmissing : s.table.lookup (flowKey d) = none) :
    ∀ p ∈ s.kernel.pending, p.name = flowKey d →
      t + seconds s.exporter.flowTimeout ≤ p.arrival := by
  obtain ⟨id, name, body⟩ := m
  subst hbody
  exact h hactive hmissing

instance (st : Step (State ι) (Event ι) (List (Action ι))) : Decidable (NoneStale st) :=
  match st with
  | ⟨_, .arrival _ ⟨_, _, .datagram _⟩, _⟩ => inferInstanceAs (Decidable (_ → _ → _))
  | ⟨_, .arrival _ ⟨_, _, .plain⟩, _⟩ => isTrue trivial
  | ⟨_, .arrival _ ⟨_, _, .packet⟩, _⟩ => isTrue trivial
  | ⟨_, .arrival _ ⟨_, _, .ipBlock _ _⟩, _⟩ => isTrue trivial
  | ⟨_, .selfMessage _, _⟩ => isTrue trivial
  | ⟨_, .setTimeouts _ _, _⟩ => isTrue trivial

/-- `p` may export `f`: it is due at the end of the window or later, or it is the expiry message of
the last packet. -/
def Justified (window idle : Int) (f : Flow ι) (p : SelfMessage ι) : Prop :=
  f.startTime + seconds window ≤ p.arrival ∨
    f.pointer = some p.id ∧ p.arrival = f.endTime + seconds idle

structure Punctual (window idle : Int) (s : State ι) : Prop where
  timeouts : s.exporter.Active →
    s.exporter.flowTimeout = window ∧ s.exporter.idleTimeout = idle
  justified : ∀ k f, s.table.lookup k = some f →
    ∀ p ∈ s.kernel.pending, p.name = k → Justified window idle f p

theorem punctual_update (hi : Punctual window idle s) (t : Int) {f f' : Flow ι} {old : MsgId ι}
    (extra : List (SelfMessage ι)) (hactive : s.exporter.Active)
    (hfound : s.table.lookup (flowKey d) = some f) (hpointer : f.pointer = some old)
    (hstart : f'.startTime = f.startTime)
    (hextra : ∀ p ∈ extra, p.name = flowKey d ∧ Justified window idle f' p) :
    Punctual window idle
      { kernel :=
          { now := t, pending := extra ++ s.kernel.pending.filter fun p => p.id ≠ old }
        table := s.table.insert (flowKey d) f'
        exporter := s.exporter.count m.name d } where
  timeouts := by
    intro _
    rw [count_flowTimeout, count_idleTimeout]
    exact hi.timeouts hactive
  justified := by
    intro k g hk p hp hname
    rcases lookup_insert_cases hk with ⟨rfl, rfl⟩ | ⟨hne, hk⟩
    · rcases mem_append.mp hp with hp | hp
      · exact (hextra p hp).2
      obtain ⟨hp, hold⟩ := mem_filter.mp hp
      rcases hi.justified _ f hfound p hp hname with hwindow | ⟨hid, -⟩
      · exact .inl (hstart ▸ hwindow)
      -- the old expiry message is the one that has just been cancelled
      rw [hpointer] at hid
      cases hid
      simp at hold
    · rcases mem_append.mp hp with hp | hp
      · exact absurd (hname.symm.trans (hextra p hp).1) hne
      · exact hi.justified k g hk p (mem_of_mem_filter hp) hname

theorem punctual_step {s' : State ι} {e : Event ι} (hi : Punctual window idle s)
    (hsets : SetsOnly window idle e) (hstale : NoneStale ⟨s, e, out⟩)
    (h : Transition self s e s' out) : Punctual window idle s' := by
  cases h with
  | setTimeouts => exact ⟨fun _ => hsets, hi.justified⟩
  | ignore => exact ⟨hi.timeouts, hi.justified⟩
  | @reschedule t m d _ f old _ hactive _ _ hfound hpointer =>
    refine punctual_update hi t [_] hactive hfound hpointer rfl ?_
    intro p hp
    rw [mem_singleton.mp hp, (hi.timeouts hactive).2]
    exact ⟨rfl, .inr ⟨rfl, rfl⟩⟩
  | @runOut t m d _ f old _ hactive _ _ hfound hpointer =>
    refine punctual_update hi t [] hactive hfound hpointer rfl ?_
    intro p hp
    cases hp
  | @openFlow t m d new _ hactive hbody _ hmissing =>
    obtain ⟨hwindow, hidle⟩ := hi.timeouts hactive
    constructor
    · intro _
      rw [count_flowTimeout, count_idleTimeout]
      exact ⟨hwindow, hidle⟩
    · intro k g hk p hp hname
      rcases lookup_insert_cases hk with ⟨rfl, rfl⟩ | ⟨hne, hk⟩
      · rcases mem_cons.mp hp with rfl | hp
        · exact .inr ⟨rfl, by rw [hidle]; rfl⟩
        rcases mem_cons.mp hp with rfl | hp
        · exact .inl (by rw [hwindow]; exact le_refl _)
        · exact .inl (hwindow ▸ hstale.of_open hactive hbody hmissing p hp hname)
      · rcases mem_cons.mp hp with rfl | hp
        · exact absurd hname.symm hne
        rcases mem_cons.mp hp with rfl | hp
        · exact absurd hname.symm hne
        · exact hi.justified k g hk p hp hname
  | expire =>
    refine ⟨hi.timeouts, fun k f hk p hp hname => ?_⟩
    exact hi.justified k f (lookup_erase_cases hk).2 p (mem_of_mem_erase hp) hname
  | lapse =>
    exact ⟨hi.timeouts, fun k f hk p hp hname =>
      hi.justified k f hk p (mem_of_mem_erase hp) hname⟩

theorem punctual_run (h : Run (step self) initial tr s)
    (hsets : ∀ st ∈ tr, SetsOnly window idle st.event) (hstale : ∀ st ∈ tr, NoneStale st) :
    Punctual window idle s := by
  induction h with
  | start =>
    refine ⟨fun hactive => absurd rfl hactive.1, ?_⟩
    intro k f hk
    cases hk
  | next hrun hstep ih =>
    obtain ⟨hset, hsets⟩ := forall_mem_cons.mp hsets
    obtain ⟨hnone, hstale⟩ := forall_mem_cons.mp hstale
    exact punctual_step (ih hsets hstale) hset hnone (transition_of_step hstep)

/-- A record is exported at least the idle timeout after its last packet or the flow timeout after
its start. -/
theorem never_early {self : ι} {window idle : Int} {tr : Trace ι} {s : State ι}
    (h : Run (step self) initial tr s) (hsets : ∀ st ∈ tr, SetsOnly window idle st.event)
    (hstale : ∀ st ∈ tr, NoneStale st) :
    ∀ x ∈ exports tr,
      (∃ c, x.log.getLast? = some c ∧ c.time + seconds idle ≤ x.time) ∨
        x.flow.startTime + seconds window ≤ x.time := by
  intro x hx
  obtain ⟨later, st, earlier, rfl, hexported, htime, hlog⟩ := mem_exports hx
  obtain ⟨s', hrun, hstep, -⟩ := h.split later
  have hpunctual : Punctual window idle st.pre :=
    punctual_run hrun
      (fun st' hst' => hsets st' (mem_append_right _ (mem_cons_of_mem _ hst')))
      (fun st' hst' => hstale st' (mem_append_right _ (mem_cons_of_mem _ hst')))
  obtain ⟨p, hevent, hpending, hname, hfound⟩ := exporting_step hstep hexported
  have harrival : x.time = p.arrival := by rw [htime, stepTime, hevent]
  rw [harrival]
  rcases hpunctual.justified x.key x.flow hfound p hpending hname with hwindow | ⟨-, hidle⟩
  · exact .inr hwindow
  · obtain ⟨c, hlast, hc⟩ :=
      Option.map_eq_some_iff.mp ((tracks_run hrun).found x.key x.flow hfound).finish
    exact .inl ⟨c, hlog ▸ hlast, by rw [hidle, hc]⟩

theorem never_early_twoPackets :
    (exports (replayTrace (step ()) initial (twoPackets "dns" "dns"))).length = 1 ∧
    ∀ x ∈ exports (replayTrace (step ()) initial (twoPackets "dns" "dns")),
      (∃ c, x.log.getLast? = some c ∧ c.time + seconds 10 ≤ x.time) ∨
        x.flow.startTime + seconds 60 ≤ x.time :=
  ⟨by decide, never_early (run_of_replays (by decide)) (by decide) (by decide)⟩

/-- The record of the packet at 0 s is exported at 10 s, and its timeout message then exports, at 60
s, the record of the packet at 55 s. -/
def staleTimeout : List (Event Unit) :=
  [.setTimeouts 60 10, .arrival 0 (udpMessage "dns"),
    .selfMessage ⟨⟨(), 0⟩, "0.0.0.1:0.0.0.2:17", seconds 10⟩,
    .arrival (seconds 55) (udpMessage "dns"),
    .selfMessage ⟨⟨(), 1⟩, "0.0.0.1:0.0.0.2:17", seconds 60⟩]

theorem staleTimeout_exports_early :
    Run (step ()) initial (replayTrace (step ()) initial staleTimeout)
      (replayState (step ()) initial staleTimeout) ∧
    (∀ st ∈ replayTrace (step ()) initial staleTimeout, SetsOnly 60 10 st.event) ∧
    ∃ x ∈ exports (replayTrace (step ()) initial staleTimeout),
      (∀ c ∈ x.log, x.time < c.time + seconds 10) ∧
        x.time < x.flow.startTime + seconds 60 :=
  ⟨run_of_replays (by decide), by decide, by decide⟩

end WormsAttack.Exporter
