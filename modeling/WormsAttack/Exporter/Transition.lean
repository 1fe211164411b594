/-
  What one step of an exporter can do.

  Every later proof about exporters cases on `Transition` and never unfolds a handler.
-/
import WormsAttack.Exporter.Handlers

namespace WormsAttack.Exporter

open Foundation Inet Omnet

variable {ι : Type}

def State.atTime (s : State ι) (t : Int) : State ι :=
  { s with kernel := { s.kernel with now := t } }

def Counts (x : FlowExporter) (m : Message) : Prop :=
  x.Active ∧ ∃ d, m.body = .datagram d

variable [DecidableEq ι]

inductive Transition (self : ι) (s : State ι) :
    Event ι → State ι → List (Action ι) → Prop
  | setTimeouts (newFlowTimeout newIdleTimeout : Int) :
      Transition self s (.setTimeouts newFlowTimeout newIdleTimeout)
        { s with exporter := setTimeouts s.exporter newFlowTimeout newIdleTimeout } []
  | ignore {t : Int} {m : Message} (hnext : s.kernel.Next t)
      (hcast : s.exporter.Active → m.body ≠ .packet) (hcounts : ¬ Counts s.exporter m) :
      Transition self s (.arrival t m) (s.atTime t) [.sendDistack]
  /-- A packet of a known flow, early enough for a new expiry message. -/
  | reschedule {t : Int} {m : Message} {d : IPDatagram} {new f : Flow ι} {old : MsgId ι}
      (hnext : s.kernel.Next t) (hactive : s.exporter.Active) (hbody : m.body = .datagram d)
      (hnew : newFlow m.name d = .ok new) (hfound : s.table.lookup (flowKey d) = some f)
      (hpointer : f.pointer = some old)
      (hwindow : t + seconds s.exporter.idleTimeout <
        f.startTime + seconds s.exporter.flowTimeout)
      (hfuture : 0 ≤ seconds s.exporter.idleTimeout) :
      Transition self s (.arrival t m)
        { kernel :=
            { now := t
              pending := ⟨⟨self, s.exporter.created⟩, flowKey d,
                  t + seconds s.exporter.idleTimeout⟩ ::
                s.kernel.pending.filter fun p => p.id ≠ old }
          table := s.table.insert (flowKey d)
            { f.merge t (UInt32.ofNat d.byteLength) with
              pointer := some ⟨self, s.exporter.created⟩ }
          exporter := s.exporter.count m.name d }
        [.sendDistack, .create ⟨self, s.exporter.created⟩,
          .create ⟨self, s.exporter.created + 1⟩, .cancel old,
          .schedule ⟨self, s.exporter.created⟩ (t + seconds s.exporter.idleTimeout),
          .deletePacket]
  /-- A packet of a known flow, too late for a new expiry message. -/
  | runOut {t : Int} {m : Message} {d : IPDatagram} {new f : Flow ι} {old : MsgId ι}
      (hnext : s.kernel.Next t) (hactive : s.exporter.Active) (hbody : m.body = .datagram d)
      (hnew : newFlow m.name d = .ok new) (hfound : s.table.lookup (flowKey d) = some f)
      (hpointer : f.pointer = some old)
      (hwindow : ¬ t + seconds s.exporter.idleTimeout <
        f.startTime + seconds s.exporter.flowTimeout) :
      Transition self s (.arrival t m)
        { kernel := { now := t, pending := s.kernel.pending.filter fun p => p.id ≠ old }
          table := s.table.insert (flowKey d) (f.merge t (UInt32.ofNat d.byteLength))
          exporter := s.exporter.count m.name d }
        [.sendDistack, .create ⟨self, s.exporter.created⟩,
          .create ⟨self, s.exporter.created + 1⟩, .cancel old, .deletePacket]
  | openFlow {t : Int} {m : Message} {d : IPDatagram} {new : Flow ι}
      (hnext : s.kernel.Next t) (hactive : s.exporter.Active) (hbody : m.body = .datagram d)
      (hnew : newFlow m.name d = .ok new) (hmissing : s.table.lookup (flowKey d) = none)
      (hflow : 0 ≤ seconds s.exporter.flowTimeout)
      (hidle : 0 ≤ seconds s.exporter.idleTimeout) :
      Transition self s (.arrival t m)
        { kernel :=
            { now := t
              pending := ⟨⟨self, s.exporter.created⟩, flowKey d,
                  t + seconds s.exporter.idleTimeout⟩ ::
                ⟨⟨self, s.exporter.created + 1⟩, flowKey d,
                  t + seconds s.exporter.flowTimeout⟩ :: s.kernel.pending }
          table := s.table.insert (flowKey d)
            (new.opened t (UInt32.ofNat d.byteLength) ⟨self, s.exporter.created⟩)
          exporter := s.exporter.count m.name d }
        [.sendDistack, .create ⟨self, s.exporter.created⟩,
          .create ⟨self, s.exporter.created + 1⟩,
          .schedule ⟨self, s.exporter.created + 1⟩ (t + seconds s.exporter.flowTimeout),
          .schedule ⟨self, s.exporter.created⟩ (t + seconds s.exporter.idleTimeout),
          .deletePacket]
  | expire {p : SelfMessage ι} {f : Flow ι} (hpending : p ∈ s.kernel.pending)
      (howner : p.id.owner = self) (hnext : s.kernel.Next p.arrival)
      (hfound : s.table.lookup p.name = some f) :
      Transition self s (.selfMessage p)
        { s with kernel := s.kernel.deliver p, table := s.table.erase p.name }
        [.exportFlow p.name f, .deleteSelf p.id]
  | lapse {p : SelfMessage ι} (hpending : p ∈ s.kernel.pending)
      (howner : p.id.owner = self) (hnext : s.kernel.Next p.arrival)
      (hmissing : s.table.lookup p.name = none) :
      Transition self s (.selfMessage p) { s with kernel := s.kernel.deliver p }
        [.deleteSelf p.id]

/-! ## The handlers in one equation each -/

@[simp] theorem count_flowTimeout (x : FlowExporter) (name : String) (d : IPDatagram) :
    (x.count name d).flowTimeout = x.flowTimeout := by
  unfold FlowExporter.count tally
  split_ifs <;> rfl

@[simp] theorem count_idleTimeout (x : FlowExporter) (name : String) (d : IPDatagram) :
    (x.count name d).idleTimeout = x.idleTimeout := by
  unfold FlowExporter.count tally
  split_ifs <;> rfl

@[simp] theorem count_created (x : FlowExporter) (name : String) (d : IPDatagram) :
    (x.count name d).created = x.created + 2 := by
  unfold FlowExporter.count tally
  split_ifs <;> rfl

variable {s : State ι} {f : Flow ι} {s' : State ι} {d : IPDatagram} {self : ι}
  {actions : List (Action ι)} {e : Event ι} {out : List (Action ι)}

omit [DecidableEq ι] in
theorem openFlow_eq_ok {key : String} {bytes : UInt32} {expiry timeout : MsgId ι}
    {r : State ι × List (Action ι)} :
    openFlow s key f bytes expiry timeout = .ok r ↔
      0 ≤ seconds s.exporter.flowTimeout ∧ 0 ≤ seconds s.exporter.idleTimeout ∧
      r = ({ s with
          kernel :=
            { now := s.kernel.now
              pending := ⟨expiry, key, s.kernel.now + seconds s.exporter.idleTimeout⟩ ::
                ⟨timeout, key, s.kernel.now + seconds s.exporter.flowTimeout⟩ ::
                s.kernel.pending }
          table := s.table.insert key (f.opened s.kernel.now bytes expiry) },
        [.schedule timeout (s.kernel.now + seconds s.exporter.flowTimeout),
          .schedule expiry (s.kernel.now + seconds s.exporter.idleTimeout)]) := by
  unfold openFlow
  simp only [bind_eq_ok, Kernel.scheduleAt_eq_ok]
  constructor
  · rintro ⟨k₁, ⟨h₁, rfl⟩, k₂, ⟨h₂, rfl⟩, h⟩
    simp only at h₂
    exact ⟨by omega, by omega, (Except.ok.inj h).symm⟩
  · rintro ⟨hflow, hidle, rfl⟩
    exact ⟨_, ⟨by omega, rfl⟩, _, ⟨by simp only; omega, rfl⟩, rfl⟩

theorem updateFlow_eq_ok {key : String} {bytes : UInt32} {expiry old : MsgId ι}
    (hpointer : f.pointer = some old) {r : State ι × List (Action ι)} :
    updateFlow s key f bytes expiry = .ok r ↔
      if s.kernel.now + seconds s.exporter.idleTimeout <
          f.startTime + seconds s.exporter.flowTimeout then
        0 ≤ seconds s.exporter.idleTimeout ∧
        r = ({ s with
            kernel :=
              { now := s.kernel.now
                pending := ⟨expiry, key, s.kernel.now + seconds s.exporter.idleTimeout⟩ ::
                  s.kernel.pending.filter fun p => p.id ≠ old }
            table := s.table.insert key
              { f.merge s.kernel.now bytes with pointer := some expiry } },
          [.cancel old, .schedule expiry (s.kernel.now + seconds s.exporter.idleTimeout)])
      else
        r = ({ s with
            kernel := { s.kernel with pending := s.kernel.pending.filter fun p => p.id ≠ old }
            table := s.table.insert key (f.merge s.kernel.now bytes) },
          [.cancel old]) := by
  have hstart : (f.merge s.kernel.now bytes).startTime = f.startTime := rfl
  unfold updateFlow
  rw [hpointer]
  simp only [bind_eq_ok, Kernel.cancelEvent, Except.ok.injEq, exists_eq_left', hstart,
    Option.toList_some, List.map_cons, List.map_nil]
  split
  · simp only [bind_eq_ok, Kernel.scheduleAt_eq_ok]
    constructor
    · rintro ⟨k, ⟨hk, rfl⟩, h⟩
      exact ⟨by omega, (Except.ok.inj h).symm⟩
    · rintro ⟨hidle, rfl⟩
      exact ⟨_, ⟨by omega, rfl⟩, rfl⟩
  · simp only [Except.ok.injEq, eq_comm]

/-! ## Steps and transitions -/

theorem countDatagram_eq_ok {name : String} {new : Flow ι} {found : Option (Flow ι)}
    (hnew : newFlow name d = .ok new) (hfound : s.table.lookup (flowKey d) = found) :
    countDatagram self s name d = .ok (s', actions) ↔
      ∃ inner, found.elim
          (openFlow { s with exporter := s.exporter.count name d } (flowKey d) new
            (UInt32.ofNat d.byteLength) ⟨self, s.exporter.created⟩ ⟨self, s.exporter.created + 1⟩)
          (updateFlow { s with exporter := s.exporter.count name d } (flowKey d) ·
            (UInt32.ofNat d.byteLength) ⟨self, s.exporter.created⟩) = .ok (s', inner) ∧
        actions = [.create ⟨self, s.exporter.created⟩,
          .create ⟨self, s.exporter.created + 1⟩] ++ inner ++ [.deletePacket] := by
  cases found
  all_goals
    simp only [countDatagram, bind_eq_ok, hnew, hfound, Except.ok.injEq, exists_eq_left',
      Prod.mk.injEq, Prod.exists]
    constructor
    · rintro ⟨r, inner, hr, rfl, rfl⟩
      exact ⟨inner, hr, rfl⟩
    · rintro ⟨inner, hr, rfl⟩
      exact ⟨s', inner, hr, rfl, rfl⟩

theorem transition_of_count {t : Int} {m : Message} (hnext : s.kernel.Next t)
    (hactive : s.exporter.Active) (hbody : m.body = .datagram d)
    (h : countDatagram self (s.atTime t) m.name d = .ok (s', actions)) :
    Transition self s (.arrival t m) s' (.sendDistack :: actions) := by
  have hread := h
  simp only [countDatagram, bind_eq_ok] at hread
  obtain ⟨new, hnew, -⟩ := hread
  cases hfound : s.table.lookup (flowKey d) with
  | some f =>
    obtain ⟨inner, hupdate, rfl⟩ := (countDatagram_eq_ok (s := s.atTime t) hnew hfound).mp h
    cases hpointer : f.pointer with
    | none => simp [updateFlow, hpointer, Kernel.cancelEvent, bind, Except.bind] at hupdate
    | some old =>
      have hr := (updateFlow_eq_ok hpointer).mp hupdate
      simp only [State.atTime, count_flowTimeout, count_idleTimeout] at hr
      split_ifs at hr with hwindow
      · obtain ⟨hfuture, hr⟩ := hr
        obtain ⟨rfl, rfl⟩ := Prod.mk.inj hr
        exact .reschedule hnext hactive hbody hnew hfound hpointer hwindow hfuture
      · obtain ⟨rfl, rfl⟩ := Prod.mk.inj hr
        exact .runOut hnext hactive hbody hnew hfound hpointer hwindow
  | none =>
    obtain ⟨inner, hopen, rfl⟩ := (countDatagram_eq_ok (s := s.atTime t) hnew hfound).mp h
    obtain ⟨hflow, hidle, hr⟩ := openFlow_eq_ok.mp hopen
    simp only [State.atTime, count_flowTimeout, count_idleTimeout] at hflow hidle hr
    obtain ⟨rfl, rfl⟩ := Prod.mk.inj hr
    exact .openFlow hnext hactive hbody hnew hfound hflow hidle

theorem transition_of_step (h : step self s e = .ok (s', out)) : Transition self s e s' out := by
  cases e with
  | setTimeouts newFlowTimeout newIdleTimeout =>
    obtain ⟨rfl, rfl⟩ := h
    exact .setTimeouts newFlowTimeout newIdleTimeout
  | selfMessage p =>
    obtain ⟨hguard, h⟩ := guard_eq_ok.mp h
    obtain ⟨hpending, howner, hnext⟩ := hguard
    simp only [handleSelfMessage, Except.ok.injEq] at h
    split at h
    · rename_i f hfound
      obtain ⟨rfl, rfl⟩ := Prod.mk.inj h
      exact .expire hpending howner hnext hfound
    · rename_i hmissing
      obtain ⟨rfl, rfl⟩ := Prod.mk.inj h
      exact .lapse hpending howner hnext hmissing
  | arrival t m =>
    obtain ⟨hnext, h⟩ := guard_eq_ok.mp h
    simp only [handleMessage] at h
    split_ifs at h with hactive
    · split at h
      · rename_i d hbody
        simp only [bind_eq_ok, Prod.exists, Except.ok.injEq, Prod.mk.injEq] at h
        obtain ⟨s₁, actions, hcount, rfl, rfl⟩ := h
        exact transition_of_count hnext hactive hbody hcount
      · cases h
      · rename_i hdatagram hpacket
        obtain ⟨rfl, rfl⟩ := h
        exact .ignore hnext (fun _ => hpacket) fun hcounts =>
          hdatagram hcounts.2.choose hcounts.2.choose_spec
    · obtain ⟨rfl, rfl⟩ := h
      exact .ignore hnext (fun ha => absurd ha hactive) fun hcounts => hactive hcounts.1

theorem step_of_count {t : Int} {m : Message} (hnext : s.kernel.Next t)
    (hactive : s.exporter.Active) (hbody : m.body = .datagram d)
    (h : countDatagram self (s.atTime t) m.name d = .ok (s', actions)) :
    step self s (.arrival t m) = .ok (s', .sendDistack :: actions) := by
  simp only [step, handleMessage, hnext, hactive, hbody, if_true, bind_eq_ok]
  exact ⟨(s', actions), h, rfl⟩

theorem step_of_transition (h : Transition self s e s' out) : step self s e = .ok (s', out) := by
  cases h with
  | setTimeouts newFlowTimeout newIdleTimeout => rfl
  | ignore hnext hcast hcounts =>
    simp only [step, hnext, if_true, handleMessage]
    split_ifs with hactive
    · split
      · rename_i d hbody
        exact absurd ⟨hactive, d, hbody⟩ hcounts
      · rename_i hbody
        exact absurd hbody (hcast hactive)
      · rfl
    · rfl
  | @reschedule t m d new f old hnext hactive hbody hnew hfound hpointer hwindow hfuture =>
    refine step_of_count hnext hactive hbody
      ((countDatagram_eq_ok (s := s.atTime t) hnew hfound).mpr ⟨[.cancel old, .schedule _ _],
        (updateFlow_eq_ok hpointer).mpr ?_, rfl⟩)
    simp only [State.atTime, count_flowTimeout, count_idleTimeout, hwindow, if_true]
    exact ⟨hfuture, trivial⟩
  | @runOut t m d new f old hnext hactive hbody hnew hfound hpointer hwindow =>
    refine step_of_count hnext hactive hbody
      ((countDatagram_eq_ok (s := s.atTime t) hnew hfound).mpr ⟨[.cancel old],
        (updateFlow_eq_ok hpointer).mpr ?_, rfl⟩)
    simp only [State.atTime, count_flowTimeout, count_idleTimeout, hwindow, if_false]
  | @openFlow t m d new hnext hactive hbody hnew hmissing hflow hidle =>
    refine step_of_count hnext hactive hbody
      ((countDatagram_eq_ok (s := s.atTime t) hnew hmissing).mpr
        ⟨[.schedule _ _, .schedule _ _], openFlow_eq_ok.mpr ?_, rfl⟩)
    simp only [State.atTime, count_flowTimeout, count_idleTimeout]
    exact ⟨hflow, hidle, trivial⟩
  | expire hpending howner hnext hfound =>
    simp [step, handleSelfMessage, hpending, howner, hnext, hfound]
  | lapse hpending howner hnext hmissing =>
    simp [step, handleSelfMessage, hpending, howner, hnext, hmissing]

end WormsAttack.Exporter
