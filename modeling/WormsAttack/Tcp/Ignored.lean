/-
  Segments that are ignored in LISTEN.

  `processSegmentInListen` returns `TCP_E_IGNORE` in five places.
-/
import WormsAttack.Tcp.Variables
import WormsAttack.Tcp.Workers

namespace WormsAttack.Tcp

open Foundation Inet List

namespace Full

/-! ## One segment -/

/-- There is room for the payload.  A connection that forks is configured first. -/
def HasRoom (par : Parameters) (b : ControlBlock) (c : TCPConnection) (seg : TCPSegment) : Prop :=
  seg.payloadLength = 0 ∨
    seg.payloadLength ≤ (b.receiveQueue.getAmountOfFreeBytes
      (if c.fork then .ofNat par.advertisedWindow.toNat else b.state.maxRcvBuffer)).toNat

instance (par : Parameters) (b : ControlBlock) (c : TCPConnection) (seg : TCPSegment) :
    Decidable (HasRoom par b c seg) :=
  inferInstanceAs (Decidable (_ ∨ _))

/-- The count, the maps, the connection, its variables, queues and timers are as before, and
at most a reset has been sent. -/
structure Unaffected (s : State) (p : Nat) (s' : State) (out : List Sent) : Prop where
  count : s'.base.currentConnectionCount = s.base.currentConnectionCount
  appConnMap : s'.base.tcpAppConnMap = s.base.tcpAppConnMap
  connMap : s'.base.tcpConnMap = s.base.tcpConnMap
  conn : s'.base.get p = s.base.get p
  block : s'.block p = s.block p
  sent : ∀ a ∈ out, ∃ sequenceNo src dest srcPort destPort,
    a = .rst sequenceNo src dest srcPort destPort

variable {seg : TCPSegment} {s' s : State} {m : Moment} {p : Nat} {out : List Sent}
  {event : TCPEventCode} {c : TCPConnection}

theorem maxRcvBuffer_readHeaderOptions {v v' : StateVariables}
    (h : readHeaderOptions v seg = .ok v') : v'.maxRcvBuffer = v.maxRcvBuffer := by
  refine foldlM_invariant (I := fun w => w.maxRcvBuffer = v.maxRcvBuffer)
    (fun o _ w w' hw hw' => ?_) rfl h
  refine Eq.trans ?_ hw
  cases o with
  | maximumSegmentSize value =>
    cases value with
    | none => cases hw'
    | some value =>
      cases hw'
      rfl
  | sackPermitted | other =>
    cases hw'
    rfl
  | sack blocks sackedBytes =>
    simp only [readOption] at hw'
    split at hw' <;> cases hw' <;> rfl

theorem maxRcvBuffer_receiveSyn (iss : UInt32) (seg : TCPSegment) (b : ControlBlock) :
    (receiveSyn iss seg b).state.maxRcvBuffer = b.state.maxRcvBuffer := by
  simp only [receiveSyn, updateWndInfo]
  split <;> rfl

theorem answerSyn_ok {now : Int} {b b' : ControlBlock} {sent : Sent}
    (h : answerSyn now seg b = .ok (b', sent)) :
    b'.receiveQueue = b.receiveQueue ∧ b'.state.maxRcvBuffer = b.state.maxRcvBuffer ∧
      ∃ sequenceNo ackNo window mss sackPermitted,
        sent = .synAck sequenceNo ackNo window mss sackPermitted := by
  obtain ⟨v, hv, h⟩ := bind_eq_ok.mp h
  have hbuffer : v.maxRcvBuffer = b.state.maxRcvBuffer := by
    split at hv
    · exact maxRcvBuffer_readHeaderOptions hv
    · cases hv
      rfl
  obtain ⟨rfl, rfl⟩ := Prod.mk.inj (Except.ok.inj h)
  refine ⟨rfl, Eq.trans ?_ hbuffer, _, _, _, _, _, rfl⟩
  simp only [startTimers, sendSynAck]
  split <;> rfl

theorem queuePayload_event (seg : TCPSegment) (b : ControlBlock) :
    (queuePayload seg b).2 =
      if seg.payloadLength = 0 ∨
        seg.payloadLength ≤ (b.receiveQueue.getAmountOfFreeBytes b.state.maxRcvBuffer).toNat
      then .rcvSyn else .ignore := by
  unfold queuePayload
  by_cases hpayload : seg.payloadLength > 0
  · have hne : seg.payloadLength ≠ 0 := Nat.ne_of_gt hpayload
    by_cases hroom : seg.payloadLength ≤
        (b.receiveQueue.getAmountOfFreeBytes b.state.maxRcvBuffer).toNat
    · rw [if_pos hpayload]
      simp only [updateRcvQueueVars, ge_iff_le, hroom, if_true, or_true]
    · rw [if_pos hpayload]
      simp only [updateRcvQueueVars, ge_iff_le, hroom, if_false, hne, or_self]
  · rw [if_neg hpayload, if_pos (.inl (Nat.eq_zero_of_not_pos hpayload))]

theorem acceptSyn_ok (h : acceptSyn m s p seg = .ok (s', event, out)) :
    s'.base = s.base ∧
      (event = if seg.payloadLength = 0 ∨ seg.payloadLength ≤
          ((s.block p).receiveQueue.getAmountOfFreeBytes (s.block p).state.maxRcvBuffer).toNat
        then .rcvSyn else .ignore) ∧
      ∃ sequenceNo ackNo window mss sackPermitted,
        out = [.synAck sequenceNo ackNo window mss sackPermitted] := by
  obtain ⟨⟨b, sent⟩, hanswer, h⟩ := bind_eq_ok.mp h
  obtain ⟨hqueue, hbuffer, seqNo, ackNo, window, mss, perm, rfl⟩ := answerSyn_ok hanswer
  rw [maxRcvBuffer_receiveSyn] at hbuffer
  obtain ⟨rfl, rfl, rfl⟩ := h
  refine ⟨rfl, ?_, seqNo, ackNo, window, mss, perm, rfl⟩
  rw [queuePayload_event, hbuffer, hqueue]
  rfl

def enter (m : Moment) (s : State) (p : Nat) (c : TCPConnection) (seg : TCPSegment) :
    Except Stop State :=
  if c.fork then
    forkConnection m { s with
      base := { s.base with
        currentConnectionCount := s.base.currentConnectionCount + 1 } } p c seg
  else do
    let base ← updateSockPair s.base p c seg.destAddr seg.srcAddr seg.srcPort
    .ok { s with base := base }

def resetFor (seg : TCPSegment) : List Sent :=
  if seg.ack && !seg.rst then
    [.rst seg.ackNo seg.destAddr seg.srcAddr seg.destPort seg.srcPort]
  else []

theorem processSegmentInListen_eq (m : Moment) (s : State) (p : Nat) (c : TCPConnection)
    (seg : TCPSegment) :
    processSegmentInListen m s p c seg =
      if Accepted s.base c seg.toTCPSegment then do
        let s ← enter m s p c seg
        acceptSyn m s p seg
      else .ok (s, .ignore, resetFor seg) := by
  by_cases hacc : Accepted s.base c seg.toTCPSegment
  · rw [if_pos hacc]
    obtain ⟨hrst, hack, hsyn, hlimit⟩ := hacc
    simp only [processSegmentInListen, enter, hrst, hack, hsyn, if_true, Bool.false_eq_true,
      if_false]
    split_ifs with hfork
    · have haccept : acceptAnotherConnection s.base = (true,
          { s.base with currentConnectionCount := s.base.currentConnectionCount + 1 }) :=
        if_pos (hlimit hfork)
      rw [haccept]
    · cases updateSockPair s.base p c seg.destAddr seg.srcAddr seg.srcPort <;> rfl
  · unfold processSegmentInListen resetFor
    split
    · rename_i hrst
      rw [hrst, Bool.not_true, Bool.and_false]
      rfl
    rename_i hrst
    split
    · rename_i hack
      simp only [hack, hrst, Bool.not_false, Bool.and_true, if_true]
    rename_i hack
    rw [Bool.not_eq_true] at hack
    rw [hack, Bool.false_and]
    split
    · rename_i hsyn
      obtain ⟨hfork, haccept⟩ := limit_of_not_accepted hacc hrst (by simp [hack]) hsyn
      rw [if_pos hfork, haccept]
      rfl
    · rfl

variable (hp : p < s.base.heap.length)

include hp

theorem enter_ok (h : enter m s p c seg = .ok s') :
    Tcp.enter s.base p c seg.toTCPSegment m.uniqueNumber = .ok s'.base ∧
      (s'.block p).receiveQueue = (s.block p).receiveQueue ∧
      (s'.block p).state.maxRcvBuffer =
        if c.fork then .ofNat m.par.advertisedWindow.toNat else (s.block p).state.maxRcvBuffer := by
  unfold enter at h
  unfold Tcp.enter
  split_ifs at h with hfork
  · simp only [forkConnection, bind_eq_ok] at h
    obtain ⟨v, hv, base, hbase, h⟩ := h
    cases h
    have hbuffer : v.maxRcvBuffer = .ofNat m.par.advertisedWindow.toNat := by
      obtain ⟨-, hv⟩ := unless_eq_ok.mp hv
      obtain ⟨-, hv⟩ := unless_eq_ok.mp hv
      cases hv
      rfl
    dsimp only
    rw [Function.update_of_ne (Nat.ne_of_lt hp), Function.update_self, if_pos hfork, if_pos hfork]
    exact ⟨hbase, rfl, hbuffer⟩
  · obtain ⟨base, hbase, h⟩ := bind_eq_ok.mp h
    cases h
    rw [if_neg hfork, if_neg hfork]
    exact ⟨hbase, rfl, rfl⟩

theorem accepted_ok (hacc : Accepted s.base c seg.toTCPSegment)
    (h : processSegmentInListen m s p c seg = .ok (s', event, out)) :
    Tcp.enter s.base p c seg.toTCPSegment m.uniqueNumber = .ok s'.base ∧
      (event = if HasRoom m.par (s.block p) c seg then .rcvSyn else .ignore) ∧
      ∃ sequenceNo ackNo window mss sackPermitted,
        out = [.synAck sequenceNo ackNo window mss sackPermitted] := by
  rw [processSegmentInListen_eq, if_pos hacc] at h
  obtain ⟨s₁, henter, h⟩ := bind_eq_ok.mp h
  obtain ⟨hbase, hqueue, hbuffer⟩ := enter_ok hp henter
  obtain ⟨hsame, hevent, hout⟩ := acceptSyn_ok h
  rw [hqueue, hbuffer] at hevent
  exact ⟨hsame ▸ hbase, hevent, hout⟩

theorem processSegmentInListen_refines
    (h : processSegmentInListen m s p c seg = .ok (s', event, out)) {answers : Answers}
    (hfits : answers.fits = decide (HasRoom m.par (s.block p) c seg))
    (hnumber : answers.uniqueNumber = m.uniqueNumber) :
    Tcp.processSegmentInListen s.base p c seg.toTCPSegment answers = .ok (s'.base, event) := by
  rw [Tcp.processSegmentInListen_eq]
  by_cases hacc : Accepted s.base c seg.toTCPSegment
  · obtain ⟨hbase, hevent, -⟩ := accepted_ok hp hacc h
    rw [if_pos hacc, hnumber, hbase, hevent, hfits]
    simp only [bind, Except.bind, decide_eq_true_eq]
  · rw [processSegmentInListen_eq, if_neg hacc] at h
    cases h
    rw [if_neg hacc]

/-- A segment that is ignored has no effect, unless it is a SYN that was accepted and has no
room for its payload. -/
theorem ignored_iff (h : processSegmentInListen m s p c seg = .ok (s', event, out)) :
    (event = .ignore → Unaffected s p s' out) ↔
      ¬ (Accepted s.base c seg.toTCPSegment ∧ ¬ HasRoom m.par (s.block p) c seg) := by
  by_cases hacc : Accepted s.base c seg.toTCPSegment
  · obtain ⟨-, hevent, hout⟩ := accepted_ok hp hacc h
    by_cases hroom : HasRoom m.par (s.block p) c seg
    · rw [if_pos hroom] at hevent
      refine iff_of_true (fun hignore => ?_) fun hboth => hboth.2 hroom
      rw [hevent] at hignore
      cases hignore
    · rw [if_neg hroom] at hevent
      refine iff_of_false (fun hunaffected => ?_) fun hnot => hnot ⟨hacc, hroom⟩
      -- a SYN+ACK is not a reset
      obtain ⟨_, _, _, _, _, rfl⟩ := hout
      obtain ⟨_, _, _, _, _, hrst⟩ := (hunaffected hevent).sent _ mem_cons_self
      cases hrst
  · rw [processSegmentInListen_eq, if_neg hacc] at h
    cases h
    refine iff_of_true (fun _ => ⟨rfl, rfl, rfl, rfl, rfl, fun a ha => ?_⟩)
      fun hboth => hacc hboth.1
    unfold resetFor at ha
    split at ha
    · exact ⟨_, _, _, _, _, mem_singleton.mp ha⟩
    · cases ha

end Full

/-! ## Runs -/

def Settled (s : State) : Prop :=
  ∀ p c, s.get p = .ok c → c.worker = true → c.fsm ≠ .listen

/-- A SYN makes a connection fork and has no room for its payload. -/
def Oversized (s : State) : Event → Prop
  | .segment seg answers => answers.fits = false ∧
      ∃ p c, findConnForSegment s seg = some p ∧ s.get p = .ok c ∧ Forks s c (.segment seg answers)
  | _ => False

/-- At other positions than `p` there is no worker that was not there before. -/
def Confined (s : State) (p : Nat) (s' : State) : Prop :=
  ∀ q c, q ≠ p → s'.get q = .ok c → c.worker = true → s.get q = .ok c

variable {s' s : State} {p : Nat} {c : TCPConnection} {e : Event}

theorem Confined.trans {s₁ : State} (h : Confined s p s₁) (h' : Confined s₁ p s') :
    Confined s p s' :=
  fun q c hq hget hworker => h q c hq (h' q c hq hget hworker) hworker

theorem confined_of_set {c : Option TCPConnection} (h : s'.heap = s.heap.set p c) :
    Confined s p s' := by
  intro q c hq hget _
  rw [get_eq_ok, h, getElem?_set_ne (Ne.symm hq)] at hget
  exact get_eq_ok.mpr hget

theorem confined_of_append (h : s'.heap = s.heap ++ [some c]) (hworker : c.worker = false) :
    Confined s p s' := by
  intro q c' _ hget hworker'
  rw [get_eq_ok, h] at hget
  rcases getElem?_concat_eq_some.mp hget with hold | ⟨-, hc⟩
  · exact get_eq_ok.mpr hold
  · rw [← Option.some.inj hc, hworker] at hworker'
    cases hworker'

theorem Replaces.confined (h : Replaces s p c s') : Confined s p s' := by
  obtain ⟨c', hheap, -⟩ := h.heap
  exact confined_of_set hheap

theorem confined_forkConnection {seg : TCPSegment} {uniqueNumber : Int}
    (h : forkConnection s p c seg uniqueNumber = .ok s') (hp : p < s.heap.length) :
    Confined s p s' := by
  simp only [forkConnection, addForkedConnection, bind_eq_ok] at h
  obtain ⟨c₁, -, s₁, hupdate, clone, hclone, s₂, hadd, c₂, -, h⟩ := h
  cases h
  have hne : s.heap.length ≠ p := Nat.ne_of_gt hp
  have hstart : Confined s p ((cloneListeningConnection s c).put p { c with worker := true }) :=
    Confined.trans (confined_of_append rfl rfl) (confined_of_set rfl)
  have hfirst := hstart.trans (replaces_of_updateSockPair hupdate).confined
  obtain ⟨hheap, -⟩ := addSockPair_ok hadd
  refine Confined.trans ?_ (confined_of_set rfl)
  intro q c' hq hget hworker
  by_cases hlast : q = s.heap.length
  · -- the clone is no worker, so it was not one before
    subst hlast
    have hset := get_eq_ok.mp hget
    rw [hheap, getElem?_set_self (lt_of_get hclone)] at hset
    obtain rfl := Option.some.inj (Option.some.inj hset)
    have hbefore := hfirst _ clone hne hclone hworker
    exact absurd (lt_of_get hbefore) (Nat.lt_irrefl _)
  · refine hfirst q c' hq (get_eq_ok.mpr ?_) hworker
    have hget' := get_eq_ok.mp hget
    rwa [hheap, getElem?_set_ne (Ne.symm hlast)] at hget'

theorem finish_conn {event : TCPEventCode} (hget : s.get p = .ok c)
    (h : finish s p event = .ok s') :
    Confined s p s' ∧ ∀ c', s'.get p = .ok c' → c'.worker = c.worker ∧
      c'.fsm = transition c.worker c.active c.fsm event := by
  rcases finish_cases hget h with ⟨-, hremove⟩ | ⟨-, rfl⟩
  · obtain ⟨-, hheap, -⟩ := removeConnection_ok hremove
    refine ⟨Confined.trans (confined_of_set rfl) (confined_of_set hheap), fun c' hget' => ?_⟩
    rw [get_eq_ok, hheap, getElem?_set_self (lt_of_get (get_put hget))] at hget'
    cases hget'
  · refine ⟨confined_of_set rfl, fun c' hget' => ?_⟩
    obtain rfl := Except.ok.inj ((get_put hget).symm.trans hget')
    exact ⟨rfl, rfl⟩

theorem transition_worker {active : Bool} {fsm : TcpState} {event : TCPEventCode}
    (hinit : fsm ≠ .init) :
    transition true active fsm event ≠ .init ∧
      (fsm ≠ .listen → transition true active fsm event ≠ .listen) := by
  cases fsm with
  | init => exact absurd rfl hinit
  | listen => cases event <;> exact ⟨TcpState.noConfusion, fun hlisten => absurd rfl hlisten⟩
  | _ => cases event <;> exact ⟨TcpState.noConfusion, fun _ => TcpState.noConfusion⟩

/-- Where a worker comes from. -/
inductive Origin (s : State) (e : Event) (q : Nat) (c' : TCPConnection) : Prop
  | kept (hget : s.get q = .ok c')
  | moved (c : TCPConnection) (active : Bool) (hget : s.get q = .ok c) (hforks : ¬ Forks s c e)
      (hworker : c.worker = true) (hfsm : c'.fsm = transition true active c.fsm (e.code s c))
  | forked (c : TCPConnection) (active : Bool) (htarget : target s e = some q)
      (hget : s.get q = .ok c) (hforks : Forks s c e)
      (hfsm : c'.fsm = transition true active .listen (e.code s c))

section Origin

variable {s s₁ s' : State} {p q : Nat} {c c' : TCPConnection} {e : Event}
  (hget' : s'.get q = .ok c') (hworker : c'.worker = true)

include hget' hworker

theorem Replaces.origin (h : Replaces s p c s₁) (hget : s.get p = .ok c)
    (hforks : ¬ Forks s c e) (hfinish : finish s₁ p (e.code s c) = .ok s') :
    Origin s e q c' := by
  obtain ⟨c₁, hc₁, hfsm₁, hworker₁, -⟩ := (h.prepares hget).conn
  obtain ⟨hconfined, hconn⟩ := finish_conn hc₁ hfinish
  by_cases hq : q = p
  · subst hq
    obtain ⟨hsame, hfsm⟩ := hconn c' hget'
    rw [hsame, hworker₁] at hworker
    rw [hworker₁, hworker, hfsm₁] at hfsm
    exact .moved c c₁.active hget hforks hworker hfsm
  · exact .kept (h.confined.trans hconfined q c' hq hget' hworker)

theorem ForksTo.origin (h : ForksTo s p s₁) (hconfined : Confined s p s₁)
    (htarget : target s e = some p) (hget : s.get p = .ok c) (hforks : Forks s c e)
    (hfinish : finish s₁ p (e.code s c) = .ok s') : Origin s e q c' := by
  obtain ⟨c₁, hc₁, hfsm₁⟩ := h.conn
  obtain ⟨hconfined', hconn⟩ := finish_conn hc₁ hfinish
  by_cases hq : q = p
  · subst hq
    obtain ⟨hsame, hfsm⟩ := hconn c' hget'
    rw [← hsame, hworker, hfsm₁] at hfsm
    exact .forked c c₁.active htarget hget hforks hfsm
  · exact .kept (hconfined.trans hconfined' q c' hq hget' hworker)

theorem createConnection_origin {key : AppConnKey} {event : TCPEventCode}
    (hget : (createConnection s key).get s.heap.length = .ok c)
    (h : Replaces (createConnection s key) s.heap.length c s₁)
    (hfinish : finish s₁ s.heap.length event = .ok s') : Origin s e q c' := by
  obtain ⟨c₁, hc₁, -, hworker₁, -⟩ := (h.prepares hget).conn
  obtain ⟨hconfined, hconn⟩ := finish_conn hc₁ hfinish
  have hcreated : Confined s s.heap.length (createConnection s key) := confined_of_append rfl rfl
  by_cases hq : q = s.heap.length
  · subst hq
    rw [(hconn c' hget').1, hworker₁, (new_createConnection hget).2] at hworker
    cases hworker
  · exact .kept ((hcreated.trans h.confined).trans hconfined q c' hq hget' hworker)

theorem handleMessage_origin (h : handleMessage s e = .ok (s', ())) : Origin s e q c' := by
  cases handleMessage_cases h with
  | dropped _ hsame =>
    subst hsame
    exact .kept hget'
  | created key c s₁ _ hget hreplaces hfinish =>
    exact createConnection_origin hget' hworker hget hreplaces hfinish
  | processed p c s₁ _ hget hforks hreplaces hfinish =>
    exact hreplaces.origin hget' hworker hget hforks hfinish
  | forked p c seg uniqueNumber s₁ htarget hget hforks hfork hfinish =>
    have hforked := forkConnection_ok hget hforks.listen hfork
    have hconfined := confined_forkConnection hfork (lt_of_get hget)
    exact hforked.origin hget' hworker hconfined htarget hget hforks hfinish

end Origin

def Started (s : State) : Prop :=
  ∀ p c, s.get p = .ok c → c.worker = true → c.fsm ≠ .init

theorem started_step (hs : Started s) (h : handleMessage s e = .ok (s', ())) : Started s' := by
  intro q c' hget hworker
  cases handleMessage_origin hget hworker h with
  | kept hget => exact hs q c' hget hworker
  | moved c active hget _ hworker hfsm =>
    rw [hfsm]
    exact (transition_worker (hs q c hget hworker)).1
  | forked c active _ _ _ hfsm =>
    rw [hfsm]
    exact (transition_worker TcpState.noConfusion).1

theorem code_of_forks {s : State} {c : TCPConnection} {seg : TCPSegment} {answers : Answers}
    (h : Forks s c (.segment seg answers)) :
    seg.code s c answers = if answers.fits then .rcvSyn else .ignore := by
  obtain ⟨hfsm, -, hacc⟩ := forks_iff.mp h
  rw [code_of_listen hfsm, if_pos hacc]

theorem ForksTo.worker (h : ForksTo s p s') (hp : p < s.heap.length) (hget : s'.get p = .ok c) :
    c.worker = true := by
  have hflag := flags_getElem? hget
  have hlt : p < s.flags.length := by
    rw [State.flags, length_map]
    exact hp
  rw [h.flags, getElem?_append_left (by simpa using hlt), getElem?_set_self hlt] at hflag
  exact (Option.some.inj hflag).symm

/-- An oversized SYN leaves the worker it has made in LISTEN. -/
theorem not_settled_of_oversized (h : handleMessage s e = .ok (s', ())) (hover : Oversized s e) :
    ¬ Settled s' := by
  intro hs'
  cases e with
  | segment seg answers =>
    obtain ⟨hfits, p, c, htarget, hget, hforks⟩ := hover
    have hcode : seg.code s c answers = .ignore := by
      rw [code_of_forks hforks, hfits]
      rfl
    cases handleMessage_cases h with
    | dropped hnone _ | created _ _ _ hnone _ _ _ => cases hnone.symm.trans htarget
    | processed p' c' s₁ htarget' hget' hnot _ _ =>
      obtain rfl := Option.some.inj (htarget.symm.trans htarget')
      obtain rfl := Except.ok.inj (hget.symm.trans hget')
      exact hnot hforks
    | forked p' c' seg' uniqueNumber s₁ htarget' hget' _ hfork hfinish =>
      obtain rfl := Option.some.inj (htarget.symm.trans htarget')
      obtain rfl := Except.ok.inj (hget.symm.trans hget')
      have hforked := forkConnection_ok hget hforks.listen hfork
      obtain ⟨c₁, hc₁, hfsm₁⟩ := hforked.conn
      rw [Event.code, hcode] at hfinish
      -- the event is ignored, so the connection is put back as it is
      rcases finish_cases hc₁ hfinish with ⟨hclosed, -⟩ | ⟨-, rfl⟩
      · rw [transition_ignore, hfsm₁] at hclosed
        cases hclosed
      · have hworker : c₁.worker = true := hforked.worker (lt_of_get hget) hc₁
        exact hs' p _ (get_put hc₁) hworker ((transition_ignore _ _ _).trans hfsm₁)
  | _ => cases hover

/-- One message leaves a worker in LISTEN just when it is an oversized SYN. -/
theorem settled_step_iff (hstarted : Started s) (hs : Settled s)
    (h : handleMessage s e = .ok (s', ())) : Settled s' ↔ ¬ Oversized s e := by
  constructor
  · exact fun hs' hover => not_settled_of_oversized h hover hs'
  intro hover q c' hget hworker
  cases handleMessage_origin hget hworker h with
  | kept hget => exact hs q c' hget hworker
  | moved c active hget _ hworker hfsm =>
    rw [hfsm]
    exact (transition_worker (hstarted q c hget hworker)).2 (hs q c hget hworker)
  | forked c active htarget hget hforks hfsm =>
    cases e with
    | segment seg answers =>
      have hfits : answers.fits = true := by
        by_contra hno
        exact hover ⟨Bool.eq_false_iff.mpr hno, q, c, htarget, hget, hforks⟩
      rw [hfsm, Event.code, code_of_forks hforks, hfits]
      exact TcpState.noConfusion
    | _ => cases hforks

theorem settled_iff {maxThreadCount : Int} {tr : List (Step State Event Unit)}
    (h : Run handleMessage (initial maxThreadCount) tr s) :
    Started s ∧ ((Settled s ∧ ∀ st ∈ tr, Settled st.pre) ↔
      ∀ st ∈ tr, ¬ Oversized st.pre st.event) := by
  induction h with
  | start =>
    refine ⟨fun p c hget => ?_, ?_⟩
    · cases get_eq_ok.mp hget
    · refine iff_of_true ⟨fun p c hget => ?_, by simp⟩ (by simp)
      cases get_eq_ok.mp hget
  | next _ hstep ih =>
    obtain ⟨hstarted, ih⟩ := ih
    refine ⟨started_step hstarted hstep, ?_⟩
    rw [forall_mem_cons, forall_mem_cons, ← ih]
    constructor
    · rintro ⟨hlast, hpre, hearlier⟩
      exact ⟨(settled_step_iff hstarted hpre hstep).mp hlast, hpre, hearlier⟩
    · rintro ⟨hover, hpre, hearlier⟩
      exact ⟨(settled_step_iff hstarted hpre hstep).mpr hover, hpre, hearlier⟩

/-- In LISTEN an ignored segment has no effect, unless it is an accepted SYN without room for its
payload. -/
theorem ignored_harmless_iff (m : Full.Moment) (s s' : Full.State) (p : Nat) (c : TCPConnection)
    (seg : Full.TCPSegment) (event : TCPEventCode) (out : List Full.Sent) (maxThreadCount : Int)
    (tr : List (Step State Event Unit)) (t : State) :
    (s.base.get p = .ok c → c.fsm = .listen →
      Full.processSegmentInListen m s p c seg = .ok (s', event, out) →
      ((event = .ignore → Full.Unaffected s p s' out) ↔
        ¬ (Accepted s.base c seg.toTCPSegment ∧ ¬ Full.HasRoom m.par (s.block p) c seg))) ∧
    (Run handleMessage (initial maxThreadCount) tr t →
      ((Settled t ∧ ∀ st ∈ tr, Settled st.pre) ↔ ∀ st ∈ tr, ¬ Oversized st.pre st.event)) :=
  ⟨fun hget _ h => Full.ignored_iff (lt_of_get hget) h, fun h => (settled_iff h).2⟩

def Event.fits : Event → Bool
  | .segment _ answers => answers.fits
  | _ => true

theorem not_oversized (h : e.fits = true) : ¬ Oversized s e := by
  cases e with
  | segment seg answers =>
    rintro ⟨hfits, -⟩
    rw [Event.fits, hfits] at h
    cases h
  | _ => exact id

def listening : Full.State :=
  { base := replayState handleMessage (initial 5) [listenOn80]
    block := fun _ =>
      { Full.ControlBlock.fresh with
        state := (Full.configureStateVariables .default .zero).toOption.getD .zero } }

def listener : TCPConnection :=
  { key := ⟨0, 0⟩, sock := ⟨⟨0⟩, ⟨0⟩, 80, -1⟩, fsm := .listen, active := false, fork := true
    worker := false }

def strayAck : Full.TCPSegment :=
  { srcAddr := ⟨2⟩, destAddr := ⟨1⟩, srcPort := 1024, destPort := 80, syn := false, ack := true
    rst := false, sequenceNo := 1000, ackNo := 1, window := 7504, headerLength := 20
    options := [], payloadLength := 100 }

/-- A segment with ACK is answered by a reset and has no effect.  In a run in which one SYN is
over the limit and is ignored, no worker stays in LISTEN. -/
theorem ignored_harmless_oneAfterAnother :
    (∃ s' out, listening.base.get 0 = .ok listener ∧
      Full.processSegmentInListen ⟨.default, 0, 0, 1⟩ listening 0 listener strayAck =
        .ok (s', .ignore, out) ∧ Full.Unaffected listening 0 s' out) ∧
    Settled (replayState handleMessage (initial 1) oneAfterAnother) ∧
      ∀ st ∈ replayTrace handleMessage (initial 1) oneAfterAnother, Settled st.pre := by
  obtain ⟨hsegment, hrun⟩ := ignored_harmless_iff ⟨.default, 0, 0, 1⟩ listening listening 0 listener
    strayAck .ignore [.rst 1 ⟨1⟩ ⟨2⟩ 80 1024] 1
    (replayTrace handleMessage (initial 1) oneAfterAnother)
    (replayState handleMessage (initial 1) oneAfterAnother)
  refine ⟨⟨_, _, rfl, rfl, (hsegment rfl rfl rfl).mpr ?_ rfl⟩, ?_⟩
  · rintro ⟨⟨-, hack, -⟩, -⟩
    cases hack
  · have hfits : ∀ st ∈ replayTrace handleMessage (initial 1) oneAfterAnother,
        st.event.fits = true := by decide +kernel
    exact (hrun (run_of_replays (by decide +kernel))).mpr fun st hst =>
      not_oversized (hfits st hst)

def bigSyn : Full.TCPSegment :=
  { srcAddr := ⟨2⟩, destAddr := ⟨1⟩, srcPort := 1024, destPort := 80, syn := true, ack := false
    rst := false, sequenceNo := 1000, ackNo := 0, window := 7504, headerLength := 20
    options := [], payloadLength := 8000 }

theorem bigSyn_refines :
    ∃ s' : Full.State, processSegmentInListen listening.base 0 listener bigSyn.toTCPSegment
      ⟨true, false, .ignore, 1⟩ = .ok (s'.base, .ignore) :=
  ⟨_, Full.processSegmentInListen_refines (s := listening) (m := ⟨.default, 0, 0, 1⟩) (by decide)
    rfl (by decide) rfl⟩

/-- The SYN is ignored, but the connection has been counted and is a worker in LISTEN, with
its timers running. -/
theorem bigSyn_counted :
    listening.base.currentConnectionCount = 0 ∧ ∃ c' s' out,
      listening.base.get 0 = .ok listener ∧
      Full.processSegmentInListen ⟨.default, 0, 0, 1⟩ listening 0 listener bigSyn =
        .ok (s', .ignore, out) ∧
      s'.base.currentConnectionCount = 1 ∧ s'.base.tcpAppConnMap ⟨0, 1⟩ = some 0 ∧
      (s'.block 0).synRexmitTimer = some (Omnet.seconds 3) ∧
      (s'.block 0).connEstabTimer = some (Omnet.seconds 75) ∧
      (s'.block 0).state.tcpRcvQueueDrops = 1 ∧
      finish s'.base 0 .ignore = .ok s'.base ∧
      s'.base.get 0 = .ok c' ∧ c'.worker = true ∧ c'.fsm = .listen :=
  ⟨rfl, _, _, _, rfl, rfl, rfl, rfl, rfl, rfl, rfl, rfl, rfl, rfl, rfl⟩

end WormsAttack.Tcp
