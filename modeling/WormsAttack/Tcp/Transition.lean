/-
  What one message does to the workers and to their count.

  `handleMessage_cases` says once what a message does.
-/
import WormsAttack.Tcp.Handlers

namespace WormsAttack.Tcp

open Foundation Inet List

/-! ## Workers -/

def isWorker (c : Option TCPConnection) : Bool := c.any (·.worker)

def State.flags (s : State) : List Bool := s.heap.map isWorker

def State.workers (s : State) : Nat := s.flags.count true

variable {s : State} {c : TCPConnection} {p : Nat} {s' : State} {event : TCPEventCode} {s₁ : State}
  {key : AppConnKey} {seg : TCPSegment} {answers : Answers} {e : Event}

theorem get_eq_ok : s.get p = .ok c ↔ s.heap[p]? = some (some c) := by
  unfold State.get
  split
  · rename_i c' hc'
    rw [hc']
    simp
  · rename_i hnone
    exact iff_of_false (nomatch ·) fun h => hnone c h

variable (h : s.get p = .ok c)

include h

theorem lt_of_get : p < s.heap.length :=
  (List.getElem?_eq_some_iff.mp (get_eq_ok.mp h)).1

theorem flags_getElem? : s.flags[p]? = some c.worker := by
  rw [State.flags, getElem?_map, get_eq_ok.mp h]
  rfl

variable {c' : TCPConnection}

theorem get_put : (s.put p c').get p = .ok c' := by
  rw [get_eq_ok]
  exact getElem?_set_self (lt_of_get h)

theorem put_self : s.put p c = s := by
  obtain ⟨hlt, hget⟩ := List.getElem?_eq_some_iff.mp (get_eq_ok.mp h)
  rw [State.put, ← hget, set_getElem_self hlt]

omit h in
theorem flags_put (s : State) (p : Nat) (c : TCPConnection) :
    (s.put p c).flags = s.flags.set p c.worker :=
  map_set

theorem flags_put_same (hworker : c'.worker = c.worker) : (s.put p c').flags = s.flags := by
  obtain ⟨hlt, hget⟩ := List.getElem?_eq_some_iff.mp (flags_getElem? h)
  rw [flags_put, hworker, ← hget]
  exact set_getElem_self hlt

omit h

theorem count_set_flag {flags : List Bool} {b : Bool} (h : flags[p]? = some b) :
    (flags.set p false).count true + b.toNat = flags.count true ∧
      (flags.set p true).count true + b.toNat = flags.count true + 1 := by
  obtain ⟨hlt, hget⟩ := List.getElem?_eq_some_iff.mp h
  rw [count_set hlt, count_set hlt, hget]
  cases b with
  | false => simp
  | true =>
    have hpos : 0 < flags.count true := count_pos_iff.mpr (mem_of_getElem? h)
    simp only [beq_self_eq_true, if_true, Bool.toNat_true]
    constructor
    · simp only [beq_iff_eq, Bool.false_eq_true, if_false]
      omega
    · omega

/-! ## The state machine -/

@[simp] theorem transition_ignore (worker active : Bool) (fsm : TcpState) :
    transition worker active fsm .ignore = fsm := by
  cases fsm <;> rfl

theorem transition_active {fsm : TcpState} (h : fsm ≠ .synRcvd) (worker active active' : Bool)
    (event : TCPEventCode) :
    transition worker active fsm event = transition worker active' fsm event := by
  cases fsm with
  | synRcvd => exact absurd rfl h
  | _ => cases event <;> rfl

theorem transition_init (worker active : Bool) (event : TCPEventCode) :
    transition worker active .init event ≠ .closed := by
  cases event <;> exact TcpState.noConfusion

theorem removeConnection_ok (h : removeConnection s p = .ok s') :
    s'.maxThreadCount = s.maxThreadCount ∧ s'.heap = s.heap.set p none ∧
      s'.currentConnectionCount =
        if s.currentConnectionCount ≤ 0 then s.currentConnectionCount
        else s.currentConnectionCount - 1 := by
  obtain ⟨c, -, h⟩ := bind_eq_ok.mp h
  cases h
  unfold canceledHalfOpenConnection
  split
  · exact ⟨rfl, rfl, rfl⟩
  · exact ⟨rfl, rfl, rfl⟩

theorem finish_cases (hget : s.get p = .ok c) (h : finish s p event = .ok s') :
    let fsm := transition c.worker c.active c.fsm event
    fsm = .closed ∧ removeConnection (s.put p { c with fsm := fsm }) p = .ok s' ∨
      fsm ≠ .closed ∧ s' = s.put p { c with fsm := fsm } := by
  obtain ⟨⟨stays, s₁⟩, hperform, h⟩ := bind_eq_ok.mp h
  obtain ⟨c', hget', hperform⟩ := bind_eq_ok.mp hperform
  obtain rfl := Except.ok.inj (hget.symm.trans hget')
  split at hperform
  · cases hperform
  rename_i hopen
  split at hperform
  · rename_i hignore
    cases hperform
    cases h
    rw [hignore, transition_ignore]
    exact .inr ⟨hopen, (put_self hget).symm⟩
  · cases hperform
    dsimp only at h
    split_ifs at h with hstay
    · cases h
      exact .inr ⟨of_decide_eq_true hstay, rfl⟩
    · rw [decide_eq_true_iff, not_not] at hstay
      exact .inl ⟨hstay, h⟩

theorem finish_ok (hget : s.get p = .ok c) (h : finish s p event = .ok s') :
    s'.maxThreadCount = s.maxThreadCount ∧
    ((transition c.worker c.active c.fsm event = .closed ∧ s'.flags = s.flags.set p false ∧
        s'.currentConnectionCount = if s.currentConnectionCount ≤ 0 then s.currentConnectionCount
          else s.currentConnectionCount - 1) ∨
      (transition c.worker c.active c.fsm event ≠ .closed ∧ s'.flags = s.flags ∧
        s'.currentConnectionCount = s.currentConnectionCount)) := by
  rcases finish_cases hget h with ⟨hclosed, hremove⟩ | ⟨hopen, rfl⟩
  · obtain ⟨hmax, hheap, hcount⟩ := removeConnection_ok hremove
    refine ⟨hmax, .inl ⟨hclosed, ?_, hcount⟩⟩
    rw [State.flags, hheap, map_set]
    exact congrArg (set · p false) (flags_put_same hget rfl)
  · exact ⟨rfl, .inr ⟨hopen, flags_put_same hget rfl, rfl⟩⟩

/-! ## Processing -/

/-- Keys and sockets may have changed, but nothing else. -/
structure Renames (s s' : State) : Prop where
  max : s'.maxThreadCount = s.maxThreadCount
  count : s'.currentConnectionCount = s.currentConnectionCount
  flags : s'.flags = s.flags
  conns : ∀ {q : Nat} {c : TCPConnection}, s.get q = .ok c →
    ∃ key sock, s'.get q = .ok { c with key := key, sock := sock }

theorem Renames.trans (h : Renames s s₁) (h' : Renames s₁ s') : Renames s s' := by
  refine ⟨h'.max.trans h.max, h'.count.trans h.count, h'.flags.trans h.flags, fun hget => ?_⟩
  obtain ⟨key, sock, hget⟩ := h.conns hget
  obtain ⟨key', sock', hget⟩ := h'.conns hget
  exact ⟨key', sock', hget⟩

theorem renames_of_heap (hget : s.get p = .ok c) {sock : SockPair}
    (hheap : s'.heap = s.heap.set p (some { c with key := key, sock := sock }))
    (hmax : s'.maxThreadCount = s.maxThreadCount)
    (hcount : s'.currentConnectionCount = s.currentConnectionCount) : Renames s s' := by
  refine ⟨hmax, hcount, ?_, fun {q c'} hget' => ?_⟩
  · have hput : s'.flags = (s.put p { c with key := key, sock := sock }).flags :=
      congrArg (map isWorker) hheap
    rw [hput]
    exact flags_put_same hget rfl
  · simp only [get_eq_ok] at hget hget' ⊢
    rw [hheap]
    by_cases hq : p = q
    · subst hq
      rw [hget] at hget'
      cases hget'
      exact ⟨key, sock, List.getElem?_set_self (List.getElem?_eq_some_iff.mp hget).1⟩
    · exact ⟨c'.key, c'.sock, by rw [getElem?_set_ne hq, hget']⟩

theorem addSockPair_ok {sock : SockPair} (h : addSockPair s p c sock = .ok s') :
    s'.heap = s.heap.set p (some { c with sock := sock }) ∧
      s'.maxThreadCount = s.maxThreadCount ∧
      s'.currentConnectionCount = s.currentConnectionCount := by
  unfold addSockPair at h
  split at h
  · split at h <;> cases h
  · cases h
    exact ⟨rfl, rfl, rfl⟩

variable {remoteAddr localAddr : IPAddress} {remotePort : Int}

theorem updateSockPair_ok (h : updateSockPair s p c localAddr remoteAddr remotePort = .ok s') :
    ∃ sock, s'.heap = s.heap.set p (some { c with sock := sock }) ∧
      s'.maxThreadCount = s.maxThreadCount ∧
      s'.currentConnectionCount = s.currentConnectionCount := by
  obtain ⟨-, h⟩ := unless_eq_ok.mp h
  cases h
  exact ⟨_, rfl, rfl, rfl⟩

variable {uniqueNumber : Int}

theorem renames_of_addForkedConnection {q : Nat}
    (h : addForkedConnection s p q localAddr remoteAddr remotePort uniqueNumber = .ok s') :
    Renames s s' := by
  unfold addForkedConnection at h
  simp only [bind_eq_ok] at h
  obtain ⟨c, hc, s₁, hupdate, clone, hclone, s₂, hadd, c', hc', h⟩ := h
  cases h
  obtain ⟨sock, hheap, hmax, hcount⟩ := updateSockPair_ok hupdate
  obtain ⟨hheap', hmax', hcount'⟩ := addSockPair_ok hadd
  refine (renames_of_heap hc hheap hmax hcount).trans ?_
  refine (renames_of_heap hclone hheap' hmax' hcount').trans ?_
  exact renames_of_heap hc' rfl rfl rfl

/-- What is left for the state transition once an event has been processed. -/
structure Prepares (s : State) (p : Nat) (c : TCPConnection) (s' : State) : Prop where
  max : s'.maxThreadCount = s.maxThreadCount
  count : s'.currentConnectionCount = s.currentConnectionCount
  flags : s'.flags = s.flags
  conn : ∃ c', s'.get p = .ok c' ∧ c'.fsm = c.fsm ∧ c'.worker = c.worker ∧
    (c.fsm = .synRcvd → c'.active = c.active)

/-- Only the connection that an event is for has changed, and not in what the state
transition looks at. -/
structure Replaces (s : State) (p : Nat) (c : TCPConnection) (s' : State) : Prop where
  max : s'.maxThreadCount = s.maxThreadCount
  count : s'.currentConnectionCount = s.currentConnectionCount
  heap : ∃ c', s'.heap = s.heap.set p (some c') ∧ c'.fsm = c.fsm ∧ c'.worker = c.worker ∧
    (c.fsm = .synRcvd → c'.active = c.active)

section Replaces

variable {s s' : State} {p : Nat} {c : TCPConnection}

theorem Replaces.refl (hget : s.get p = .ok c) : Replaces s p c s :=
  ⟨rfl, rfl, c, congrArg State.heap (put_self hget).symm, rfl, rfl, fun _ => rfl⟩

theorem Replaces.prepares (h : Replaces s p c s') (hget : s.get p = .ok c) :
    Prepares s p c s' := by
  obtain ⟨c', hheap, hfsm, hworker, hactive⟩ := h.heap
  refine ⟨h.max, h.count, ?_, c', ?_, hfsm, hworker, hactive⟩
  · rw [← flags_put_same hget hworker]
    exact congrArg (map isWorker) hheap
  · rw [get_eq_ok, hheap]
    exact getElem?_set_self (lt_of_get hget)

theorem replaces_of_addSockPair {c' : TCPConnection} {sock : SockPair}
    (h : addSockPair s p c' sock = .ok s') (hinit : c.fsm = .init) (hfsm : c'.fsm = c.fsm)
    (hworker : c'.worker = c.worker) : Replaces s p c s' := by
  obtain ⟨hheap, hmax, hcount⟩ := addSockPair_ok h
  refine ⟨hmax, hcount, _, hheap, hfsm, hworker, fun hrcvd => ?_⟩
  rw [hinit] at hrcvd
  cases hrcvd

theorem replaces_of_updateSockPair {localAddr remoteAddr : IPAddress} {remotePort : Int}
    (h : updateSockPair s p c localAddr remoteAddr remotePort = .ok s') : Replaces s p c s' := by
  obtain ⟨sock, hheap, hmax, hcount⟩ := updateSockPair_ok h
  exact ⟨hmax, hcount, _, hheap, rfl, rfl, fun _ => rfl⟩

end Replaces

def Command.code (c : TCPConnection) : Command → TCPEventCode
  | .openActive _ _ _ _ => .openActive
  | .openPassive _ _ _ => .openPassive
  | .send => .send
  | .close pending =>
      if pending ∧ (c.fsm = .synRcvd ∨ c.fsm = .established ∨ c.fsm = .closeWait) then .ignore
      else .close
  | .abort => .abort
  | .status => .status

theorem processAppCommand_ok {command : Command} (hget : s.get p = .ok c)
    (h : processAppCommand s p c command = .ok (s', event)) :
    Replaces s p c s' ∧ event = command.code c := by
  have hkeeps : Replaces s p c s := .refl hget
  cases command with
  | openActive localAddr remoteAddr localPort remotePort | openPassive localAddr localPort fork =>
    obtain ⟨hinit, h⟩ := unless_eq_ok.mp h
    obtain ⟨-, h⟩ := unless_eq_ok.mp h
    obtain ⟨s₁, hadd, h⟩ := bind_eq_ok.mp h
    cases h
    exact ⟨replaces_of_addSockPair hadd (not_not.mp hinit) rfl rfl, rfl⟩
  | send =>
    simp only [processAppCommand, processSend] at h
    split at h
    · cases h
    · rename_i hlisten
      cases h
      refine ⟨⟨rfl, rfl, _, rfl, rfl, rfl, fun hrcvd => ?_⟩, rfl⟩
      rw [hlisten] at hrcvd
      cases hrcvd
    all_goals cases h
    exact ⟨hkeeps, rfl⟩
  | close pending =>
    simp only [processAppCommand, processClose] at h
    cases hfsm : c.fsm <;> rw [hfsm] at h <;> cases h <;> refine ⟨hkeeps, ?_⟩ <;>
      simp [Command.code, hfsm]
  | abort | status =>
    obtain ⟨-, h⟩ := unless_eq_ok.mp h
    cases h
    exact ⟨hkeeps, rfl⟩

def Forks (s : State) (c : TCPConnection) : Event → Prop
  | .segment seg _ =>
      c.fsm = .listen ∧ seg.rst = false ∧ seg.ack = false ∧ seg.syn = true ∧ c.fork = true ∧
        s.currentConnectionCount < s.maxThreadCount
  | _ => False

def TCPSegment.code (s : State) (c : TCPConnection) (seg : TCPSegment) (answers : Answers) :
    TCPEventCode :=
  match c.fsm with
  | .listen =>
      if seg.rst || seg.ack || !seg.syn || !answers.fits then .ignore
      else if c.fork ∧ s.maxThreadCount ≤ s.currentConnectionCount then .ignore
      else .rcvSyn
  | .synSent =>
      if seg.ack && !answers.acceptableAck then .ignore
      else if seg.rst then if seg.ack then .rcvRst else .ignore
      else if !seg.syn || !answers.fits then .ignore
      else if seg.ack then .rcvSynAck
      else .rcvSyn
  | _ => answers.code

structure ForksTo (s : State) (p : Nat) (s' : State) : Prop where
  max : s'.maxThreadCount = s.maxThreadCount
  count : s'.currentConnectionCount = s.currentConnectionCount + 1
  flags : s'.flags = s.flags.set p true ++ [false]
  conn : ∃ c', s'.get p = .ok c' ∧ c'.fsm = .listen

theorem get_cloneListeningConnection (hget : s.get p = .ok c) :
    (cloneListeningConnection s c).get p = .ok c := by
  rw [get_eq_ok]
  exact (getElem?_append_left (lt_of_get hget)).trans (get_eq_ok.mp hget)

theorem flags_cloneListeningConnection (s : State) (c : TCPConnection) :
    (cloneListeningConnection s c).flags = s.flags ++ [false] :=
  map_append

theorem forkConnection_ok (hget : s.get p = .ok c) (hfsm : c.fsm = .listen)
    (h : forkConnection { s with currentConnectionCount := s.currentConnectionCount + 1 } p c seg
      uniqueNumber = .ok s') : ForksTo s p s' := by
  have hrenames := renames_of_addForkedConnection h
  have hclone : (cloneListeningConnection
      { s with currentConnectionCount := s.currentConnectionCount + 1 } c).get p = .ok c :=
    get_cloneListeningConnection hget
  obtain ⟨key, sock, hget'⟩ := hrenames.conns (get_put hclone)
  refine ⟨hrenames.max, hrenames.count, ?_, _, hget', hfsm⟩
  have hlt : p < s.flags.length := by
    rw [State.flags, length_map]
    exact lt_of_get hget
  rw [hrenames.flags, flags_put, flags_cloneListeningConnection]
  exact set_append_left p true hlt

def Accepted (s : State) (c : TCPConnection) (seg : TCPSegment) : Prop :=
  seg.rst = false ∧ seg.ack = false ∧ seg.syn = true ∧
    (c.fork = true → s.currentConnectionCount < s.maxThreadCount)

instance (s : State) (c : TCPConnection) (seg : TCPSegment) : Decidable (Accepted s c seg) :=
  inferInstanceAs (Decidable (_ ∧ _))

/-- What an accepted SYN does to the module: the connection is counted and forks, or it gets
the socket of the sender. -/
def enter (s : State) (p : Nat) (c : TCPConnection) (seg : TCPSegment) (uniqueNumber : Int) :
    Except Stop State :=
  if c.fork then
    forkConnection { s with currentConnectionCount := s.currentConnectionCount + 1 } p c seg
      uniqueNumber
  else updateSockPair s p c seg.destAddr seg.srcAddr seg.srcPort

theorem limit_of_not_accepted (h : ¬ Accepted s c seg) (hrst : ¬ seg.rst = true)
    (hack : ¬ seg.ack = true) (hsyn : seg.syn = true) :
    c.fork = true ∧ acceptAnotherConnection s = (false, s) := by
  simp only [Accepted, hrst, hack, hsyn, true_and, not_forall] at h
  obtain ⟨hfork, hlimit⟩ := h
  exact ⟨hfork, if_neg hlimit⟩

theorem processSegmentInListen_eq (s : State) (p : Nat) (c : TCPConnection) (seg : TCPSegment)
    (answers : Answers) :
    processSegmentInListen s p c seg answers =
      if Accepted s c seg then do
        let s ← enter s p c seg answers.uniqueNumber
        .ok (s, if answers.fits then .rcvSyn else .ignore)
      else .ok (s, .ignore) := by
  by_cases hacc : Accepted s c seg
  · rw [if_pos hacc]
    obtain ⟨hrst, hack, hsyn, hlimit⟩ := hacc
    simp only [processSegmentInListen, enter, hrst, hack, hsyn, if_true, Bool.false_eq_true,
      if_false]
    split
    · rename_i hfork
      have haccept : acceptAnotherConnection s =
          (true, { s with currentConnectionCount := s.currentConnectionCount + 1 }) :=
        if_pos (hlimit hfork)
      rw [haccept]
    · rfl
  · unfold processSegmentInListen
    split
    · rfl
    rename_i hrst
    split
    · rfl
    rename_i hack
    split
    · rename_i hsyn
      obtain ⟨hfork, haccept⟩ := limit_of_not_accepted hacc hrst hack hsyn
      rw [if_pos hfork, haccept]
    · rfl

theorem code_of_listen (hfsm : c.fsm = .listen) (seg : TCPSegment) (answers : Answers) :
    seg.code s c answers =
      if Accepted s c seg then if answers.fits then .rcvSyn else .ignore else .ignore := by
  by_cases hacc : Accepted s c seg
  · obtain ⟨hrst, hack, hsyn, hlimit⟩ := id hacc
    have hroom : ¬ (c.fork = true ∧ s.maxThreadCount ≤ s.currentConnectionCount) :=
      fun hfull => absurd (hlimit hfull.1) (Int.not_lt.mpr hfull.2)
    rw [if_pos hacc]
    cases hfits : answers.fits <;> simp [TCPSegment.code, hfsm, hrst, hack, hsyn, hfits, hroom]
  · simp only [TCPSegment.code, hfsm]
    split
    · rfl
    rename_i hflags
    split
    · rfl
    rename_i hroom
    simp only [Bool.or_eq_true, Bool.not_eq_eq_eq_not, Bool.not_true, not_or, Bool.not_eq_true,
      Bool.not_eq_false] at hflags
    obtain ⟨⟨⟨hrst, hack⟩, hsyn⟩, -⟩ := hflags
    exact absurd
      ⟨hrst, hack, hsyn, fun hfork => Int.not_le.mp fun hfull => hroom ⟨hfork, hfull⟩⟩ hacc

theorem forks_iff :
    Forks s c (.segment seg answers) ↔
      c.fsm = .listen ∧ c.fork = true ∧ Accepted s c seg := by
  constructor
  · rintro ⟨hfsm, hrst, hack, hsyn, hfork, hlimit⟩
    exact ⟨hfsm, hfork, hrst, hack, hsyn, fun _ => hlimit⟩
  · rintro ⟨hfsm, hfork, hrst, hack, hsyn, hlimit⟩
    exact ⟨hfsm, hrst, hack, hsyn, hfork, hlimit hfork⟩

inductive Segmented (s : State) (p : Nat) (c : TCPConnection) (seg : TCPSegment)
    (answers : Answers) (s' : State) : Prop
  | replaced (hforks : ¬ Forks s c (.segment seg answers)) (hreplaces : Replaces s p c s')
  | forked (hforks : Forks s c (.segment seg answers))
      (hfork : forkConnection { s with currentConnectionCount := s.currentConnectionCount + 1 } p c
        seg answers.uniqueNumber = .ok s')

theorem processSegmentInListen_ok (hget : s.get p = .ok c) (hfsm : c.fsm = .listen)
    (h : processSegmentInListen s p c seg answers = .ok (s', event)) :
    event = seg.code s c answers ∧ Segmented s p c seg answers s' := by
  rw [processSegmentInListen_eq] at h
  rw [code_of_listen hfsm]
  by_cases hacc : Accepted s c seg
  · rw [if_pos hacc] at h
    obtain ⟨s₁, henter, h⟩ := bind_eq_ok.mp h
    cases h
    refine ⟨(if_pos hacc).symm, ?_⟩
    by_cases hfork : c.fork = true
    · rw [enter, if_pos hfork] at henter
      exact .forked (forks_iff.mpr ⟨hfsm, hfork, hacc⟩) henter
    · rw [enter, if_neg hfork] at henter
      exact .replaced (fun hforks => hfork (forks_iff.mp hforks).2.1)
        (replaces_of_updateSockPair henter)
  · rw [if_neg hacc] at h
    cases h
    exact ⟨(if_neg hacc).symm,
      .replaced (fun hforks => hacc (forks_iff.mp hforks).2.2) (.refl hget)⟩

theorem processSegmentInSynSent_ok (hget : s.get p = .ok c) (hfsm : c.fsm = .synSent)
    (h : processSegmentInSynSent s p c seg answers = .ok (s', event)) :
    event = seg.code s c answers ∧ Replaces s p c s' := by
  have hkeeps : Replaces s p c s := .refl hget
  unfold processSegmentInSynSent at h
  simp only [TCPSegment.code, hfsm]
  split at h
  · rename_i hack
    cases h
    simp [hack, hkeeps]
  · rename_i hack
    split at h
    · rename_i hrst
      cases h
      simp [hack, hrst, hkeeps]
    · rename_i hrst
      split at h
      · rename_i hsyn
        obtain ⟨s₁, hupdate, h⟩ := bind_eq_ok.mp h
        cases h
        refine ⟨?_, replaces_of_updateSockPair hupdate⟩
        rw [if_neg hack, if_neg hrst, hsyn, Bool.not_true, Bool.false_or]
      · rename_i hsyn
        cases h
        simp [hack, hrst, hsyn, hkeeps]

theorem processTCPSegment_ok (hget : s.get p = .ok c)
    (h : processTCPSegment s p c seg answers = .ok (s', event)) :
    event = seg.code s c answers ∧ Segmented s p c seg answers s' := by
  obtain ⟨-, h⟩ := unless_eq_ok.mp h
  obtain ⟨-, h⟩ := unless_eq_ok.mp h
  split at h
  · rename_i hfsm
    exact processSegmentInListen_ok hget hfsm h
  · rename_i hfsm
    obtain ⟨hcode, hreplaces⟩ := processSegmentInSynSent_ok hget hfsm h
    refine ⟨hcode, .replaced (fun hforks => ?_) hreplaces⟩
    rw [hforks.1] at hfsm
    cases hfsm
  · rename_i hlisten hsent
    cases h
    refine ⟨?_, .replaced (fun hforks => hlisten hforks.1) (.refl hget)⟩
    unfold TCPSegment.code
    split
    · rename_i hfsm
      exact absurd hfsm hlisten
    · rename_i hfsm
      exact absurd hfsm hsent
    · rfl

def Timer.code : Timer → TCPEventCode
  | .the2MSL => .timeout2MSL
  | .connEstab => .timeoutConnEstab
  | .finWait2 => .timeoutFinWait2
  | .synRexmit givingUp => if givingUp then .abort else .ignore
  | .algorithm code => code

theorem processTimer_ok {timer : Timer} (h : processTimer c timer = .ok event) :
    event = timer.code := by
  cases timer with
  | algorithm code => exact (Except.ok.inj h).symm
  | synRexmit givingUp =>
    cases givingUp with
    | true => exact (Except.ok.inj h).symm
    | false =>
      obtain ⟨-, h⟩ := guard_eq_ok.mp h
      exact (Except.ok.inj h).symm
  | _ =>
    obtain ⟨-, h⟩ := guard_eq_ok.mp h
    exact (Except.ok.inj h).symm

/-! ## One message -/

def target (s : State) : Event → Option Nat
  | .command key _ => s.tcpAppConnMap key
  | .segment seg _ => findConnForSegment s seg
  | .icmp => none
  | .timer p _ => some p

def Event.code (s : State) (c : TCPConnection) : Event → TCPEventCode
  | .command _ cmd => cmd.code c
  | .segment seg answers => seg.code s c answers
  | .icmp => .ignore
  | .timer _ t => t.code

def Closes (s : State) (c : TCPConnection) (e : Event) : Prop :=
  transition c.worker c.active c.fsm (e.code s c) = .closed

/-- What a message does: nothing, or it is processed by a connection, which then makes its state
transition. -/
inductive Handled (s : State) (e : Event) (s' : State) : Prop
  | dropped (htarget : target s e = none) (hsame : s' = s)
  | created (key : AppConnKey) (c : TCPConnection) (s₁ : State) (htarget : target s e = none)
      (hget : (createConnection s key).get s.heap.length = .ok c)
      (hreplaces : Replaces (createConnection s key) s.heap.length c s₁)
      (hfinish : finish s₁ s.heap.length (e.code s c) = .ok s')
  | processed (p : Nat) (c : TCPConnection) (s₁ : State) (htarget : target s e = some p)
      (hget : s.get p = .ok c) (hforks : ¬ Forks s c e) (hreplaces : Replaces s p c s₁)
      (hfinish : finish s₁ p (e.code s c) = .ok s')
  | forked (p : Nat) (c : TCPConnection) (seg : TCPSegment) (uniqueNumber : Int) (s₁ : State)
      (htarget : target s e = some p) (hget : s.get p = .ok c) (hforks : Forks s c e)
      (hfork : forkConnection { s with currentConnectionCount := s.currentConnectionCount + 1 } p c
        seg uniqueNumber = .ok s₁)
      (hfinish : finish s₁ p (e.code s c) = .ok s')

theorem handleMessage_cases (h : handleMessage s e = .ok (s', ())) : Handled s e s' := by
  cases e with
  | command key command =>
    simp only [handleMessage] at h
    rcases htarget : s.tcpAppConnMap key with _ | p
    all_goals
      simp only [connForApp, htarget, bind_eq_ok] at h
      obtain ⟨c, hget, ⟨s₁, event⟩, hprocess, s₂, hfinish, h⟩ := h
      cases h
      obtain ⟨hreplaces, rfl⟩ := processAppCommand_ok hget hprocess
    · exact .created key c s₁ htarget hget hreplaces hfinish
    · exact .processed p c s₁ htarget hget id hreplaces hfinish
  | segment seg answers =>
    simp only [handleMessage] at h
    split at h
    · rename_i htarget
      cases h
      exact .dropped htarget rfl
    · rename_i p htarget
      simp only [bind_eq_ok] at h
      obtain ⟨c, hget, ⟨s₁, event⟩, hprocess, s₂, hfinish, h⟩ := h
      cases h
      obtain ⟨rfl, hsegment⟩ := processTCPSegment_ok hget hprocess
      cases hsegment with
      | replaced hforks hreplaces => exact .processed p c s₁ htarget hget hforks hreplaces hfinish
      | forked hforks hfork => exact .forked p c seg _ s₁ htarget hget hforks hfork hfinish
  | icmp =>
    cases h
    exact .dropped rfl rfl
  | timer p timer =>
    simp only [handleMessage, bind_eq_ok] at h
    obtain ⟨c, hget, event, hprocess, s₁, hfinish, h⟩ := h
    cases h
    obtain rfl := processTimer_ok hprocess
    exact .processed p c s rfl hget id (.refl hget) hfinish

inductive Effect (s : State) (e : Event) (s' : State) : Prop
  | kept (hcount : s'.currentConnectionCount = s.currentConnectionCount)
      (hworkers : s'.workers = s.workers)
      (hneither : ∀ p c, target s e = some p → s.get p = .ok c → ¬ Closes s c e ∧ ¬ Forks s c e)
  | closed (p : Nat) (c : TCPConnection) (htarget : target s e = some p) (hget : s.get p = .ok c)
      (hcloses : Closes s c e) (hforks : ¬ Forks s c e)
      (hcount : s'.currentConnectionCount =
        if s.currentConnectionCount ≤ 0 then s.currentConnectionCount
        else s.currentConnectionCount - 1)
      (hworkers : s'.workers + c.worker.toNat = s.workers)
  | forked (p : Nat) (c : TCPConnection) (htarget : target s e = some p) (hget : s.get p = .ok c)
      (hcloses : ¬ Closes s c e) (hforks : Forks s c e)
      (hcount : s'.currentConnectionCount = s.currentConnectionCount + 1)
      (hworkers : s'.workers + c.worker.toNat = s.workers + 1)

theorem Prepares.effect {s s₁ s' : State} {p : Nat} {c : TCPConnection} {e : Event}
    (h : Prepares s p c s₁) (htarget : target s e = some p) (hget : s.get p = .ok c)
    (hforks : ¬ Forks s c e) (hfinish : finish s₁ p (e.code s c) = .ok s') :
    s'.maxThreadCount = s.maxThreadCount ∧ Effect s e s' := by
  obtain ⟨c', hget', hfsm, hworker, hactive⟩ := h.conn
  obtain ⟨hmax, hcases⟩ := finish_ok hget' hfinish
  have htransition : transition c'.worker c'.active c'.fsm (e.code s c) =
      transition c.worker c.active c.fsm (e.code s c) := by
    rw [hfsm, hworker]
    by_cases hrcvd : c.fsm = .synRcvd
    · rw [hactive hrcvd]
    · exact transition_active hrcvd _ _ _ _
  rw [htransition] at hcases
  refine ⟨hmax.trans h.max, ?_⟩
  rcases hcases with ⟨hclosed, hflags, hcount⟩ | ⟨hopen, hflags, hcount⟩
  · rw [h.count] at hcount
    refine .closed p c htarget hget hclosed hforks hcount ?_
    rw [State.workers, hflags, h.flags]
    exact (count_set_flag (flags_getElem? hget)).1
  · have hworkers : s'.workers = s.workers := congrArg (List.count true) (hflags.trans h.flags)
    refine .kept (hcount.trans h.count) hworkers fun p' c' htarget' hget' => ?_
    rw [htarget] at htarget'
    cases htarget'
    rw [hget] at hget'
    cases hget'
    exact ⟨hopen, hforks⟩

theorem Forks.stays_open (h : Forks s c e) (worker active : Bool) :
    transition worker active .listen (e.code s c) ≠ .closed := by
  cases e with
  | segment seg answers =>
    obtain ⟨hfsm, -⟩ := h
    simp only [Event.code, TCPSegment.code, hfsm]
    split
    · exact TcpState.noConfusion
    · split
      · exact TcpState.noConfusion
      · exact TcpState.noConfusion
  | _ => cases h

theorem Forks.listen (h : Forks s c e) : c.fsm = .listen := by
  cases e with
  | segment seg answers => exact h.1
  | _ => cases h

theorem ForksTo.effect (h : ForksTo s p s₁) (htarget : target s e = some p) (hget : s.get p = .ok c)
    (hforks : Forks s c e) (hfinish : finish s₁ p (e.code s c) = .ok s') :
    s'.maxThreadCount = s.maxThreadCount ∧ Effect s e s' := by
  obtain ⟨c', hget', hfsm⟩ := h.conn
  obtain ⟨hmax, hcases⟩ := finish_ok hget' hfinish
  rw [hfsm] at hcases
  refine ⟨hmax.trans h.max, ?_⟩
  rcases hcases with ⟨hclosed, -⟩ | ⟨-, hflags, hcount⟩
  · exact absurd hclosed (hforks.stays_open _ _)
  have hopen : ¬ Closes s c e := by
    rw [Closes, hforks.listen]
    exact hforks.stays_open _ _
  refine .forked p c htarget hget hopen hforks (hcount.trans h.count) ?_
  rw [State.workers, hflags, h.flags, count_append]
  exact (count_set_flag (flags_getElem? hget)).2

theorem new_createConnection (h : (createConnection s key).get s.heap.length = .ok c) :
    c.fsm = .init ∧ c.worker = false := by
  have hlast := getElem?_concat_length.symm.trans (get_eq_ok.mp h)
  obtain rfl := Option.some.inj (Option.some.inj hlast)
  exact ⟨rfl, rfl⟩

theorem workers_createConnection (s : State) (key : AppConnKey) :
    (createConnection s key).workers = s.workers := by
  have hflags : (createConnection s key).flags = s.flags ++ [false] := map_append
  rw [State.workers, hflags, count_append]
  rfl

theorem createConnection_effect (htarget : target s e = none)
    (hget : (createConnection s key).get s.heap.length = .ok c)
    (hprepares : Prepares (createConnection s key) s.heap.length c s₁)
    (hfinish : finish s₁ s.heap.length (e.code s c) = .ok s') :
    s'.maxThreadCount = s.maxThreadCount ∧ Effect s e s' := by
  obtain ⟨c', hget', hfsm, -, -⟩ := hprepares.conn
  obtain ⟨hmax, hcases⟩ := finish_ok hget' hfinish
  rw [hfsm, (new_createConnection hget).1] at hcases
  refine ⟨hmax.trans hprepares.max, ?_⟩
  rcases hcases with ⟨hclosed, -⟩ | ⟨-, hflags, hcount⟩
  · exact absurd hclosed (transition_init _ _ _)
  refine .kept (hcount.trans hprepares.count) ?_ fun p c htarget' => ?_
  · rw [← workers_createConnection s key]
    exact congrArg (count true) (hflags.trans hprepares.flags)
  · rw [htarget] at htarget'
    cases htarget'

theorem handleMessage_effect (h : handleMessage s e = .ok (s', ())) :
    s'.maxThreadCount = s.maxThreadCount ∧ Effect s e s' := by
  cases handleMessage_cases h with
  | dropped htarget hsame =>
    subst hsame
    refine ⟨rfl, .kept rfl rfl fun p c htarget' => ?_⟩
    rw [htarget] at htarget'
    cases htarget'
  | created key c s₁ htarget hget hreplaces hfinish =>
    exact createConnection_effect htarget hget (hreplaces.prepares hget) hfinish
  | processed p c s₁ htarget hget hforks hreplaces hfinish =>
    exact (hreplaces.prepares hget).effect htarget hget hforks hfinish
  | forked p c seg uniqueNumber s₁ htarget hget hforks hfork hfinish =>
    exact (forkConnection_ok hget hforks.listen hfork).effect htarget hget hforks hfinish

end WormsAttack.Tcp
