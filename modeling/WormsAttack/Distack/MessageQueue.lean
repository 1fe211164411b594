/-
  The message queue of the simulation build.

  Source: distack-1.2.3-dev/src/base/message/MessagingSystem.cpp (`sendMessage`, `flush`).

  MESSAGES.  A sender creates the message object and the messaging system deletes it.  Objects
  are numbered in the order of their creation.  Sending to remote hosts is left out.

  `flush` need not end.  The model runs a given number of rounds of its loop and says whether
  the loop has ended.
-/
import WormsAttack.Distack.Channels

namespace WormsAttack.Distack.MessageQueue

open Foundation List

structure Message where
  id : Nat
  type : MessageType
  deriving DecidableEq

inductive Entry
  | queued (msg : Message)
  /-- `sendMessage` looks the receivers up, in the table as it is then -/
  | dispatched (msg : Message) (table : MessagingTable)
  | received (msg : Message) (node : MessagingNode)
  | deleted (msg : Message)

/-- The types of the messages that a receiver sends, in order.  The last entry of the log
says which message it has received and which node it is. -/
abbrev React := List Entry → List MessageType

/-- `MessagingSystem`, with the log of what has happened, oldest entry first. -/
structure MessagingSystem where
  table : MessagingTable
  queue : List Message
  created : Nat
  log : List Entry

def initial : MessagingSystem where
  table := fun _ => []
  queue := []
  created := 0
  log := []

def send (s : MessagingSystem) (type : MessageType) : MessagingSystem :=
  { s with queue := s.queue ++ [⟨s.created, type⟩]
           created := s.created + 1
           log := s.log ++ [.queued ⟨s.created, type⟩] }

section

variable (react : React)

def receiveMessage (msg : Message) (s : MessagingSystem) (node : MessagingNode) :
    MessagingSystem :=
  let s := { s with log := s.log ++ [.received msg node] }
  (react s.log).foldl send s

/-- `MessagingSystem::sendMessage` in synchronous mode. -/
def sendMessage (msg : Message) (s : MessagingSystem) : MessagingSystem :=
  let deliveryNodes := s.table msg.type
  let s := { s with log := s.log ++ [.dispatched msg s.table] }
  let s := deliveryNodes.foldl (receiveMessage react msg) s
  { s with log := s.log ++ [.deleted msg] }

/-- `MessagingSystem::flush`, at most `rounds` tests of the loop condition. -/
def flush : (rounds : Nat) → MessagingSystem → Bool × MessagingSystem
  | 0, s => (false, s)
  | rounds + 1, s =>
      match s.queue with
      | [] => (true, s)
      | msg :: queue => flush rounds (sendMessage react msg { s with queue := queue })

inductive Event
  | subscribe (node : MessagingNode) (type : MessageType)
  | unsubscribe (node : MessagingNode) (type : MessageType)
  | unsubscribeAll (node : MessagingNode)
  | send (type : MessageType)
  | flush (rounds : Nat)

def step (s : MessagingSystem) : Event → Except Empty (MessagingSystem × Bool)
  | .subscribe node type => .ok ({ s with table := s.table.subscribe node type }, true)
  | .unsubscribe node type => .ok ({ s with table := s.table.unsubscribe node type }, true)
  | .unsubscribeAll node => .ok ({ s with table := s.table.unsubscribeAll node }, true)
  | .send type => .ok (send s type, true)
  | .flush rounds =>
      let (returned, s) := flush react rounds s
      .ok (s, returned)

end

/-! ## Reading the log -/

def Entry.queued? : Entry → Option Message
  | .queued msg => some msg
  | _ => none

def Entry.dispatched? : Entry → Option Message
  | .dispatched msg _ => some msg
  | _ => none

def Entry.deleted? : Entry → Option Message
  | .deleted msg => some msg
  | _ => none

def Entry.receiver? (msg : Message) : Entry → Option MessagingNode
  | .received msg' node => if msg' = msg then some node else none
  | _ => none

def queuedIn (log : List Entry) : List Message := log.filterMap Entry.queued?

def dispatchedIn (log : List Entry) : List Message := log.filterMap Entry.dispatched?

def deletedIn (log : List Entry) : List Message := log.filterMap Entry.deleted?

def receivers (msg : Message) (log : List Entry) : List MessagingNode :=
  log.filterMap (Entry.receiver? msg)

section

variable (log more : List Entry) (msg : Message)

@[simp]
theorem queuedIn_append : queuedIn (log ++ more) = queuedIn log ++ queuedIn more :=
  filterMap_append

@[simp]
theorem dispatchedIn_append :
    dispatchedIn (log ++ more) = dispatchedIn log ++ dispatchedIn more :=
  filterMap_append

@[simp]
theorem deletedIn_append : deletedIn (log ++ more) = deletedIn log ++ deletedIn more :=
  filterMap_append

@[simp]
theorem receivers_append : receivers msg (log ++ more) = receivers msg log ++ receivers msg more :=
  filterMap_append

theorem mem_dispatchedIn {log : List Entry} {msg : Message} :
    msg ∈ dispatchedIn log ↔ ∃ table, .dispatched msg table ∈ log := by
  constructor
  · intro h
    obtain ⟨entry, hmem, heq⟩ := mem_filterMap.mp h
    cases entry with
    | dispatched msg' table =>
      cases heq
      exact ⟨table, hmem⟩
    | queued _ | received _ _ | deleted _ => cases heq
  · rintro ⟨table, hmem⟩
    exact mem_filterMap.mpr ⟨_, hmem, rfl⟩

end

/-! ## What a synchronous send adds to the log -/

/-- Each of `nodes` receives `msg`, in this order, and whatever they send is queued. -/
structure Calls (msg : Message) (nodes : List MessagingNode) (s s' : MessagingSystem)
    (body : List Entry) : Prop where
  table : s'.table = s.table
  log : s'.log = s.log ++ body
  queue : s'.queue = s.queue ++ queuedIn body
  created : List.range s'.created = List.range s.created ++ (queuedIn body).map Message.id
  dispatched : dispatchedIn body = []
  deleted : deletedIn body = []
  received : receivers msg body = nodes
  others : ∀ other, other ≠ msg → receivers other body = []

section

variable {msg : Message} {nodes nodes' : List MessagingNode}
  {s s' s'' : MessagingSystem} {body body' : List Entry}

theorem Calls.nil : Calls msg [] s s [] where
  table := rfl
  log := (append_nil _).symm
  queue := (append_nil _).symm
  created := (append_nil _).symm
  dispatched := rfl
  deleted := rfl
  received := rfl
  others := fun _ _ => rfl

theorem Calls.trans (h : Calls msg nodes s s' body) (h' : Calls msg nodes' s' s'' body') :
    Calls msg (nodes ++ nodes') s s'' (body ++ body') where
  table := h'.table.trans h.table
  log := by rw [h'.log, h.log, append_assoc]
  queue := by rw [h'.queue, h.queue, queuedIn_append, append_assoc]
  created := by rw [h'.created, h.created, queuedIn_append, map_append, append_assoc]
  dispatched := by rw [dispatchedIn_append, h.dispatched, h'.dispatched, nil_append]
  deleted := by rw [deletedIn_append, h.deleted, h'.deleted, nil_append]
  received := by rw [receivers_append, h.received, h'.received]
  others := fun other hne => by
    rw [receivers_append, h.others other hne, h'.others other hne, nil_append]

theorem calls_send (msg : Message) (s : MessagingSystem) (type : MessageType) :
    Calls msg [] s (send s type) [.queued ⟨s.created, type⟩] where
  table := rfl
  log := rfl
  queue := rfl
  created := range_succ
  dispatched := rfl
  deleted := rfl
  received := rfl
  others := fun _ _ => rfl

theorem calls_sends (msg : Message) (types : List MessageType) : ∀ s : MessagingSystem,
    ∃ body, Calls msg [] s (types.foldl send s) body := by
  induction types with
  | nil => exact fun s => ⟨[], .nil⟩
  | cons type types ih =>
    intro s
    obtain ⟨body, hrest⟩ := ih (send s type)
    exact ⟨_, (calls_send msg s type).trans hrest⟩

theorem calls_receiveMessage (react : React) (msg : Message) (s : MessagingSystem)
    (node : MessagingNode) :
    ∃ body, Calls msg [node] s (receiveMessage react msg s node) body := by
  obtain ⟨body, hsends⟩ := calls_sends msg (react (s.log ++ [.received msg node]))
    { s with log := s.log ++ [.received msg node] }
  have hreceived : Calls msg [node] s { s with log := s.log ++ [.received msg node] }
      [.received msg node] :=
    { table := rfl
      log := rfl
      queue := (append_nil _).symm
      created := (append_nil _).symm
      dispatched := rfl
      deleted := rfl
      received := by simp [receivers, Entry.receiver?]
      others := fun other hne => by simp [receivers, Entry.receiver?, Ne.symm hne] }
  exact ⟨_, hreceived.trans hsends⟩

theorem calls_all (react : React) (msg : Message) (nodes : List MessagingNode) :
    ∀ s : MessagingSystem,
      ∃ body, Calls msg nodes s (nodes.foldl (receiveMessage react msg) s) body := by
  induction nodes with
  | nil => exact fun s => ⟨[], .nil⟩
  | cons node nodes ih =>
    intro s
    obtain ⟨first, hfirst⟩ := calls_receiveMessage react msg s node
    obtain ⟨rest, hrest⟩ := ih (receiveMessage react msg s node)
    exact ⟨_, hfirst.trans hrest⟩

end

/-! ## The accounts of the messaging system -/

structure Accounts (s : MessagingSystem) : Prop where
  nodup : ∀ type, (s.table type).Nodup
  numbered : (queuedIn s.log).map Message.id = List.range s.created
  fifo : queuedIn s.log = dispatchedIn s.log ++ s.queue
  deleted : deletedIn s.log = dispatchedIn s.log
  received : ∀ msg table, .dispatched msg table ∈ s.log →
    receivers msg s.log = table msg.type ∧ (table msg.type).Nodup
  unsent : ∀ msg, msg ∉ dispatchedIn s.log → receivers msg s.log = []

namespace Accounts

variable {react : React} {s : MessagingSystem}

theorem queued_nodup (h : Accounts s) : (queuedIn s.log).Nodup :=
  List.Nodup.of_map Message.id (h.numbered ▸ nodup_range)

theorem of_table (h : Accounts s) {table : MessagingTable} (hnodup : ∀ type, (table type).Nodup) :
    Accounts { s with table := table } :=
  ⟨hnodup, h.numbered, h.fifo, h.deleted, h.received, h.unsent⟩

theorem not_received (h : Accounts s) {msg : Message} {table : MessagingTable}
    (hmem : .dispatched msg table ∈ s.log) : msg ∉ s.queue := by
  have hnodup := h.queued_nodup
  rw [h.fifo] at hnodup
  exact fun hqueue => (nodup_append'.mp hnodup).2.2 (mem_dispatchedIn.mpr ⟨table, hmem⟩) hqueue

theorem send (h : Accounts s) (type : MessageType) : Accounts (send s type) := by
  have hcalls := calls_send ⟨s.created, type⟩ s type
  have hreceivers : ∀ msg, receivers msg (MessageQueue.send s type).log = receivers msg s.log := by
    intro msg
    rw [hcalls.log, receivers_append]
    exact append_nil _
  have hdispatched : dispatchedIn (MessageQueue.send s type).log = dispatchedIn s.log := by
    rw [hcalls.log, dispatchedIn_append, hcalls.dispatched, append_nil]
  refine ⟨h.nodup, ?_, ?_, ?_, ?_, ?_⟩
  · rw [hcalls.log, queuedIn_append, map_append, h.numbered, hcalls.created]
  · rw [hdispatched, hcalls.log, hcalls.queue, queuedIn_append, h.fifo, append_assoc]
  · rw [hdispatched, hcalls.log, deletedIn_append, hcalls.deleted, append_nil, h.deleted]
  · intro msg table hmem
    rw [hreceivers]
    refine h.received msg table ?_
    rw [hcalls.log] at hmem
    simpa using hmem
  · intro msg hnot
    rw [hreceivers]
    exact h.unsent msg (hdispatched ▸ hnot)

theorem dispatch (h : Accounts s) {msg : Message} {queue : List Message}
    (hqueue : s.queue = msg :: queue) :
    Accounts (sendMessage react msg { s with queue := queue }) := by
  obtain ⟨body, hcalls⟩ := calls_all react msg (s.table msg.type)
    { s with queue := queue, log := s.log ++ [.dispatched msg s.table] }
  have hlog : (sendMessage react msg { s with queue := queue }).log =
      s.log ++ [.dispatched msg s.table] ++ body ++ [.deleted msg] :=
    congrArg (· ++ [Entry.deleted msg]) hcalls.log
  have htable : (sendMessage react msg { s with queue := queue }).table = s.table := hcalls.table
  have hrest : (sendMessage react msg { s with queue := queue }).queue =
      queue ++ queuedIn body := hcalls.queue
  have hcreated : range (sendMessage react msg { s with queue := queue }).created =
      range s.created ++ (queuedIn body).map Message.id := hcalls.created
  generalize sendMessage react msg { s with queue := queue } = s' at hlog htable hrest hcreated ⊢
  have hqueued : queuedIn s'.log = queuedIn s.log ++ queuedIn body := by
    rw [hlog, queuedIn_append, queuedIn_append, queuedIn_append]
    change queuedIn s.log ++ [] ++ queuedIn body ++ [] = _
    rw [append_nil, append_nil]
  have hdispatched : dispatchedIn s'.log = dispatchedIn s.log ++ [msg] := by
    rw [hlog, dispatchedIn_append, dispatchedIn_append, dispatchedIn_append, hcalls.dispatched]
    simp [dispatchedIn, Entry.dispatched?]
  have hreceivers : ∀ other, receivers other s'.log =
      receivers other s.log ++ receivers other body := by
    intro other
    rw [hlog, receivers_append, receivers_append, receivers_append]
    change receivers other s.log ++ [] ++ receivers other body ++ [] = _
    rw [append_nil, append_nil]
  have hnew : msg ∉ dispatchedIn s.log := by
    intro hmem
    obtain ⟨table, hmem⟩ := mem_dispatchedIn.mp hmem
    exact h.not_received hmem (hqueue ▸ mem_cons_self)
  have hfirst : receivers msg s'.log = s.table msg.type := by
    rw [hreceivers, h.unsent msg hnew, hcalls.received, nil_append]
  have hothers : ∀ other, other ≠ msg → receivers other s'.log = receivers other s.log := by
    intro other hne
    rw [hreceivers, hcalls.others other hne, append_nil]
  refine ⟨fun type => htable ▸ h.nodup type, ?_, ?_, ?_, ?_, ?_⟩
  · rw [hqueued, map_append, h.numbered, hcreated]
  · rw [hqueued, hdispatched, hrest, h.fifo, hqueue]
    simp
  · rw [hdispatched, hlog, deletedIn_append, deletedIn_append, deletedIn_append, hcalls.deleted,
      h.deleted]
    simp [deletedIn, Entry.deleted?]
  · intro other table hmem
    simp only [hlog, mem_append, mem_singleton, Entry.dispatched.injEq, reduceCtorEq,
      or_false] at hmem
    rcases hmem with (hold | ⟨rfl, rfl⟩) | hbody
    · have hne : other ≠ msg := by
        rintro rfl
        exact hnew (mem_dispatchedIn.mpr ⟨table, hold⟩)
      rw [hothers other hne]
      exact h.received other table hold
    · exact ⟨hfirst, h.nodup _⟩
    · exact absurd (mem_dispatchedIn.mpr ⟨table, hbody⟩) (by simp [hcalls.dispatched])
  · intro other hnot
    rw [hdispatched] at hnot
    rw [hothers other fun heq => hnot (mem_append_right _ (by simp [heq]))]
    exact h.unsent other fun hmem => hnot (mem_append_left _ hmem)

theorem flush (rounds : Nat) (h : Accounts s) : Accounts (flush react rounds s).2 := by
  induction rounds generalizing s with
  | zero => exact h
  | succ rounds ih =>
    unfold MessageQueue.flush
    cases hqueue : s.queue with
    | nil => exact h
    | cons msg queue => exact ih (h.dispatch hqueue)

end Accounts

theorem queue_of_flush {react : React} (rounds : Nat) {s : MessagingSystem}
    (h : (flush react rounds s).1 = true) : (flush react rounds s).2.queue = [] := by
  induction rounds generalizing s with
  | zero => cases h
  | succ rounds ih =>
    unfold flush at h ⊢
    cases hqueue : s.queue with
    | nil => exact hqueue
    | cons msg queue =>
      simp only [hqueue] at h
      exact ih h

theorem initial_accounts : Accounts initial :=
  ⟨fun _ => nodup_nil, rfl, rfl, rfl, nofun, fun _ _ => rfl⟩

section

variable {react : React} {tr : List (Step MessagingSystem Event Bool)} {s s' : MessagingSystem}
  {e : Event} {o : Bool}

theorem Accounts.step (h : Accounts s) (hstep : step react s e = .ok (s', o)) : Accounts s' := by
  cases e with
  | subscribe node type =>
    cases hstep
    exact h.of_table fun type' => MessagingTable.nodup_subscribe (h.nodup type')
  | unsubscribe node type =>
    cases hstep
    exact h.of_table fun type' => MessagingTable.nodup_unsubscribe (h.nodup type')
  | unsubscribeAll node =>
    cases hstep
    exact h.of_table fun type' => (h.nodup type').erase node
  | send type =>
    cases hstep
    exact h.send type
  | flush rounds =>
    cases hstep
    exact h.flush rounds

theorem accounts_of_run (h : Run (step react) initial tr s) : Accounts s := by
  induction h with
  | start => exact initial_accounts
  | next _ hstep ih => exact ih.step hstep

/-- Messages are dispatched in the order of the queue; each is received once by each node that its
type's list had at that moment, and deleted once. -/
theorem local_delivery (hrun : Run (step react) initial tr s) :
    (∀ type, (s.table type).Nodup) ∧
      (queuedIn s.log).Nodup ∧
      queuedIn s.log = dispatchedIn s.log ++ s.queue ∧
      deletedIn s.log = dispatchedIn s.log ∧
      (∀ msg table, .dispatched msg table ∈ s.log →
        receivers msg s.log = table msg.type ∧ (receivers msg s.log).Nodup) ∧
      (∀ msg, msg ∉ dispatchedIn s.log → receivers msg s.log = []) ∧
      ∀ (rounds : Nat) (s' : MessagingSystem),
        MessageQueue.step react s (.flush rounds) = .ok (s', true) → s'.queue = [] := by
  have h := accounts_of_run hrun
  refine ⟨h.nodup, h.queued_nodup, h.fifo, h.deleted, ?_, h.unsent, ?_⟩
  · intro msg table hmem
    obtain ⟨hreceived, hnodup⟩ := h.received msg table hmem
    exact ⟨hreceived, hreceived ▸ hnodup⟩
  · intro rounds s' hstep
    have hflush : (flush react rounds s).2 = s' ∧ (flush react rounds s).1 = true := by
      simpa [MessageQueue.step] using hstep
    rw [← hflush.1]
    exact queue_of_flush rounds hflush.2

end

def answersTimers : React := fun log =>
  match log.getLast? with
  | some (.received ⟨_, .timer⟩ (.internal 0)) => [.alert]
  | _ => []

def timers : List Event :=
  [.subscribe (.internal 0) .timer, .subscribe (.internal 1) .timer,
    .subscribe .moduleManager .alert, .send .timer, .send .timer, .flush 5]

theorem local_delivery_timers :
    (dispatchedIn (replayState (step answersTimers) initial timers).log).map Message.type =
        [.timer, .timer, .alert, .alert] ∧
      deletedIn (replayState (step answersTimers) initial timers).log =
        dispatchedIn (replayState (step answersTimers) initial timers).log := by
  have hrun : replays (step answersTimers) initial timers = true := rfl
  exact ⟨rfl, (local_delivery (run_of_replays hrun)).2.2.2.1⟩

end WormsAttack.Distack.MessageQueue
