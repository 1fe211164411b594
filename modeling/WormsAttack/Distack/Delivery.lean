/-
  Delivery of messages while channels come and go.

  Source: distack-1.2.3-dev/src/base/message/MessagingSystem.cpp (`sendMessage`,
  `distributionThreadFunc`) and base/module/Channel.cpp (`startup`, `shutdown`).

  GRANULARITY.  One step is one section under a lock, or one call or return between two of them.
-/
import WormsAttack.Distack.Channels

namespace WormsAttack.Distack.Delivery

open Foundation List

/-! ## The two threads -/

/-- A synchronous call of `sendMessage` that has not returned. -/
inductive Call
  /-- it does not have its copy of the receivers yet -/
  | entered (type : MessageType)
  /-- it is about to call the first node of `rest` -/
  | between (rest : List MessagingNode)
  /-- it has called a node that has not returned; `rest` are the nodes after it -/
  | inside (rest : List MessagingNode)

def Call.rest : Call → List MessagingNode
  | .entered _ => []
  | .between rest => rest
  | .inside rest => rest

inductive Update
  | idle
  /-- in `registerMessages` of the module with number `id`, which will subscribe to `types` -/
  | registering (id : Nat) (types : List MessageType)
  | shuttingDown (modules : List Module)
  | deleting (m : Module) (rest : List Module)

def Update.subscribing : Update → List MessagingNode
  | .registering id types => if types.any MessageType.isValid then [.internal id] else []
  | _ => []

structure System where
  table : MessagingTable
  idCounter : Nat
  queue : List MessageType
  /-- The calls of `sendMessage` on the stack of the distribution thread, innermost first. -/
  calls : List Call
  update : Update

def System.pending (s : System) : List MessagingNode :=
  s.calls.flatMap Call.rest

def initial : System where
  table := Messaging.initial.table
  idCounter := 0
  queue := []
  calls := []
  update := .idle

inductive Event
  | send (type : MessageType)
  | take
  /-- `sendMessage` copies the list of receivers -/
  | lookup
  | deliver
  | sendInside (type : MessageType)
  | unsubscribeInside (node : MessagingNode) (type : MessageType)
  | unsubscribeAllInside (node : MessagingNode)
  | leave
  | finish
  /-- `Channel::startup` creates a module that asks for `types` -/
  | create (types : List MessageType)
  | subscribe
  | shutdown (channel : Channel)
  | unsubscribeAll
  | delete

inductive Effect
  | silent
  | received (node : MessagingNode)
  | unsubscribed (node : MessagingNode)
  | deleted (id : Nat)

inductive Stop
  | notThere

def known (idCounter : Nat) : MessagingNode → Bool
  | .moduleManager => true
  | .internal id => decide (id < idCounter)

def step (s : System) : Event → Except Stop (System × Effect)
  | .send type => .ok ({ s with queue := s.queue ++ [type] }, .silent)
  | .take =>
      match s.calls, s.queue with
      | [], type :: queue =>
          .ok ({ s with queue := queue, calls := [.entered type] }, .silent)
      | _, _ => .error .notThere
  | .lookup =>
      match s.calls with
      | .entered type :: outer =>
          .ok ({ s with calls := .between (s.table type) :: outer }, .silent)
      | _ => .error .notThere
  | .deliver =>
      match s.calls with
      | .between (node :: rest) :: outer =>
          .ok ({ s with calls := .inside rest :: outer }, .received node)
      | _ => .error .notThere
  | .sendInside type =>
      match s.calls with
      | .inside rest :: outer =>
          .ok ({ s with calls := .entered type :: .inside rest :: outer }, .silent)
      | _ => .error .notThere
  | .unsubscribeInside node type =>
      match s.calls with
      | .inside _ :: _ => .ok ({ s with table := s.table.unsubscribe node type }, .silent)
      | _ => .error .notThere
  | .unsubscribeAllInside node =>
      match s.calls with
      | .inside _ :: _ =>
          if known s.idCounter node then
            .ok ({ s with table := s.table.unsubscribeAll node }, .unsubscribed node)
          else .error .notThere
      | _ => .error .notThere
  | .leave =>
      match s.calls with
      | .inside rest :: outer => .ok ({ s with calls := .between rest :: outer }, .silent)
      | _ => .error .notThere
  | .finish =>
      match s.calls with
      | .between [] :: outer => .ok ({ s with calls := outer }, .silent)
      | _ => .error .notThere
  | .create types =>
      match s.update with
      | .idle =>
          .ok ({ s with idCounter := s.idCounter + 1
                        update := .registering s.idCounter types }, .silent)
      | _ => .error .notThere
  | .subscribe =>
      match s.update with
      | .registering id (type :: types) =>
          .ok ({ s with table := s.table.subscribe (.internal id) type
                        update := .registering id types }, .silent)
      | .registering _ [] => .ok ({ s with update := .idle }, .silent)
      | _ => .error .notThere
  | .shutdown channel =>
      match s.update with
      | .idle =>
          if channel.modules.all fun m => decide (m.id < s.idCounter) then
            .ok ({ s with update := .shuttingDown channel.modules }, .silent)
          else .error .notThere
      | _ => .error .notThere
  | .unsubscribeAll =>
      match s.update with
      | .shuttingDown (m :: rest) =>
          if m.messenger.isSome then
            .ok ({ s with table := s.table.unsubscribeAll (.internal m.id)
                          update := .deleting m rest }, .unsubscribed (.internal m.id))
          else .ok ({ s with update := .deleting m rest }, .silent)
      | .shuttingDown [] => .ok ({ s with update := .idle }, .silent)
      | _ => .error .notThere
  | .delete =>
      match s.update with
      | .deleting m rest => .ok ({ s with update := .shuttingDown rest }, .deleted m.id)
      | _ => .error .notThere

/-! ## What a step can do -/

inductive Turn (s : System) : System → Effect → Prop
  | queue (queue : List MessageType) : Turn s { s with queue := queue } .silent
  | enter (queue : List MessageType) (type : MessageType) :
      Turn s { s with queue := queue, calls := .entered type :: s.calls } .silent
  | lookup {type : MessageType} {outer : List Call} (h : s.calls = .entered type :: outer) :
      Turn s { s with calls := .between (s.table type) :: outer } .silent
  | deliver {node : MessagingNode} {rest : List MessagingNode} {outer : List Call}
      (h : s.calls = .between (node :: rest) :: outer) :
      Turn s { s with calls := .inside rest :: outer } (.received node)
  | leave {rest : List MessagingNode} {outer : List Call} (h : s.calls = .inside rest :: outer) :
      Turn s { s with calls := .between rest :: outer } .silent
  | finish {outer : List Call} (h : s.calls = .between [] :: outer) :
      Turn s { s with calls := outer } .silent
  | unsubscribe (node : MessagingNode) (type : MessageType) :
      Turn s { s with table := s.table.unsubscribe node type } .silent
  | unsubscribeAll {node : MessagingNode} (h : known s.idCounter node = true) :
      Turn s { s with table := s.table.unsubscribeAll node } (.unsubscribed node)
  | create {types : List MessageType} (h : s.update = .idle) :
      Turn s { s with idCounter := s.idCounter + 1
                      update := .registering s.idCounter types } .silent
  | subscribe {id : Nat} {type : MessageType} {types : List MessageType}
      (h : s.update = .registering id (type :: types)) :
      Turn s { s with table := s.table.subscribe (.internal id) type
                      update := .registering id types } .silent
  | registered {id : Nat} (h : s.update = .registering id []) :
      Turn s { s with update := .idle } .silent
  | shutdown {modules : List Module} (h : ∀ m ∈ modules, m.id < s.idCounter) :
      Turn s { s with update := .shuttingDown modules } .silent
  | remove {m : Module} {rest : List Module} (h : s.update = .shuttingDown (m :: rest)) :
      Turn s { s with table := s.table.unsubscribeAll (.internal m.id)
                      update := .deleting m rest } (.unsubscribed (.internal m.id))
  | skip {m : Module} {rest : List Module} (h : s.update = .shuttingDown (m :: rest)) :
      Turn s { s with update := .deleting m rest } .silent
  | done (h : s.update = .shuttingDown []) : Turn s { s with update := .idle } .silent
  | delete {m : Module} {rest : List Module} (h : s.update = .deleting m rest) :
      Turn s { s with update := .shuttingDown rest } (.deleted m.id)

theorem step_turn {s s' : System} {e : Event} {o : Effect} (h : step s e = .ok (s', o)) :
    Turn s s' o := by
  unfold step at h
  split at h
  · cases h
    exact .queue _
  · split at h
    · rename_i hcalls _
      cases h
      simpa [hcalls] using Turn.enter (s := s) _ _
    · cases h
  · split at h
    · cases h
      exact .lookup ‹_›
    · cases h
  · split at h
    · cases h
      exact .deliver ‹_›
    · cases h
  · split at h
    · rename_i hcalls
      cases h
      simpa [hcalls] using Turn.enter (s := s) s.queue _
    · cases h
  · split at h
    · cases h
      exact .unsubscribe _ _
    · cases h
  · split at h
    · split_ifs at h with hknown
      cases h
      exact .unsubscribeAll hknown
    · cases h
  · split at h
    · cases h
      exact .leave ‹_›
    · cases h
  · split at h
    · cases h
      exact .finish ‹_›
    · cases h
  · split at h
    · cases h
      exact .create ‹_›
    · cases h
  · split at h
    · cases h
      exact .subscribe ‹_›
    · cases h
      exact .registered ‹_›
    · cases h
  · split at h
    · split_ifs at h with hmodules
      cases h
      exact .shutdown (by simpa using hmodules)
    · cases h
  · split at h
    · split_ifs at h
      · cases h
        exact .remove ‹_›
      · cases h
        exact .skip ‹_›
    · cases h
      exact .done ‹_›
    · cases h
  · split at h
    · cases h
      exact .delete ‹_›
    · cases h

/-! ## What holds between the steps -/

/-- The table lists no node twice under a type, and the threads only know objects that
have been created. -/
structure Sound (s : System) : Prop where
  nodup : ∀ type, (s.table type).Nodup
  listed : ∀ type node, node ∈ s.table type → known s.idCounter node = true
  registering : ∀ id types, s.update = .registering id types → id < s.idCounter
  shuttingDown : ∀ modules, s.update = .shuttingDown modules → ∀ m ∈ modules, m.id < s.idCounter
  deleting : ∀ m rest, s.update = .deleting m rest → ∀ m ∈ rest, m.id < s.idCounter

theorem initial_sound : Sound initial where
  nodup := by
    intro type
    cases type <;> decide
  listed := by
    intro type node hnode
    cases node with
    | moduleManager => rfl
    | internal id => exact absurd (Messaging.initial.created type id hnode) (Nat.not_lt_zero id)
  registering := nofun
  shuttingDown := nofun
  deleting := nofun

theorem known_succ {idCounter : Nat} {node : MessagingNode} (h : known idCounter node = true) :
    known (idCounter + 1) node = true := by
  cases node with
  | moduleManager => rfl
  | internal id =>
    simp only [known, decide_eq_true_eq] at h ⊢
    exact Nat.lt_succ_of_lt h

theorem Sound.of_table {s : System} (h : Sound s) {table : MessagingTable}
    (hnodup : ∀ type, (table type).Nodup)
    (hsub : ∀ type node, node ∈ table type → node ∈ s.table type) :
    Sound { s with table := table } where
  nodup := hnodup
  listed := fun type node hnode => h.listed type node (hsub type node hnode)
  registering := h.registering
  shuttingDown := h.shuttingDown
  deleting := h.deleting

theorem Sound.unsubscribeAll {s : System} (h : Sound s) (node : MessagingNode) :
    Sound { s with table := s.table.unsubscribeAll node } :=
  h.of_table (fun type => (h.nodup type).erase node)
    fun _ _ hmem => mem_of_mem_erase hmem

theorem Sound.turn {s s' : System} {o : Effect} (h : Sound s) (hturn : Turn s s' o) :
    Sound s' := by
  cases hturn with
  | queue _ | enter _ _ | lookup _ | deliver _ | leave _ | finish _ =>
    exact ⟨h.nodup, h.listed, h.registering, h.shuttingDown, h.deleting⟩
  | unsubscribe node type =>
    exact h.of_table (fun type' => MessagingTable.nodup_unsubscribe (h.nodup type'))
      fun _ _ => MessagingTable.mem_of_mem_unsubscribe
  | unsubscribeAll _ => exact h.unsubscribeAll _
  | create _ =>
    refine ⟨h.nodup, fun type node hnode => known_succ (h.listed type node hnode), ?_, nofun, nofun⟩
    intro id types heq
    cases heq
    exact Nat.lt_succ_self _
  | subscribe hupdate =>
    refine ⟨fun type => MessagingTable.nodup_subscribe (h.nodup type), ?_, ?_, nofun, nofun⟩
    · intro type node hnode
      rcases MessagingTable.mem_subscribe.mp hnode with hnode | ⟨_, _, rfl⟩
      · exact h.listed type node hnode
      · exact decide_eq_true (h.registering _ _ hupdate)
    · intro id types heq
      cases heq
      exact h.registering _ _ hupdate
  | registered _ | done _ => exact ⟨h.nodup, h.listed, nofun, nofun, nofun⟩
  | shutdown hmodules =>
    refine ⟨h.nodup, h.listed, nofun, ?_, nofun⟩
    intro modules heq
    cases heq
    exact hmodules
  | remove hupdate =>
    have hrest := forall_mem_cons.mp (h.shuttingDown _ hupdate)
    refine ⟨(h.unsubscribeAll _).nodup, (h.unsubscribeAll _).listed, nofun, nofun, ?_⟩
    intro m rest heq
    cases heq
    exact hrest.2
  | skip hupdate =>
    have hrest := forall_mem_cons.mp (h.shuttingDown _ hupdate)
    refine ⟨h.nodup, h.listed, nofun, nofun, ?_⟩
    intro m rest heq
    cases heq
    exact hrest.2
  | delete hupdate =>
    refine ⟨h.nodup, h.listed, nofun, ?_, nofun⟩
    intro modules heq
    cases heq
    exact h.deleting _ _ hupdate

theorem sound_of_run {tr : List (Step System Event Effect)} {s : System}
    (h : Run step initial tr s) : Sound s := by
  induction h with
  | start => exact initial_sound
  | next _ hstep ih => exact ih.turn (step_turn hstep)

/-! ## A node that nobody knows any more -/

/-- The node is in no list of the table, no delivery has it ahead, and it will not be
subscribed again. -/
structure Gone (node : MessagingNode) (s : System) : Prop where
  known : known s.idCounter node = true
  unlisted : ∀ type, node ∉ s.table type
  passed : node ∉ s.pending
  registered : node ∉ s.update.subscribing

section

variable {node : MessagingNode} {s s' : System} {o : Effect}

theorem Gone.of_table (h : Gone node s) {table : MessagingTable}
    (hsub : ∀ type other, other ∈ table type → other ∈ s.table type) :
    Gone node { s with table := table } :=
  ⟨h.known, fun type hmem => h.unlisted type (hsub type node hmem), h.passed, h.registered⟩

theorem Gone.unsubscribeAll (h : Gone node s) (other : MessagingNode) :
    Gone node { s with table := s.table.unsubscribeAll other } :=
  h.of_table fun _ _ => mem_of_mem_erase

theorem Gone.turn (h : Gone node s) (hturn : Turn s s' o) : Gone node s' ∧ o ≠ .received node := by
  have hcalls : ∀ {call : Call} {outer : List Call}, s.calls = call :: outer →
      node ∉ call.rest ∧ node ∉ outer.flatMap Call.rest := by
    intro call outer heq
    have hpassed := h.passed
    rw [System.pending, heq, flatMap_cons] at hpassed
    exact not_or.mp (fun hmem => hpassed (mem_append.mpr hmem))
  cases hturn with
  | queue _ | enter _ _ => exact ⟨⟨h.known, h.unlisted, h.passed, h.registered⟩, nofun⟩
  | @lookup type outer heq =>
    refine ⟨⟨h.known, h.unlisted, ?_, h.registered⟩, nofun⟩
    simpa [System.pending, Call.rest, h.unlisted type] using (hcalls heq).2
  | @deliver next rest outer heq =>
    obtain ⟨hrest, houter⟩ := hcalls heq
    obtain ⟨hne, hrest⟩ := ne_and_not_mem_of_not_mem_cons hrest
    refine ⟨⟨h.known, h.unlisted, ?_, h.registered⟩, ?_⟩
    · simpa [System.pending, Call.rest, hrest] using houter
    · intro heq
      exact hne (Effect.received.inj heq).symm
  | leave heq =>
    have hrest := h.passed
    rw [System.pending, heq] at hrest
    exact ⟨⟨h.known, h.unlisted, hrest, h.registered⟩, nofun⟩
  | finish heq => exact ⟨⟨h.known, h.unlisted, (hcalls heq).2, h.registered⟩, nofun⟩
  | unsubscribe _ _ => exact ⟨h.of_table fun _ _ => MessagingTable.mem_of_mem_unsubscribe, nofun⟩
  | unsubscribeAll _ => exact ⟨h.unsubscribeAll _, nofun⟩
  | @create types _ =>
    refine ⟨⟨known_succ h.known, h.unlisted, h.passed, ?_⟩, nofun⟩
    -- the number of the new module has not been used before
    have hfresh : node ≠ .internal s.idCounter := by
      rintro rfl
      exact Nat.lt_irrefl _ (of_decide_eq_true h.known)
    simp only [Update.subscribing]
    split_ifs
    · simpa using hfresh
    · exact not_mem_nil
  | @subscribe id type types heq =>
    have hregistered := h.registered
    rw [heq, Update.subscribing, any_cons] at hregistered
    refine ⟨⟨h.known, fun type' hmem => ?_, h.passed, ?_⟩, nofun⟩
    · rcases MessagingTable.mem_subscribe.mp hmem with hmem | ⟨hvalid, _, rfl⟩
      · exact h.unlisted type' hmem
      · simp [hvalid] at hregistered
    · simp only [Update.subscribing]
      split_ifs with hany
      · simpa [hany] using hregistered
      · exact not_mem_nil
  | registered _ | done _ | shutdown _ | skip _ | delete _ =>
    exact ⟨⟨h.known, h.unlisted, h.passed, not_mem_nil⟩, nofun⟩
  | @remove m _ _ =>
    exact ⟨⟨h.known, (h.unsubscribeAll (.internal m.id)).unlisted, h.passed, not_mem_nil⟩, nofun⟩

theorem Gone.run (h : Gone node s) {tr : List (Step System Event Effect)}
    (hrun : Run step s tr s') : Gone node s' ∧ ∀ st ∈ tr, st.out ≠ .received node := by
  induction hrun with
  | start => exact ⟨h, forall_mem_nil _⟩
  | next _ hstep ih =>
    obtain ⟨hgone, hout⟩ := ih.1.turn (step_turn hstep)
    exact ⟨hgone, forall_mem_cons.mpr ⟨hout, ih.2⟩⟩

theorem unsubscribed_turn (hsound : Sound s) (hturn : Turn s s' (.unsubscribed node)) :
    known s'.idCounter node = true ∧ (∀ type, node ∉ s'.table type) ∧ s'.pending = s.pending ∧
      s'.update.subscribing = s.update.subscribing := by
  have hunlisted : ∀ type, node ∉ s.table.unsubscribeAll node type := fun type =>
    MessagingTable.not_mem_unsubscribeAll (hsound.nodup type)
  cases hturn with
  | unsubscribeAll hknown => exact ⟨hknown, hunlisted, rfl, rfl⟩
  | remove heq =>
    refine ⟨decide_eq_true ?_, hunlisted, rfl, ?_⟩
    · exact hsound.shuttingDown _ heq _ mem_cons_self
    · rw [heq]
      rfl

end

/-! ## What the threads can still do

From every state the distribution thread can bring its calls to an end, and so every node
that one of them has ahead is called. -/

def Reaches (s s' : System) (nodes : List MessagingNode) : Prop :=
  ∃ tr, Run step s tr s' ∧ ∀ node ∈ nodes, ∃ st ∈ tr, st.out = .received node

section

variable {s s' s'' : System} {nodes nodes' : List MessagingNode} {e : Event} {o : Effect}

theorem Reaches.refl : Reaches s s [] := ⟨[], .start, nofun⟩

theorem Reaches.trans (h : Reaches s s' nodes) (h' : Reaches s' s'' nodes') :
    Reaches s s'' (nodes ++ nodes') := by
  obtain ⟨tr, hrun, hall⟩ := h
  obtain ⟨tr', hrun', hall'⟩ := h'
  refine ⟨tr' ++ tr, hrun.append hrun', fun node hnode => ?_⟩
  rcases mem_append.mp hnode with hnode | hnode
  · obtain ⟨st, hst, hout⟩ := hall node hnode
    exact ⟨st, mem_append_right _ hst, hout⟩
  · obtain ⟨st, hst, hout⟩ := hall' node hnode
    exact ⟨st, mem_append_left _ hst, hout⟩

theorem Reaches.silent (hstep : step s e = .ok (s', o)) : Reaches s s' [] :=
  ⟨_, Run.start.next hstep, nofun⟩

theorem Reaches.received {node : MessagingNode} (hstep : step s e = .ok (s', .received node)) :
    Reaches s s' [node] := by
  refine ⟨_, Run.start.next hstep, fun other hother => ?_⟩
  rw [mem_singleton.mp hother]
  exact ⟨_, mem_cons_self, rfl⟩

theorem reaches_end_between (outer : List Call) (rest : List MessagingNode) :
    Reaches { s with calls := .between rest :: outer } { s with calls := outer } rest := by
  induction rest with
  | nil => exact .silent (e := .finish) rfl
  | cons node rest ih =>
    have hcall : Reaches { s with calls := .between (node :: rest) :: outer }
        { s with calls := .inside rest :: outer } [node] := .received (e := .deliver) rfl
    have hleave : Reaches { s with calls := .inside rest :: outer }
        { s with calls := .between rest :: outer } [] := .silent (e := .leave) rfl
    exact hcall.trans (hleave.trans ih)

theorem reaches_end_call (outer : List Call) (call : Call) :
    Reaches { s with calls := call :: outer } { s with calls := outer } call.rest := by
  cases call with
  | entered type =>
    have hlookup : Reaches { s with calls := .entered type :: outer }
        { s with calls := .between (s.table type) :: outer } [] := .silent (e := .lookup) rfl
    obtain ⟨tr, hrun, _⟩ := hlookup.trans (reaches_end_between outer (s.table type))
    exact ⟨tr, hrun, nofun⟩
  | between rest => exact reaches_end_between outer rest
  | inside rest =>
    have hleave : Reaches { s with calls := .inside rest :: outer }
        { s with calls := .between rest :: outer } [] := .silent (e := .leave) rfl
    exact hleave.trans (reaches_end_between outer rest)

theorem reaches_end_calls (calls : List Call) :
    Reaches { s with calls := calls } { s with calls := [] } (calls.flatMap Call.rest) := by
  induction calls with
  | nil => exact .refl
  | cons call outer ih => exact (reaches_end_call outer call).trans ih

theorem reaches_pending : Reaches s { s with calls := [] } s.pending :=
  reaches_end_calls s.calls

theorem reaches_dispatch (type : MessageType) (queue : List MessageType) :
    Reaches { s with calls := [], queue := type :: queue } { s with calls := [], queue := queue }
      (s.table type) := by
  have htake : Reaches { s with calls := [], queue := type :: queue }
      { s with calls := [.entered type], queue := queue } [] := .silent (e := .take) rfl
  have hlookup : Reaches { s with calls := [.entered type], queue := queue }
      { s with calls := [.between (s.table type)], queue := queue } [] :=
    .silent (e := .lookup) rfl
  exact htake.trans (hlookup.trans
    (reaches_end_between (s := { s with queue := queue }) [] (s.table type)))

theorem reaches_end_queue (queue : List MessageType) :
    ∃ nodes, Reaches { s with calls := [], queue := queue } { s with calls := [], queue := [] }
      nodes := by
  induction queue with
  | nil => exact ⟨[], .refl⟩
  | cons type queue ih =>
    obtain ⟨nodes, hrest⟩ := ih
    exact ⟨_, (reaches_dispatch type queue).trans hrest⟩

theorem reaches_receivers (type : MessageType) :
    ∃ s' nodes, Reaches s s' nodes ∧ ∀ node ∈ s.table type, node ∈ nodes := by
  obtain ⟨nodes, hqueue⟩ := reaches_end_queue (s := s) s.queue
  have hsend : Reaches { s with calls := [], queue := [] }
      { s with calls := [], queue := [type] } [] := .silent (e := .send type) rfl
  refine ⟨_, _, reaches_pending.trans (hqueue.trans (hsend.trans (reaches_dispatch type []))), ?_⟩
  intro node hnode
  exact mem_append_right _ (mem_append_right _ (mem_append_right _ hnode))

theorem reaches_registered (id : Nat) (types : List MessageType) :
    Reaches { s with update := .registering id types }
      { s with table := s.table.register (.internal id) types, update := .idle } [] := by
  induction types generalizing s with
  | nil => exact .silent (e := .subscribe) rfl
  | cons type types ih =>
    have hfirst : Reaches { s with update := .registering id (type :: types) }
        { s with table := s.table.subscribe (.internal id) type
                 update := .registering id types } [] := .silent (e := .subscribe) rfl
    exact hfirst.trans (ih (s := { s with table := s.table.subscribe (.internal id) type }))

theorem reaches_subscribing {node : MessagingNode} (h : node ∈ s.update.subscribing) :
    ∃ s' nodes, Reaches s s' nodes ∧ node ∈ nodes := by
  cases hupdate : s.update with
  | registering id types =>
    rw [hupdate, Update.subscribing] at h
    split_ifs at h with hany
    · obtain rfl := mem_singleton.mp h
      obtain ⟨type, htype, hvalid⟩ := any_eq_true.mp hany
      have hregister := reaches_registered (s := s) id types
      rw [← hupdate] at hregister
      obtain ⟨s', nodes, hreach, hall⟩ := reaches_receivers
        (s := { s with table := s.table.register (.internal id) types, update := .idle }) type
      refine ⟨s', _, hregister.trans hreach, mem_append_right _ (hall _ ?_)⟩
      exact MessagingTable.mem_register.mpr (.inr ⟨hvalid, htype, rfl⟩)
    · cases h
  | idle | shuttingDown _ | deleting _ _ =>
    rw [hupdate] at h
    cases h

end

/-! ## The last call -/

/-- After `unsubscribeAll` has returned, `receiveMessage` is never called on the node again,
exactly when no delivery in progress had it ahead and it was not being registered. -/
theorem received_after_unsubscribeAll_iff {tr : List (Step System Event Effect)}
    {s s' : System} {e : Event} {node : MessagingNode} (hrun : Run step initial tr s)
    (hstep : step s e = .ok (s', .unsubscribed node)) :
    (∀ later s'', Run step s' later s'' → ∀ st ∈ later, st.out ≠ .received node) ↔
      node ∉ s.pending ∧ node ∉ s.update.subscribing := by
  obtain ⟨hknown, hunlisted, hpending, hsubscribing⟩ :=
    unsubscribed_turn (sound_of_run hrun) (step_turn hstep)
  rw [← hpending, ← hsubscribing]
  constructor
  · intro hnever
    have hreaches : ∀ s'' nodes, Reaches s' s'' nodes → node ∉ nodes := by
      rintro s'' nodes ⟨later, hlater, hall⟩ hmem
      obtain ⟨st, hst, hout⟩ := hall node hmem
      exact hnever later s'' hlater st hst hout
    refine ⟨hreaches _ _ reaches_pending, fun hmem => ?_⟩
    obtain ⟨s'', nodes, hreach, hnode⟩ := reaches_subscribing hmem
    exact hreaches s'' nodes hreach hnode
  · rintro ⟨hpassed, hregistered⟩ later s'' hlater
    exact (Gone.run ⟨hknown, hunlisted, hpassed, hregistered⟩ hlater).2

def listener : Channel :=
  ⟨"listener", 1, [{ id := 0, name := "collector", internal := some ⟨some [.timer], true⟩ }]⟩

def timerTaken : List Event :=
  [.create [.timer], .subscribe, .subscribe, .send .timer, .take]

theorem received_after_unsubscribeAll_iff_before_lookup :
    ∃ tr s s', Run step initial tr s ∧
      step s .unsubscribeAll = .ok (s', .unsubscribed (.internal 0)) ∧
      s.calls = [.entered .timer] ∧
      ((∀ later s'', Run step s' later s'' → ∀ st ∈ later, st.out ≠ .received (.internal 0)) ↔
        .internal 0 ∉ s.pending ∧ .internal 0 ∉ s.update.subscribing) := by
  have hrun : replays step initial (timerTaken ++ [.shutdown listener]) = true := rfl
  generalize hs : replayState step initial (timerTaken ++ [.shutdown listener]) = s
  have hcalls : s.calls = [.entered .timer] := hs ▸ rfl
  have hupdate : s.update = .shuttingDown listener.modules := hs ▸ rfl
  have hstep : step s .unsubscribeAll =
      .ok ({ s with table := s.table.unsubscribeAll (.internal 0)
                    update := .deleting ⟨0, "collector", some ⟨some [.timer], true⟩⟩ [] },
        .unsubscribed (.internal 0)) := by
    simp only [step, hupdate]
    rfl
  have hreached := hs ▸ run_of_replays hrun
  exact ⟨_, _, _, hreached, hstep, hcalls, received_after_unsubscribeAll_iff hreached hstep⟩

/-- The copy of the receivers is made, the module is taken out of the table and deleted,
and only then called. -/
theorem deleted_module_receives :
    ∃ tr s, Run step initial tr s ∧
      tr.map Step.out = [.received (.internal 0), .deleted 0, .unsubscribed (.internal 0)] ++
        List.replicate 7 .silent := by
  have hrun : replays step initial
      (timerTaken ++ [.lookup, .shutdown listener, .unsubscribeAll, .delete, .deliver]) = true :=
    rfl
  exact ⟨_, _, run_of_replays hrun, rfl⟩

end WormsAttack.Distack.Delivery
