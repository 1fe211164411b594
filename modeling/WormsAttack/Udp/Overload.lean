/-
  The welcome socket is bound while there is room for threads.
-/
import WormsAttack.Udp.Transition

namespace WormsAttack.Udp

open Foundation Inet List Application

/-! ## The gate -/

def Application.keys (app : Application) : List Nat := app.threadMap.map Prod.fst

/-- The count is right, and the welcome socket is bound while it is below the maximum. -/
def Gate (app : Application) : Prop :=
  app.threadCount.toInt = app.keys.length ∧
    (app.mySocket.bound = true ↔ app.threadCount < app.maxThreadCount)

def Event.isTransmissionStart : Event → Bool
  | .transmissionStart .. => true
  | _ => false

/-- `transmissionStart` does not bring the count up to the maximum, and a request does not
bring it beyond `INT_MAX`. -/
def Room (app : Application) (e : Event) : Prop :=
  (e.isTransmissionStart = true → (app.keys.length + 1 : Int) < app.maxThreadCount.toInt) ∧
    (e.isFirst = true → app.keys.length < 2147483647)

instance decidableRoom (app : Application) (e : Event) : Decidable (Room app e) :=
  inferInstanceAs (Decidable (_ ∧ _))

structure Same (app app' : Application) : Prop where
  isServer : app'.isServer = app.isServer
  max : app'.maxThreadCount = app.maxThreadCount

theorem Same.refl (app : Application) : Same app app := ⟨rfl, rfl⟩

inductive Turns (app : Application) (sockId : Nat) (e : Event) (app' : Application) : Prop
  | kept (hstart : e.isTransmissionStart = false) (hfirst : e.isFirst = false)
      (hkeys : app'.keys = app.keys) (hcount : app'.threadCount = app.threadCount)
      (hbound : app'.mySocket.bound = app.mySocket.bound)
  | removed (id : Nat) (hstart : e.isTransmissionStart = false) (hfirst : e.isFirst = false)
      (hmem : id ∈ app.keys) (hkeys : app'.keys = app.keys.filter (· ≠ id))
      (hcount : app'.threadCount = app.threadCount - 1)
      (hbound : app'.mySocket.bound =
        if app.threadCount - 1 = app.maxThreadCount - 1 then true else app.mySocket.bound)
  | client (hstart : e.isTransmissionStart = true) (hfirst : e.isFirst = false)
      (hclient : app.isServer = false) (hkeys : app'.keys = app.keys ++ [sockId])
      (hcount : app'.threadCount = app.threadCount + 1)
      (hbound : app'.mySocket.bound = app.mySocket.bound)
  | server (hstart : e.isTransmissionStart = false) (hfirst : e.isFirst = true)
      (hkeys : app'.keys = app.keys ++ [sockId])
      (hcount : app'.threadCount = app.threadCount + 1)
      (hbound : app'.mySocket.bound =
        if app.threadCount + 1 = app.maxThreadCount then false else app.mySocket.bound)

/-! ## One event -/

theorem keys_store (app : Application) (sockId : Nat) (thread : Thread) :
    (app.store sockId thread).keys = app.keys := by
  unfold Application.keys store
  rw [map_map]
  refine map_congr_left fun entry _ => ?_
  simp only [Function.comp_apply]
  split_ifs with heq
  · exact heq.symm
  · rfl

variable {app : Application} {sockId : Nat} {port : Int} {out : List Action} {app' : Application}
  {id : Nat} {e : Event}

theorem mem_keys_of_find {thread : Thread} (h : app.find sockId = some thread) :
    sockId ∈ app.keys := by
  obtain ⟨before, after, heq, -⟩ := lookup_eq_some_iff.mp h
  unfold Application.keys
  rw [heq]
  simp

theorem not_mem_keys_of_find (h : app.find sockId = none) : sockId ∉ app.keys := by
  intro hmem
  obtain ⟨entry, hentry, rfl⟩ := mem_map.mp hmem
  have hne := lookup_eq_none_iff.mp h entry hentry
  simp at hne

theorem bound_bind {sock sock' : UDPSocket} (h : sock.bind port = .ok (sock', out)) :
    sock'.bound = true := by
  unfold UDPSocket.bind at h
  split_ifs at h
  cases h
  rfl

theorem bound_close (sock : UDPSocket) : sock.close.1.bound = false := by
  unfold UDPSocket.close
  split_ifs with hbound
  · rfl
  · exact Bool.eq_false_iff.mpr hbound

theorem keys_filter (threadMap : List (Nat × Thread)) (sockId : Nat) :
    (threadMap.filter (·.1 ≠ sockId)).map Prod.fst =
      (threadMap.map Prod.fst).filter (· ≠ sockId) := by
  rw [filter_map]
  rfl

theorem removeThread_turns (hstart : e.isTransmissionStart = false) (hfirst : e.isFirst = false)
    (hok : app.removeThread id = .ok (app', out)) : Same app app' ∧ Turns app sockId e app' := by
  unfold removeThread at hok
  split at hok
  · cases hok
  rename_i thread hfind
  have hmem := mem_keys_of_find hfind
  dsimp only at hok
  split_ifs at hok with hbelow
  · obtain ⟨⟨mySocket, bound⟩, hbind, hok⟩ := bind_eq_ok.mp hok
    cases hok
    refine ⟨⟨rfl, rfl⟩, .removed id hstart hfirst hmem (keys_filter _ _) rfl ?_⟩
    rw [if_pos hbelow]
    exact bound_bind hbind
  · cases hok
    refine ⟨⟨rfl, rfl⟩, .removed id hstart hfirst hmem (keys_filter _ _) rfl ?_⟩
    rw [if_neg hbelow]

theorem removeThreadStat_turns {stat : TransmissionStatistics}
    (hstart : e.isTransmissionStart = false) (hfirst : e.isFirst = false)
    (hok : app.removeThreadStat id stat = .ok (app', out)) :
    Same app app' ∧ Turns app sockId e app' := by
  obtain ⟨⟨app₁, out₁⟩, hremove, hok⟩ := bind_eq_ok.mp hok
  cases hok
  exact removeThread_turns hstart hfirst hremove

theorem store_turns (app : Application) {thread : Thread} (hstart : e.isTransmissionStart = false)
    (hfirst : e.isFirst = false) :
    Same app (app.store id thread) ∧ Turns app sockId e (app.store id thread) :=
  ⟨⟨rfl, rfl⟩, .kept hstart hfirst (keys_store app id thread) rfl rfl⟩

theorem transmissionStart_turns {ownPort : Int} {address : IPAddress}
    {requestsPerSession requestLength : Int32} (hfresh : app.find sockId = none)
    (hok : app.transmissionStart sockId ownPort address port requestsPerSession requestLength =
      .ok (app', out)) :
    Same app app' ∧ Turns app sockId
      (.transmissionStart ownPort address port requestsPerSession requestLength) app' := by
  obtain ⟨hclient, hok⟩ := unless_eq_ok.mp hok
  simp only [bind_eq_ok, hfresh] at hok
  obtain ⟨⟨socket, bound⟩, -, ⟨socket', connected⟩, -, hok⟩ := hok
  cases hok
  refine ⟨⟨rfl, rfl⟩, .client rfl rfl (Bool.eq_false_iff.mpr hclient) ?_ rfl rfl⟩
  exact map_append

theorem startServerThread_turns {msg : GenericApplicationMessage} {ctrl : UDPControlInfo}
    (hstart : e.isTransmissionStart = false) (hfirst : e.isFirst = true)
    (hok : app.startServerThread sockId msg ctrl = .ok (app', out)) :
    Same app app' ∧ Turns app sockId e app' := by
  simp only [startServerThread, bind_eq_ok] at hok
  obtain ⟨⟨socket, bound⟩, -, ⟨socket', connected⟩, -, hok⟩ := hok
  split at hok
  · cases hok
    refine ⟨⟨rfl, rfl⟩, .server hstart hfirst map_append rfl ?_⟩
    split
    · exact bound_close app.mySocket
    · rfl
  · cases hok

theorem handle_turns {app app' : Application} {sockId : Nat} {e : Event} {out : List Action}
    (hfresh : app.find sockId = none) (hok : app.handle sockId e = .ok (app', out)) :
    Same app app' ∧ Turns app sockId e app' := by
  cases handle_cases hok with
  | transmissionStart hok => exact transmissionStart_turns hfresh hok
  | request | wait | reply => exact store_turns app rfl rfl
  | finish _ _ hremove | clientError hremove => exact removeThreadStat_turns rfl rfl hremove
  | served _ _ hremove | serverError hremove => exact removeThread_turns rfl rfl hremove
  | started hfirst hok => exact startServerThread_turns rfl (decide_eq_true hfirst) hok
  | lastMessage hnot => exact store_turns app rfl (decide_eq_false hnot)
  | ownError | invalid => exact ⟨.refl app, .kept rfl rfl rfl rfl rfl⟩
  | discarded hnot => exact ⟨.refl app, .kept rfl (decide_eq_false hnot) rfl rfl rfl⟩

/-! ## Counting -/

structure Limits (app : Application) : Prop where
  nodup : app.keys.Nodup
  pos : 0 < app.maxThreadCount.toInt
  /-- Clients have no limit. -/
  client : app.isServer = false → app.maxThreadCount.toInt = 2147483647

theorem length_filter_ne {keys : List Nat} (hnodup : keys.Nodup) (hmem : id ∈ keys) :
    (keys.filter (· ≠ id)).length + 1 = keys.length := by
  have herase : keys.filter (· ≠ id) = keys.erase id := by
    rw [hnodup.erase_eq_filter]
    exact filter_congr fun x _ => by by_cases hx : x = id <;> simp [hx]
  rw [herase, length_erase_of_mem hmem]
  have hpos := length_pos_of_mem hmem
  omega

theorem Turns.limits (h : Limits app) (hfresh : app.find sockId = none) (hsame : Same app app')
    (hturns : Turns app sockId e app') : Limits app' := by
  have hnodup : app'.keys.Nodup := by
    have hnew : (app.keys ++ [sockId]).Nodup := by
      rw [nodup_append]
      refine ⟨h.nodup, by simp, fun a ha b hb => ?_⟩
      rw [mem_singleton.mp hb]
      exact fun heq => not_mem_keys_of_find hfresh (heq ▸ ha)
    cases hturns with
    | kept _ _ hkeys => rw [hkeys]; exact h.nodup
    | removed id _ _ _ hkeys => rw [hkeys]; exact h.nodup.filter _
    | client _ _ _ hkeys | server _ _ hkeys => rw [hkeys]; exact hnew
  refine ⟨hnodup, ?_, ?_⟩
  · rw [hsame.max]
    exact h.pos
  · rw [hsame.max, hsame.isServer]
    exact h.client

section Steps

variable {app app' : Application} {sockId : Nat}

theorem gate_removed (h : Limits app) (hgate : Gate app) (hsame : Same app app') {id : Nat}
    (hmem : id ∈ app.keys) (hkeys : app'.keys = app.keys.filter (· ≠ id))
    (hcount : app'.threadCount = app.threadCount - 1) (hbound' : app'.mySocket.bound =
      if app.threadCount - 1 = app.maxThreadCount - 1 then true else app.mySocket.bound) :
    Gate app' := by
  obtain ⟨hcounted, hbound⟩ := hgate
  rw [Int32.lt_iff_toInt_lt] at hbound
  have hlength := length_filter_ne h.nodup hmem
  have hless : (app.threadCount - 1).toInt = app.threadCount.toInt - 1 := toInt_sub_one (by omega)
  have hbelow : app.threadCount - 1 = app.maxThreadCount - 1 ↔
      app.threadCount.toInt = app.maxThreadCount.toInt := by
    rw [← Int32.toInt_inj, hless, toInt_sub_one h.pos]
    omega
  unfold Gate
  rw [hsame.max, Int32.lt_iff_toInt_lt]
  refine ⟨?_, ?_⟩
  · rw [hkeys, hcount, hless]
    omega
  · rw [hbound', hcount, hless]
    split_ifs with heq
    · have := hbelow.mp heq
      simp only [true_iff]
      omega
    · have := mt hbelow.mpr heq
      rw [hbound]
      omega

section Added

variable (hgate : Gate app) (hkeys : app'.keys = app.keys ++ [sockId])
  (hcount : app'.threadCount = app.threadCount + 1)

include hgate hkeys hcount

theorem not_gate_of_overflow (hfull : 2147483647 ≤ app.threadCount.toInt) : ¬ Gate app' := by
  intro hgate'
  have hcounted := hgate.1
  have hcounted' := hgate'.1
  have hneg := (app.threadCount + 1).toInt_lt
  rw [hkeys, hcount, length_append, length_singleton] at hcounted'
  omega

theorem gate_client (h : Limits app) (hsame : Same app app') (hclient : app.isServer = false)
    (hbound' : app'.mySocket.bound = app.mySocket.bound) :
    Gate app' ↔ (app.keys.length + 1 : Int) < app.maxThreadCount.toInt := by
  have hnolimit := h.client hclient
  have hcounted := hgate.1
  rcases Int.lt_or_le app.threadCount.toInt 2147483647 with hlt | hge
  · have hbound := hgate.2
    rw [Int32.lt_iff_toInt_lt] at hbound
    unfold Gate
    rw [hsame.max, Int32.lt_iff_toInt_lt, hkeys, hcount, hbound', toInt_add_one hlt,
      length_append, length_singleton]
    constructor
    · rintro ⟨-, hiff⟩
      have := hbound.mpr (by omega)
      have := hiff.mp this
      omega
    · intro hroom
      refine ⟨by omega, iff_of_true (hbound.mpr ?_) ?_⟩
      · omega
      · omega
  · exact iff_of_false (not_gate_of_overflow hgate hkeys hcount hge) (by omega)

theorem gate_server (hsame : Same app app') (hbound' : app'.mySocket.bound =
      if app.threadCount + 1 = app.maxThreadCount then false else app.mySocket.bound) :
    Gate app' ↔ app.keys.length < 2147483647 := by
  have hcounted := hgate.1
  rcases Int.lt_or_le app.threadCount.toInt 2147483647 with hlt | hge
  · have hbound := hgate.2
    rw [Int32.lt_iff_toInt_lt] at hbound
    have hmore := toInt_add_one hlt
    have hfull : app.threadCount + 1 = app.maxThreadCount ↔
        app.threadCount.toInt + 1 = app.maxThreadCount.toInt := by
      rw [← Int32.toInt_inj, hmore]
    unfold Gate
    rw [hsame.max, Int32.lt_iff_toInt_lt, hkeys, hcount, hbound', hmore, length_append,
      length_singleton]
    split
    · rename_i heq
      have := hfull.mp heq
      simp only [Bool.false_eq_true, false_iff]
      omega
    · rename_i hne
      have := mt hfull.mpr hne
      rw [hbound]
      omega
  · exact iff_of_false (not_gate_of_overflow hgate hkeys hcount hge) (by omega)

end Added

theorem gate_step_iff {e : Event} (h : Limits app) (hgate : Gate app) (hsame : Same app app')
    (hturns : Turns app sockId e app') : Gate app' ↔ Room app e := by
  unfold Room
  cases hturns with
  | kept hstart hfirst hkeys hcount hbound' =>
    rw [hstart, hfirst]
    refine iff_of_true ?_ ⟨Bool.noConfusion, Bool.noConfusion⟩
    unfold Gate
    rw [hsame.max, hkeys, hcount, hbound']
    exact hgate
  | removed id hstart hfirst hmem hkeys hcount hbound' =>
    rw [hstart, hfirst]
    exact iff_of_true (gate_removed h hgate hsame hmem hkeys hcount hbound')
      ⟨Bool.noConfusion, Bool.noConfusion⟩
  | client hstart hfirst hclient hkeys hcount hbound' =>
    rw [hstart, hfirst, gate_client hgate hkeys hcount h hsame hclient hbound']
    simp only [true_implies, Bool.false_eq_true, false_implies, and_true]
  | server hstart hfirst hkeys hcount hbound' =>
    rw [hstart, hfirst, gate_server hgate hkeys hcount hsame hbound']
    simp only [true_implies, Bool.false_eq_true, false_implies, true_and]

end Steps

/-! ## Binding and closing -/

def alreadyBound : Stop := .error "UDPSocket::bind(): socket already bound"

/-- The event makes `handleMessage` call `mySocket->close()`. -/
def Application.closes (app : Application) (e : Event) : Prop :=
  e.isFirst = true ∧ app.threadCount + 1 = app.maxThreadCount

theorem append_ne {s t u : String} (n : Nat) (hlength : n ≤ s.toList.length)
    (h : s.toList.take n ≠ u.toList.take n) : s ++ t ≠ u := by
  rintro rfl
  rw [String.toList_append, take_append_of_le_length hlength] at h
  exact h rfl

theorem bind_ne {sock : UDPSocket} (h : sock.bound = false) (port : Int) :
    sock.bind port ≠ .error alreadyBound := by
  unfold UDPSocket.bind alreadyBound
  rw [h]
  simp only [Bool.false_eq_true, if_false]
  split
  · rw [Ne, Except.error.injEq, Stop.error.injEq]
    exact append_ne 20 (by decide) (by decide)
  · exact ok_ne_error

theorem connect_ne (sock : UDPSocket) (addr : IPAddress) (port : Int) :
    sock.connect addr port ≠ .error alreadyBound := by
  unfold UDPSocket.connect alreadyBound
  split
  · decide
  · split
    · decide
    · split
      · rw [Ne, Except.error.injEq, Stop.error.injEq]
        exact append_ne 20 (by decide) (by decide)
      · exact ok_ne_error

theorem mapM_send_ne (sock : UDPSocket) (messages : List GenericApplicationMessage) :
    messages.mapM sock.send ≠ .error alreadyBound := by
  induction messages with
  | nil => exact ok_ne_error
  | cons m messages ih =>
    rw [mapM_cons]
    refine bind_ne_error ?_ fun a _ => bind_ne_error ih fun _ _ => ok_ne_error
    unfold UDPSocket.send alreadyBound
    split
    · decide
    · exact ok_ne_error

theorem removeThread_ne (h : Limits app) (hgate : Gate app) (id : Nat) :
    app.removeThread id ≠ .error alreadyBound := by
  unfold removeThread
  split
  · decide
  · rename_i thread hfind
    dsimp only
    split_ifs with hbelow
    · have hpos := length_pos_of_mem (mem_keys_of_find hfind)
      obtain ⟨hcounted, hbound⟩ := hgate
      rw [← Int32.toInt_inj, toInt_sub_one (by omega), toInt_sub_one h.pos] at hbelow
      have hclosed : app.mySocket.bound = false := by
        rw [Bool.eq_false_iff, Ne, hbound, Int32.lt_iff_toInt_lt]
        omega
      exact bind_ne_error (bind_ne hclosed app.port) fun _ _ => ok_ne_error
    · exact ok_ne_error

theorem removeThreadStat_ne (h : Limits app) (hgate : Gate app) (id : Nat)
    (stat : TransmissionStatistics) : app.removeThreadStat id stat ≠ .error alreadyBound :=
  bind_ne_error (removeThread_ne h hgate id) fun _ _ => ok_ne_error

theorem transmissionStart_ne (app : Application) (sockId : Nat) (ownPort : Int)
    (address : IPAddress) (port : Int) (requestsPerSession requestLength : Int32) :
    app.transmissionStart sockId ownPort address port requestsPerSession requestLength ≠
      .error alreadyBound := by
  unfold transmissionStart
  split
  · decide
  · exact bind_ne_error (bind_ne rfl ownPort) fun _ _ =>
      bind_ne_error (connect_ne _ address port) fun _ _ => ok_ne_error

theorem startServerThread_ne (app : Application) (sockId : Nat) (msg : GenericApplicationMessage)
    (ctrl : UDPControlInfo) : app.startServerThread sockId msg ctrl ≠ .error alreadyBound := by
  refine bind_ne_error (bind_ne rfl ctrl.destPort) fun _ _ =>
    bind_ne_error (connect_ne _ ctrl.srcAddr ctrl.srcPort) fun _ _ => ?_
  dsimp only
  split
  · exact ok_ne_error
  · decide

theorem timerExpired_ne (h : Limits app) (hgate : Gate app) (id : Nat)
    (replyLength replyPerRequest : Int32) :
    app.timerExpired id replyLength replyPerRequest ≠ .error alreadyBound := by
  unfold timerExpired
  split
  · decide
  · unfold clientTimerExpired
    split
    · exact bind_ne_error (mapM_send_ne _ _) fun _ _ => ok_ne_error
    · exact ok_ne_error
    · exact bind_ne_error (removeThreadStat_ne h hgate _ _) fun _ _ => ok_ne_error
  · unfold serverTimerExpired
    split
    · exact bind_ne_error (mapM_send_ne _ _) fun _ _ => ok_ne_error
    · exact bind_ne_error (mapM_send_ne _ _) fun _ _ => ok_ne_error
    · exact bind_ne_error (removeThread_ne h hgate _) fun _ _ => ok_ne_error

theorem handle_ne (h : Limits app) (hgate : Gate app) (sockId : Nat) (e : Event) :
    app.handle sockId e ≠ .error alreadyBound := by
  cases e with
  | transmissionStart => exact transmissionStart_ne app sockId _ _ _ _ _
  | timer id replyLength replyPerRequest => exact timerExpired_ne h hgate id _ _
  | udpError socket =>
    simp only [Application.handle, udpError]
    split
    · exact ok_ne_error
    split
    · decide
    · exact removeThread_ne h hgate socket
    · exact removeThreadStat_ne h hgate socket _
  | invalid => exact ok_ne_error
  | datagram msg ctrl =>
    simp only [Application.handle, receive]
    split
    · split
      · decide
      · exact startServerThread_ne app sockId msg _
    · split
      · split
        · decide
        · unfold lastMessage
          split
          · decide
          · decide
          · exact ok_ne_error
      · exact ok_ne_error

theorem bound_of_closes (h : Limits app) (hgate : Gate app) (hcloses : app.closes e) :
    app.mySocket.bound = true := by
  obtain ⟨-, hfull⟩ := hcloses
  obtain ⟨-, hbound⟩ := hgate
  have hlt := app.threadCount.toInt_lt
  rw [hbound, Int32.lt_iff_toInt_lt]
  rcases Int.lt_or_le app.threadCount.toInt 2147483647 with hless | hge
  · rw [← hfull, toInt_add_one hless]
    omega
  · have hcount : app.threadCount = 2147483647 := Int32.toInt_inj.mp (by
      change _ = (2147483647 : Int)
      omega)
    have hpos := h.pos
    rw [← hfull, hcount] at hpos
    exact absurd hpos (by decide)

/-! ## Runs -/

def step (app : Application) (e : Nat × Event) : Except Stop (Application × List Action) :=
  app.handle e.1 e.2

theorem gate_initial {isServer : Bool} {noThreads : Int32} (hthreads : 0 ≤ noThreads)
    (h : initial sockId isServer port noThreads = .ok (app, out)) :
    Limits app ∧ Gate app := by
  obtain ⟨⟨mySocket, bound⟩, hbind, h⟩ := bind_eq_ok.mp h
  cases h
  rw [Int32.le_iff_toInt_le] at hthreads
  have hmax : (0 : Int) < (if (if isServer then noThreads else 0) = 0 then 2147483647
      else if isServer then noThreads else 0 : Int32).toInt := by
    cases isServer with
    | false =>
      change (0 : Int) < (2147483647 : Int32).toInt
      decide
    | true =>
      change 0 ≤ noThreads.toInt at hthreads
      change 0 < (if noThreads = 0 then (2147483647 : Int32) else noThreads).toInt
      split_ifs with hne
      · decide
      · have hzero : noThreads.toInt ≠ 0 := fun heq => hne (Int32.toInt_inj.mp heq)
        omega
  refine ⟨⟨nodup_nil, hmax, ?_⟩, rfl, ?_⟩
  · intro hclient
    cases hclient
    rfl
  · exact iff_of_true (bound_bind hbind) (Int32.lt_iff_toInt_lt.mpr hmax)

theorem limits_run {app : Application} (h : Limits app)
    {tr : List (Step Application (Nat × Event) (List Action))} {s : Application}
    (hrun : Run step app tr s) (hfresh : ∀ st ∈ tr, st.pre.find st.event.1 = none) :
    Limits s := by
  induction hrun with
  | start => exact h
  | next _ hstep ih =>
    obtain ⟨hnew, hearlier⟩ := forall_mem_cons.mp hfresh
    obtain ⟨hsame, hturns⟩ := handle_turns hnew hstep
    exact hturns.limits (ih hearlier) hnew hsame

/-- The gate is right all the time just when there was room on every event; then the welcome socket
is never bound or closed twice. -/
theorem overload_gate {sockId : Nat} {isServer : Bool} {port : Int} {noThreads : Int32}
    {app : Application} {out : List Action} (hthreads : 0 ≤ noThreads)
    (hinitial : Application.initial sockId isServer port noThreads = .ok (app, out))
    {tr : List (Step Application (Nat × Event) (List Action))} {s : Application}
    (h : Run step app tr s) (hfresh : ∀ st ∈ tr, st.pre.find st.event.1 = none) :
    ((Gate s ∧ ∀ st ∈ tr, Gate st.pre) ↔ ∀ st ∈ tr, Room st.pre st.event.2) ∧
    ((∀ st ∈ tr, Room st.pre st.event.2) → ∀ newId e,
      s.handle newId e ≠ .error alreadyBound ∧ (s.closes e → s.mySocket.bound = true)) := by
  obtain ⟨hlimits, hgate⟩ := gate_initial hthreads hinitial
  have hiff : (Gate s ∧ ∀ st ∈ tr, Gate st.pre) ↔ ∀ st ∈ tr, Room st.pre st.event.2 := by
    induction h with
    | start => simp [hgate]
    | next hrun hstep ih =>
      obtain ⟨hnew, hearlier⟩ := forall_mem_cons.mp hfresh
      obtain ⟨hsame, hturns⟩ := handle_turns hnew hstep
      have hpre := limits_run hlimits hrun hearlier
      rw [forall_mem_cons, forall_mem_cons, ← ih hearlier]
      constructor
      · rintro ⟨hlast, hgates⟩
        exact ⟨(gate_step_iff hpre hgates.1 hsame hturns).mp hlast, hgates⟩
      · rintro ⟨hroom, hgates⟩
        exact ⟨(gate_step_iff hpre hgates.1 hsame hturns).mpr hroom, hgates⟩
  refine ⟨hiff, fun hroom newId e => ?_⟩
  have hlast := limits_run hlimits h hfresh
  have hgate' := (hiff.mpr hroom).1
  exact ⟨handle_ne hlast hgate' newId e, bound_of_closes hlast hgate'⟩

def smallServer : Application :=
  { isServer := true
    port := 53
    mySocket := { (UDPSocket.new 0) with bound := true, localPort := 53 }
    maxThreadCount := 2
    threadCount := 0
    threadMap := [] }

def requestForOneReply : GenericApplicationMessage :=
  { name := .udpRequestData, byteLength := 100, replyLength := 100, replyPerRequest := 1
    packetNumber := 1 }

def threeRequests : List (Nat × Event) :=
  [(1, .datagram requestForOneReply (some ⟨0, ⟨8⟩, 1024, 53⟩)),
    (2, .datagram requestForOneReply (some ⟨0, ⟨8⟩, 1025, 53⟩)),
    (3, .datagram requestForOneReply (some ⟨0, ⟨8⟩, 1026, 53⟩)),
    (4, .udpError 1),
    (5, .timer 3 0 0),
    (6, .timer 3 0 0)]

theorem overload_gate_threeRequests :
    (replayState step smallServer threeRequests).threadCount = 1 ∧
      (replayState step smallServer threeRequests).mySocket.bound = true ∧
      Gate (replayState step smallServer threeRequests) :=
  have hinitial : initial 0 true 53 2 = .ok (smallServer, [.bind 0 53]) := rfl
  ⟨by decide +kernel, by decide +kernel,
    ((overload_gate (by decide) hinitial (run_of_replays (by decide +kernel))
      (by decide +kernel)).1.mpr (by decide +kernel)).1⟩

def openedClient (n : Nat) : Application :=
  { isServer := false
    port := 53
    mySocket := { (UDPSocket.new 0) with bound := true, localPort := 53 }
    maxThreadCount := 2147483647
    threadCount := Int32.ofNat n
    threadMap := (List.range n).map fun i =>
      (i + 1, .client (.new ⟨i + 1, true, 1024, ⟨9⟩, 53⟩ 1 100)) }

def openNext : Event := .transmissionStart 1024 ⟨9⟩ 53 1 100

theorem find_openedClient (n : Nat) : (openedClient n).find (n + 1) = none := by
  refine lookup_eq_none_iff.mpr fun entry hentry => ?_
  obtain ⟨i, hi, rfl⟩ := mem_map.mp hentry
  have hlt := mem_range.mp hi
  simp only [bne_iff_ne]
  omega

theorem step_openedClient (n : Nat) :
    step (openedClient n) (n + 1, openNext) =
      .ok (openedClient (n + 1), [.bind (n + 1) 1024, .connect (n + 1) ⟨9⟩ 53]) := by
  have hcount : Int32.ofNat n + 1 = Int32.ofNat (n + 1) := (Int32.ofNat_add n 1).symm
  have hmap : (openedClient (n + 1)).threadMap = (openedClient n).threadMap ++
      [(n + 1, .client (.new ⟨n + 1, true, 1024, ⟨9⟩, 53⟩ 1 100))] := by
    simp only [openedClient, range_succ, map_append, map_singleton]
  change (openedClient n).transmissionStart (n + 1) 1024 ⟨9⟩ 53 1 100 = _
  unfold transmissionStart
  rw [find_openedClient]
  change Except.ok ({ openedClient n with
    threadCount := Int32.ofNat n + 1
    threadMap := (openedClient n).threadMap ++
      [(n + 1, Thread.client (.new ⟨n + 1, true, 1024, ⟨9⟩, 53⟩ 1 100))] }, _) = _
  rw [hcount, ← hmap]
  rfl

theorem run_openedClient (n : Nat) :
    ∃ tr : List (Step Application (Nat × Event) (List Action)),
      Run step (openedClient 0) tr (openedClient n) ∧
        ∀ st ∈ tr, st.pre.find st.event.1 = none := by
  induction n with
  | zero => exact ⟨[], .start, fun st hst => absurd hst not_mem_nil⟩
  | succ n ih =>
    obtain ⟨tr, hrun, hfresh⟩ := ih
    refine ⟨_, hrun.next (step_openedClient n), ?_⟩
    intro st hst
    rcases mem_cons.mp hst with rfl | hst
    · exact find_openedClient n
    · exact hfresh st hst

theorem remove_openedClient {n : Nat} (hmax : Int32.ofNat (n + 1) = 2147483647) :
    step (openedClient (n + 1)) (0, .udpError 1) = .error alreadyBound := by
  have hfind : (openedClient (n + 1)).find 1 =
      some (.client (.new ⟨1, true, 1024, ⟨9⟩, 53⟩ 1 100)) := by
    unfold find openedClient
    rw [range_succ_eq_map]
    rfl
  have hbelow : (openedClient (n + 1)).threadCount - 1 =
      (openedClient (n + 1)).maxThreadCount - 1 :=
    congrArg (· - 1) hmax
  have hremove : (openedClient (n + 1)).removeThread 1 = .error alreadyBound := by
    unfold removeThread
    rw [hfind]
    rw [if_pos hbelow]
    rfl
  change (openedClient (n + 1)).udpError 1 = _
  unfold udpError
  have hother : ¬ 1 = (openedClient (n + 1)).mySocket.sockId := Nat.one_ne_zero
  rw [if_neg hother, hfind]
  unfold removeThreadStat
  rw [hremove]
  rfl

theorem maximum_openedClient {n : Nat} (hmax : Int32.ofNat n = 2147483647) :
    (openedClient n).mySocket.bound = true ∧
      ¬ (openedClient n).threadCount < (openedClient n).maxThreadCount := by
  refine ⟨rfl, ?_⟩
  change ¬ Int32.ofNat n < 2147483647
  rw [hmax]
  decide

/-- A client opens `INT_MAX` threads.  Its welcome socket is still bound, and when one of the
threads ends it is bound again. -/
theorem client_bound_at_maximum :
    Application.initial 0 false 53 0 = .ok (openedClient 0, [.bind 0 53]) ∧
    (∃ tr : List (Step Application (Nat × Event) (List Action)),
      Run step (openedClient 0) tr (openedClient 2147483647) ∧
        ∀ st ∈ tr, st.pre.find st.event.1 = none) ∧
    ((openedClient 2147483647).mySocket.bound = true ∧
      ¬ (openedClient 2147483647).threadCount < (openedClient 2147483647).maxThreadCount) ∧
    step (openedClient 2147483647) (0, .udpError 1) = .error alreadyBound :=
  ⟨rfl, run_openedClient 2147483647, maximum_openedClient rfl, remove_openedClient rfl⟩

end WormsAttack.Udp
