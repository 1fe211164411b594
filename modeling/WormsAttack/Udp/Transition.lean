/-
  What an application does on one event.

  A request has one fragment with the number 1, and no reply has it: a server thread starts to
  count at 1 and counts on before it sends.
-/
import WormsAttack.Foundation.Machine
import WormsAttack.Foundation.Run
import WormsAttack.Udp.Handlers

namespace WormsAttack.Udp

open Foundation Inet List Application

/-! ## Fragments of a request -/

theorem packets_pos (length : Int32) : 0 < packets length := by
  unfold packets payloads udpMaxPayload
  split <;> omega

theorem packets_lt (length : Int32) : packets length < 2147483648 := by
  have hlt := length.toInt_lt
  unfold packets payloads udpMaxPayload
  split <;> omega

variable {n : Nat} {t : ServerThread} {out : List Action} {port : Int} {sock : UDPSocket}
  {app : Application} {thread : Thread} {sockId : Nat} {app' : Application}

theorem ofNat_succ_eq_one (h : n ≤ 2147483648) : Int32.ofNat (n + 1) = 1 ↔ n = 0 := by
  rw [← Int32.toInt_inj, Int32.toInt_ofNat']
  change Int.bmod _ 4294967296 = 1 ↔ _
  rw [Int.bmod_def]
  split <;> omega

def GenericApplicationMessage.isFirst (m : GenericApplicationMessage) : Bool := m.packetNumber = 1

theorem countP_requestFragments (request : GenericApplicationMessage) (hpos : 0 < n)
    (hlt : n < 2147483648) : (requestFragments request n).countP (·.isFirst) = 1 := by
  obtain ⟨i, rfl⟩ := Nat.exists_eq_succ_of_ne_zero (Nat.pos_iff_ne_zero.mp hpos)
  clear hpos
  induction i with
  | zero => simp [requestFragments, GenericApplicationMessage.isFirst]
  | succ i ih =>
    have hnot : ¬ Int32.ofNat (i + 1 + 1) = 1 := by
      rw [ofNat_succ_eq_one (by omega)]
      omega
    rw [requestFragments,
      countP_cons_of_neg (by simpa [GenericApplicationMessage.isFirst] using hnot)]
    exact ih (by omega)

variable {m : GenericApplicationMessage}

theorem name_requestFragments {request : GenericApplicationMessage}
    (h : m ∈ requestFragments request n) : m.name = request.name := by
  induction n with
  | zero => cases h
  | succ n ih =>
    rcases mem_cons.mp h with rfl | h
    · rfl
    · exact ih h

/-! ## Threads -/

/-- The server thread has sent `k` replies, and will not send so many that the number comes
around. -/
def ServerThread.Counts (t : ServerThread) (k : Nat) : Prop :=
  t.noPacketSend = Int32.ofNat (k + 1) ∧
    (k = 0 ∨ 0 < t.noReplysToSend.toInt ∧ k + t.noReplysToSend.toInt ≤ 2147483648)

def Thread.Valid : Thread → Prop
  | .client t => ∃ length, t.packetsPerRequest = packets length
  | .server t => t.threadState = .disconnected ∨ ∃ k, t.Counts k

theorem valid_sendReply {k : Nat} (h : t.Counts k) : (Thread.server t.sendReply.1).Valid := by
  obtain ⟨hnumber, hreplies⟩ := h
  by_cases hdone : t.noReplysToSend - 1 ≤ 0
  · exact .inl (if_pos hdone)
  have hpos : 0 < (t.noReplysToSend - 1).toInt := by
    rw [Int32.le_iff_toInt_le] at hdone
    exact Int.not_le.mp hdone
  refine .inr ⟨k + 1, ?_, .inr ⟨hpos, ?_⟩⟩
  · change t.noPacketSend + 1 = _
    rw [hnumber]
    exact (Int32.ofNat_add (k + 1) 1).symm
  · change (k + 1 : Nat) + (t.noReplysToSend - 1).toInt ≤ _
    rcases hreplies with rfl | ⟨hleft, hsum⟩
    · have hlt := (t.noReplysToSend - 1).toInt_lt
      omega
    · rw [toInt_sub_one hleft]
      omega

theorem number_sendReply {k : Nat} (h : t.Counts k)
    (hm : m ∈ t.sendReply.2) : m.name = .udpReplyData ∧ m.packetNumber ≠ 1 := by
  obtain ⟨hnumber, hreplies⟩ := h
  obtain rfl := eq_of_mem_replicate hm
  refine ⟨rfl, ?_⟩
  have hnext : Int32.ofNat (k + 1) + 1 = Int32.ofNat (k + 1 + 1) := (Int32.ofNat_add (k + 1) 1).symm
  rw [hnumber, hnext, Ne, ofNat_succ_eq_one]
  · omega
  · omega

/-! ## Actions -/

def Action.message : Action → Option GenericApplicationMessage
  | .send _ _ _ message => some message
  | _ => none

def Action.startsThread : Action → Bool
  | .newServerThread _ => true
  | _ => false

def sentIn (out : List Action) : List GenericApplicationMessage := out.filterMap Action.message

def startedIn (out : List Action) : Nat := out.countP Action.startsThread

theorem sentIn_append (out out' : List Action) : sentIn (out ++ out') = sentIn out ++ sentIn out' :=
  filterMap_append

theorem startedIn_append (out out' : List Action) :
    startedIn (out ++ out') = startedIn out + startedIn out' :=
  countP_append

structure Quiet (out : List Action) : Prop where
  sent : sentIn out = []
  started : startedIn out = 0

theorem Quiet.nil : Quiet [] := ⟨rfl, rfl⟩

theorem Quiet.append {out' : List Action} (h : Quiet out) (h' : Quiet out') :
    Quiet (out ++ out') := by
  constructor
  · rw [sentIn_append, h.sent, h'.sent, append_nil]
  · rw [startedIn_append, h.started, h'.started]

variable {sock' : UDPSocket}

theorem quiet_bind (h : sock.bind port = .ok (sock', out)) : Quiet out := by
  unfold UDPSocket.bind at h
  split_ifs at h
  cases h
  exact ⟨rfl, rfl⟩

theorem quiet_connect {addr : IPAddress}
    (h : sock.connect addr port = .ok (sock', out)) : Quiet out := by
  unfold UDPSocket.connect at h
  split_ifs at h
  cases h
  exact ⟨rfl, rfl⟩

theorem quiet_close (sock : UDPSocket) : Quiet sock.close.2 := by
  unfold UDPSocket.close
  split
  · exact ⟨rfl, rfl⟩
  · exact .nil

theorem mapM_send {messages : List GenericApplicationMessage} :
    ∀ {out : List Action}, messages.mapM sock.send = .ok out →
      sentIn out = messages ∧ startedIn out = 0 := by
  induction messages with
  | nil =>
    intro out h
    cases h
    exact ⟨rfl, rfl⟩
  | cons m messages ih =>
    intro out h
    rw [mapM_cons] at h
    obtain ⟨a, ha, h⟩ := bind_eq_ok.mp h
    obtain ⟨rest, hrest, h⟩ := bind_eq_ok.mp h
    cases h
    obtain ⟨hsent, hstarted⟩ := ih hrest
    obtain ⟨-, ha⟩ := unless_eq_ok.mp ha
    cases ha
    exact ⟨congrArg (m :: ·) hsent, hstarted⟩

/-! ## Applications -/

def Application.Valid (app : Application) : Prop := ∀ entry ∈ app.threadMap, entry.2.Valid

theorem valid_of_find (h : app.Valid) (hfind : app.find sockId = some thread) : thread.Valid := by
  obtain ⟨before, after, heq, -⟩ := lookup_eq_some_iff.mp hfind
  refine h (sockId, thread) ?_
  rw [heq]
  exact mem_append_right before mem_cons_self

theorem valid_store (h : app.Valid) (hthread : thread.Valid) (sockId : Nat) :
    (app.store sockId thread).Valid := by
  intro entry hentry
  obtain ⟨entry', hmem, rfl⟩ := mem_map.mp hentry
  split
  · exact hthread
  · exact h entry' hmem

theorem valid_store_client (h : app.Valid) {t t' : ClientThread}
    (hfind : app.find sockId = some (.client t))
    (hsame : t'.packetsPerRequest = t.packetsPerRequest) :
    (app.store sockId (.client t')).Valid := by
  obtain ⟨length, hlength⟩ := valid_of_find h hfind
  have hthread : (Thread.client t').Valid := ⟨length, hsame.trans hlength⟩
  exact valid_store h hthread sockId

theorem valid_append (h : app.Valid) (hthread : thread.Valid)
    (hmap : app'.threadMap = app.threadMap ++ [(sockId, thread)]) : app'.Valid := by
  intro entry hentry
  rw [hmap] at hentry
  rcases mem_append.mp hentry with hmem | hmem
  · exact h entry hmem
  · rw [mem_singleton.mp hmem]
    exact hthread

theorem quiet_removeThread (hok : app.removeThread sockId = .ok (app', out)) : Quiet out := by
  unfold removeThread at hok
  split at hok
  · cases hok
  dsimp only at hok
  split at hok
  · obtain ⟨⟨mySocket, bound⟩, hbind, hok⟩ := bind_eq_ok.mp hok
    cases hok
    exact quiet_bind hbind
  · cases hok
    exact .nil

theorem threadMap_removeThread (hok : app.removeThread sockId = .ok (app', out)) :
    app'.threadMap = app.threadMap.filter (·.1 ≠ sockId) := by
  unfold removeThread at hok
  split at hok
  · cases hok
  dsimp only at hok
  split at hok
  · obtain ⟨⟨mySocket, bound⟩, hbind, hok⟩ := bind_eq_ok.mp hok
    cases hok
    rfl
  · cases hok
    rfl

theorem removeThread_ok (h : app.Valid) (hok : app.removeThread sockId = .ok (app', out)) :
    app'.Valid ∧ Quiet out := by
  refine ⟨fun entry hentry => ?_, quiet_removeThread hok⟩
  rw [threadMap_removeThread hok] at hentry
  exact h entry (mem_of_mem_filter hentry)

theorem removeThreadStat_ok {stat : TransmissionStatistics} (h : app.Valid)
    (hok : app.removeThreadStat sockId stat = .ok (app', out)) : app'.Valid ∧ Quiet out := by
  obtain ⟨⟨app₁, out₁⟩, hremove, hok⟩ := bind_eq_ok.mp hok
  obtain ⟨hvalid, hquiet⟩ := removeThread_ok h hremove
  cases hok
  refine ⟨hvalid, ?_⟩
  split
  · exact hquiet
  · exact hquiet.append ⟨rfl, rfl⟩

theorem transmissionStart_ok {ownPort : Int} {address : IPAddress}
    {requestsPerSession requestLength : Int32} (h : app.Valid)
    (hok : app.transmissionStart sockId ownPort address port requestsPerSession requestLength =
      .ok (app', out)) : app'.Valid ∧ Quiet out := by
  obtain ⟨-, hok⟩ := unless_eq_ok.mp hok
  simp only [bind_eq_ok] at hok
  obtain ⟨⟨socket, bound⟩, hbind, ⟨socket', connected⟩, hconnect, hok⟩ := hok
  cases hok
  refine ⟨?_, (quiet_bind hbind).append (quiet_connect hconnect)⟩
  cases hfind : app.find sockId with
  | none =>
    have hthread : (Thread.client (.new socket' requestsPerSession requestLength)).Valid :=
      ⟨requestLength, rfl⟩
    exact valid_append h hthread rfl
  | some thread => exact h

theorem startServerThread_ok {msg : GenericApplicationMessage} {ctrl : UDPControlInfo}
    (h : app.Valid) (hfirst : msg.packetNumber = 1)
    (hok : app.startServerThread sockId msg ctrl = .ok (app', out)) :
    app'.Valid ∧ sentIn out = [] ∧ startedIn out = 1 := by
  simp only [startServerThread, bind_eq_ok] at hok
  obtain ⟨⟨socket, bound⟩, hbind, ⟨socket', connected⟩, hconnect, hok⟩ := hok
  have hopen := (quiet_bind hbind).append (quiet_connect hconnect)
  have hclose : Quiet (if app.threadCount + 1 = app.maxThreadCount then app.mySocket.close
      else (app.mySocket, [])).2 := by
    split
    · exact quiet_close app.mySocket
    · exact .nil
  have hthread : (Thread.server (.new socket' msg)).Valid := .inr ⟨0, hfirst, .inl rfl⟩
  split at hok
  · cases hok
    refine ⟨valid_append h hthread rfl, ?_, ?_⟩
    · rw [sentIn_append, sentIn_append, hopen.sent, hclose.sent]
      rfl
    · rw [startedIn_append, startedIn_append, hopen.started, hclose.started]
      rfl
  · cases hok

/-! ## One event -/

def Application.sendsRequest (app : Application) : Event → Bool
  | .timer sockId _ _ =>
      match app.find sockId with
      | some (.client t) => t.threadState = .connected
      | _ => false
  | _ => false

def Event.isFirst : Event → Bool
  | .datagram msg _ => msg.isFirst
  | _ => false

section Cases

variable {app app' : Application} {sockId : Nat} {e : Event} {out : List Action}

inductive Handled (app : Application) (sockId : Nat) : Event → Application → List Action → Prop
  | transmissionStart {ownPort port : Int} {address : IPAddress}
      {requestsPerSession requestLength : Int32} {app' : Application} {out : List Action} :
      app.transmissionStart sockId ownPort address port requestsPerSession requestLength =
        .ok (app', out) →
      Handled app sockId (.transmissionStart ownPort address port requestsPerSession requestLength)
        app' out
  | request {id : Nat} {t : ClientThread} {replyLength replyPerRequest : Int32}
      {out : List Action} :
      app.find id = some (.client t) → t.threadState = .connected →
      (t.sendRequest replyLength replyPerRequest).2.mapM t.socket.send = .ok out →
      Handled app sockId (.timer id replyLength replyPerRequest)
        (app.store id (.client (t.sendRequest replyLength replyPerRequest).1)) out
  | wait {id : Nat} {t : ClientThread} {replyLength replyPerRequest : Int32} :
      app.find id = some (.client t) → t.threadState = .disconnected →
      Handled app sockId (.timer id replyLength replyPerRequest)
        (app.store id (.client { t with threadState := .finish })) []
  | finish {id : Nat} {t : ClientThread} {replyLength replyPerRequest : Int32}
      {app' : Application} {out : List Action} :
      app.find id = some (.client t) → t.threadState = .finish →
      app.removeThreadStat id t.stat = .ok (app', out) →
      Handled app sockId (.timer id replyLength replyPerRequest) app' (t.socket.close.2 ++ out)
  | reply {id : Nat} {t : ServerThread} {replyLength replyPerRequest : Int32} {out : List Action} :
      app.find id = some (.server t) → t.threadState ≠ .disconnected →
      t.sendReply.2.mapM t.socket.send = .ok out →
      Handled app sockId (.timer id replyLength replyPerRequest)
        (app.store id (.server t.sendReply.1)) out
  | served {id : Nat} {t : ServerThread} {replyLength replyPerRequest : Int32}
      {app' : Application} {out : List Action} :
      app.find id = some (.server t) → t.threadState = .disconnected →
      app.removeThread id = .ok (app', out) →
      Handled app sockId (.timer id replyLength replyPerRequest) app' (t.socket.close.2 ++ out)
  | serverError {id : Nat} {app' : Application} {out : List Action} :
      app.removeThread id = .ok (app', out) → Handled app sockId (.udpError id) app' out
  | clientError {id : Nat} {app' : Application} {out : List Action} :
      app.removeThreadStat id ⟨0, 0, 0, 0⟩ = .ok (app', out) →
      Handled app sockId (.udpError id) app' out
  | started {msg : GenericApplicationMessage} {ctrl : UDPControlInfo} {app' : Application}
      {out : List Action} :
      msg.packetNumber = 1 → app.startServerThread sockId msg ctrl = .ok (app', out) →
      Handled app sockId (.datagram msg (some ctrl)) app' out
  | lastMessage {msg : GenericApplicationMessage} {ctrl : UDPControlInfo} {t : ClientThread} :
      msg.packetNumber ≠ 1 → app.find ctrl.sockId = some (.client t) →
      Handled app sockId (.datagram msg (some ctrl))
        (app.store ctrl.sockId (.client t.socketDatagramArrived)) []
  | ownError {id : Nat} : Handled app sockId (.udpError id) app []
  | invalid : Handled app sockId .invalid app []
  | discarded {msg : GenericApplicationMessage} {ctrl : Option UDPControlInfo} :
      msg.packetNumber ≠ 1 → Handled app sockId (.datagram msg ctrl) app []

variable {replyPerRequest replyLength : Int32}

theorem clientTimer_cases {id : Nat} {t : ClientThread} (hfind : app.find id = some (.client t))
    (hok : app.clientTimerExpired id t replyLength replyPerRequest = .ok (app', out)) :
    Handled app sockId (.timer id replyLength replyPerRequest) app' out := by
  unfold clientTimerExpired at hok
  split at hok
  · rename_i hstate
    obtain ⟨out', hsend, hok⟩ := bind_eq_ok.mp hok
    cases hok
    exact .request hfind hstate hsend
  · rename_i hstate
    cases hok
    exact .wait hfind hstate
  · rename_i hstate
    obtain ⟨⟨app₁, out₁⟩, hremove, hok⟩ := bind_eq_ok.mp hok
    cases hok
    exact .finish hfind hstate hremove

theorem serverTimer_cases {id : Nat} {t : ServerThread} (hfind : app.find id = some (.server t))
    (hok : app.serverTimerExpired id t = .ok (app', out)) :
    Handled app sockId (.timer id replyLength replyPerRequest) app' out := by
  unfold serverTimerExpired at hok
  split at hok
  case h_1 hstate | h_2 hstate =>
    obtain ⟨out', hsend, hok⟩ := bind_eq_ok.mp hok
    cases hok
    exact .reply hfind (by simp [hstate]) hsend
  case h_3 hstate =>
    obtain ⟨⟨app₁, out₁⟩, hremove, hok⟩ := bind_eq_ok.mp hok
    cases hok
    exact .served hfind hstate hremove

theorem receive_cases {msg : GenericApplicationMessage} {ctrl : Option UDPControlInfo}
    (hok : app.receive sockId msg ctrl = .ok (app', out)) :
    Handled app sockId (.datagram msg ctrl) app' out := by
  unfold receive at hok
  split at hok
  · rename_i hfirst
    cases ctrl with
    | none => cases hok
    | some ctrl => exact .started hfirst hok
  · rename_i hfirst
    split at hok
    · cases ctrl with
      | none => cases hok
      | some ctrl =>
        change app.lastMessage ctrl = _ at hok
        unfold lastMessage at hok
        split at hok
        · cases hok
        · cases hok
        · rename_i hfind
          cases hok
          exact .lastMessage hfirst hfind
    · cases hok
      exact .discarded hfirst

theorem handle_cases (hok : app.handle sockId e = .ok (app', out)) :
    Handled app sockId e app' out := by
  cases e with
  | transmissionStart => exact .transmissionStart hok
  | timer id replyLength replyPerRequest =>
    simp only [handle, timerExpired] at hok
    split at hok
    · cases hok
    · rename_i hfind
      exact clientTimer_cases hfind hok
    · rename_i hfind
      exact serverTimer_cases hfind hok
  | udpError id =>
    simp only [handle, udpError] at hok
    split at hok
    · cases hok
      exact .ownError
    · split at hok
      · cases hok
      · exact .serverError hok
      · exact .clientError hok
  | invalid =>
    cases hok
    exact .invalid
  | datagram msg ctrl => exact receive_cases hok

end Cases

structure Effect (app : Application) (e : Event) (app' : Application) (out : List Action) :
    Prop where
  valid : app'.Valid
  replies : ∀ m ∈ sentIn out, m.packetNumber = 1 → m.name = .udpRequestData
  requests : (sentIn out).countP (·.isFirst) = if app.sendsRequest e then 1 else 0
  threads : startedIn out = if e.isFirst then 1 else 0

theorem Effect.of_sent_nil {e : Event} (hvalid : app'.Valid) (hsent : sentIn out = [])
    (hnot : app.sendsRequest e = false) (hthreads : startedIn out = if e.isFirst then 1 else 0) :
    Effect app e app' out := by
  refine ⟨hvalid, fun m hm => ?_, ?_, hthreads⟩
  · rw [hsent] at hm
    cases hm
  · rw [hsent, hnot]
    rfl

theorem valid_socketDatagramArrived (h : app.Valid) {t : ClientThread}
    (hfind : app.find sockId = some (.client t)) :
    (app.store sockId (.client t.socketDatagramArrived)).Valid := by
  refine valid_store_client h hfind ?_
  unfold ClientThread.socketDatagramArrived
  split
  · rfl
  · rfl

variable {replyPerRequest replyLength : Int32}

theorem request_effect {id : Nat} {t : ClientThread}
    (h : app.Valid) (hfind : app.find id = some (.client t)) (hstate : t.threadState = .connected)
    (hsend : (t.sendRequest replyLength replyPerRequest).2.mapM t.socket.send = .ok out) :
    Effect app (.timer id replyLength replyPerRequest)
      (app.store id (.client (t.sendRequest replyLength replyPerRequest).1)) out := by
  obtain ⟨length, hlength⟩ := valid_of_find h hfind
  obtain ⟨hsent, hstarted⟩ := mapM_send hsend
  refine ⟨valid_store_client h hfind rfl, fun m hm _ => ?_, ?_, hstarted⟩
  · rw [hsent] at hm
    exact name_requestFragments hm
  · rw [hsent, sendsRequest, hfind, if_pos (decide_eq_true hstate)]
    refine countP_requestFragments _ ?_ ?_
    · rw [hlength]
      exact packets_pos length
    · rw [hlength]
      exact packets_lt length

theorem reply_effect {id : Nat} (h : app.Valid)
    (hfind : app.find id = some (.server t)) (hstate : t.threadState ≠ .disconnected)
    (hsend : t.sendReply.2.mapM t.socket.send = .ok out) :
    Effect app (.timer id replyLength replyPerRequest)
      (app.store id (.server t.sendReply.1)) out := by
  obtain ⟨k, hk⟩ := (valid_of_find h hfind).resolve_left hstate
  obtain ⟨hsent, hstarted⟩ := mapM_send hsend
  have hnumber : ∀ m ∈ sentIn out, m.packetNumber ≠ 1 := by
    intro m hm
    rw [hsent] at hm
    exact (number_sendReply hk hm).2
  refine ⟨valid_store h (valid_sendReply hk) id, fun m hm hfirst => ?_, ?_, hstarted⟩
  · exact absurd hfirst (hnumber m hm)
  · rw [sendsRequest, hfind]
    exact countP_eq_zero.mpr fun m hm => by
      simpa [GenericApplicationMessage.isFirst] using hnumber m hm

theorem handle_effect {e : Event} (h : app.Valid) (hok : app.handle sockId e = .ok (app', out)) :
    Effect app e app' out := by
  cases handle_cases hok with
  | transmissionStart hok =>
    obtain ⟨hvalid, hquiet⟩ := transmissionStart_ok h hok
    exact .of_sent_nil hvalid hquiet.sent rfl hquiet.started
  | request hfind hstate hsend => exact request_effect h hfind hstate hsend
  | wait hfind hstate =>
    refine .of_sent_nil (valid_store_client h hfind rfl) rfl ?_ rfl
    rw [sendsRequest, hfind]
    exact decide_eq_false (by rw [hstate]; exact ClientState.noConfusion)
  | @finish id t _ _ _ _ hfind hstate hremove =>
    obtain ⟨hvalid, hquiet⟩ := removeThreadStat_ok h hremove
    have hclosed := (quiet_close t.socket).append hquiet
    refine .of_sent_nil hvalid hclosed.sent ?_ hclosed.started
    rw [sendsRequest, hfind]
    exact decide_eq_false (by rw [hstate]; exact ClientState.noConfusion)
  | reply hfind hstate hsend => exact reply_effect h hfind hstate hsend
  | @served id t _ _ _ _ hfind hstate hremove =>
    obtain ⟨hvalid, hquiet⟩ := removeThread_ok h hremove
    have hclosed := (quiet_close t.socket).append hquiet
    refine .of_sent_nil hvalid hclosed.sent ?_ hclosed.started
    rw [sendsRequest, hfind]
  | serverError hremove =>
    obtain ⟨hvalid, hquiet⟩ := removeThread_ok h hremove
    exact .of_sent_nil hvalid hquiet.sent rfl hquiet.started
  | clientError hremove =>
    obtain ⟨hvalid, hquiet⟩ := removeThreadStat_ok h hremove
    exact .of_sent_nil hvalid hquiet.sent rfl hquiet.started
  | started hfirst hok =>
    obtain ⟨hvalid, hsent, hstarted⟩ := startServerThread_ok h hfirst hok
    refine .of_sent_nil hvalid hsent rfl ?_
    rw [hstarted, Event.isFirst, GenericApplicationMessage.isFirst, if_pos (decide_eq_true hfirst)]
  | lastMessage hnot hfind =>
    refine .of_sent_nil (valid_socketDatagramArrived h hfind) rfl rfl ?_
    rw [Event.isFirst, GenericApplicationMessage.isFirst, decide_eq_false hnot]
    rfl
  | ownError | invalid => exact .of_sent_nil h rfl rfl rfl
  | discarded hnot =>
    refine .of_sent_nil h rfl rfl ?_
    rw [Event.isFirst, GenericApplicationMessage.isFirst, decide_eq_false hnot]
    rfl

end WormsAttack.Udp
