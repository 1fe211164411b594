/-
  Whether a session can get stuck.
-/
import WormsAttack.TcpApp.Session

namespace WormsAttack.TcpApp

open Foundation Session

/-! ## Statements -/

/-- Nothing is on its way, and no timer is scheduled. -/
structure Session.Quiet (s : Session) : Prop where
  client : s.client.incoming = []
  server : s.server.incoming = []
  clientTimer : ∀ t, s.client.thread = some t → t.isScheduled = false
  serverTimer : ∀ t, s.server.thread = some t → t.isScheduled = false

/-- The server thread has called `close`, or has been removed after that. -/
def Session.ServerClosed (s : Session) : Prop :=
  ∀ t, s.server.thread = some t → t.socket = .locallyClosed ∨ t.socket = .closed

/-- A reliable connection does not fail, and ends when both sides have closed it. -/
def reliable (s : Session) : Event → Bool
  | .clientFailure | .serverFailure => false
  | .clientClosed => s.client.thread.all (·.socket = .closed)
  | .serverClosed => s.server.thread.all (·.socket = .closed)
  | _ => true

def Session.asksForNothing (s : Session) : Bool :=
  match s.server.incoming with
  | .data msg :: _ => msg.replyLength = 0
  | _ => false

def isUnanswered (st : Step Session Event (List Action)) : Bool :=
  st.event = .serverSegment && st.pre.asksForNothing

/-- In no state of the run after the first request is the session quiet while the server has
not closed. -/
def NeverStuck (start : Session) (tr : List (Step Session Event (List Action))) : Prop :=
  ∀ later earlier s, tr = later ++ earlier → Run step start earlier s → requests earlier ≠ [] →
    s.Quiet → s.ServerClosed

/-! ## The forms of a session -/

def opened (tc : ClientThread) (toClient : List Segment) (ts : ServerThread)
    (toServer : List Segment) : Session :=
  { client := { thread := some tc, isOpen := true, incoming := toClient }
    server := { thread := some ts, isOpen := true, incoming := toServer } }

/-- The client waits for a reply: to its last request, or to another. -/
structure ClientThread.Asks (last : Bool) (t : ClientThread) : Prop where
  socket : t.socket = .connected
  state : t.threadState = if last then .disconnected else .connected
  idle : t.isScheduled = false

structure ServerThread.Listens (t : ServerThread) : Prop where
  socket : t.socket = .connected
  idle : t.isScheduled = false
  replies : t.replies = []

def ClientThread.Over (isOpen : Bool) (t : ClientThread) : Prop :=
  t.threadState = .disconnected ∧ t.socket ≠ .connecting ∨ t.threadState = .finish ∧ isOpen = false

/-- What is known after the server has closed: nothing is asked any more. -/
structure Session.Ends (s : Session) : Prop where
  closed : s.ServerClosed
  none : dataIn s.server.incoming = 0
  client : ∀ t, s.client.thread = some t → t.Over s.client.isOpen

/-- The forms of a session in which `sent` requests have been sent. -/
inductive Form : Nat → Session → Prop
  | waiting {tc : ClientThread} {ts : ServerThread} :
      tc.threadState = .waiting → (tc.socket = .connecting → tc.isScheduled = false) →
      tc.socket = .bound ∨ tc.socket = .connecting → ts.Listens →
      Form 0 (opened tc [] ts [])
  /-- the timer of the client is scheduled -/
  | thinking {sent : Nat} {tc : ClientThread} {ts : ServerThread} :
      tc.threadState = .connected → tc.socket = .connected → tc.isScheduled = true →
      ts.Listens → Form (sent + 1) (opened tc [] ts [])
  | asking {sent : Nat} {tc : ClientThread} {ts : ServerThread} {m : GenericApplicationMessage} :
      tc.Asks m.last → ts.Listens → Form (sent + 1) (opened tc [] ts [.data m])
  /-- the timer of the server is scheduled -/
  | serving {sent : Nat} {tc : ClientThread} {ts : ServerThread} {m : GenericApplicationMessage} :
      tc.Asks ts.doClose → ts.socket = .connected → ts.isScheduled = true → ts.replies = [m] →
      Form (sent + 1) (opened tc [] ts [])
  | answering {sent : Nat} {tc : ClientThread} {ts : ServerThread}
      {m : GenericApplicationMessage} :
      tc.Asks false → ts.Listens → Form (sent + 1) (opened tc [.data m] ts [])
  | ending {sent : Nat} {s : Session} : s.Ends → Form (sent + 1) s

/-- What a step from a form of a session does: it leads to a form, or gets stuck with a
request that asks for nothing. -/
inductive Leads (sent : Nat) (s : Session) (e : Event) (s' : Session) (out : List Action) : Prop
  | on : isUnanswered ⟨s, e, out⟩ = false →
      Form (sent + if e.isClient then (sentIn out).length else 0) s' → Leads sent s e s' out
  | stuck : isUnanswered ⟨s, e, out⟩ = true → e.isClient = false → sent ≠ 0 → s'.Quiet →
      ¬ s'.ServerClosed → Leads sent s e s' out

theorem sendRequest_asks {t t' : ClientThread} {draw : Draw} {out : List Action}
    (h : t.sendRequest draw = .ok (t', out)) (hstate : t.threadState = .connected)
    (hsocket : t.socket = .connected) (hidle : t.isScheduled = false) :
    ∃ m, out = [.send m] ∧ t'.Asks m.last := by
  obtain ⟨out', hsend, h⟩ := bind_eq_ok.mp h
  cases h
  refine ⟨_, send_ok hsend, hsocket, ?_, hidle⟩
  rw [hstate]
  split <;> rfl

section Steps

variable {sent : Nat} {tc : ClientThread} {toClient : List Segment} {ts : ServerThread}
  {toServer : List Segment} {m : GenericApplicationMessage} {s s' : Session} {e : Event}
  {out : List Action}

inductive Turn (tc : ClientThread) (toClient : List Segment) (ts : ServerThread)
    (toServer : List Segment) : Event → Session → List Action → Prop
  | clientTimer {draw : Draw} {thread : Option ClientThread} {out : List Action} :
      tc.isScheduled = true → tc.timerExpired draw = .ok (thread, out) →
      Turn tc toClient ts toServer (.clientTimer draw)
        { client := { thread := thread, isOpen := true, incoming := toClient }
          server := { thread := some ts, isOpen := true
                      incoming := toServer ++ out.filterMap Action.segment } } out
  | clientEstablished {draw : Draw} {t : ClientThread} {out : List Action} :
      tc.socket = .connecting → tc.socketEstablished draw = .ok (t, out) →
      Turn tc toClient ts toServer (.clientEstablished draw)
        (opened t toClient ts (toServer ++ out.filterMap Action.segment)) out
  | clientData {m : GenericApplicationMessage} {rest : List Segment} {t : ClientThread} :
      toClient = .data m :: rest → tc.socketDataArrived m = .ok t →
      Turn tc toClient ts toServer .clientSegment (opened t rest ts toServer) []
  | clientFin {rest : List Segment} : toClient = .fin :: rest →
      Turn tc toClient ts toServer .clientSegment
        (opened { tc with socket := tc.socket.peerCloses } rest ts toServer) []
  | serverTimer {t : ServerThread} {out : List Action} :
      ts.isScheduled = true → ts.timerExpired = .ok (t, out) →
      Turn tc toClient ts toServer .serverTimer
        (opened tc (toClient ++ out.filterMap Action.segment) t toServer) out
  | serverData {m : GenericApplicationMessage} {rest : List Segment} {t : ServerThread}
      {out : List Action} :
      toServer = .data m :: rest → ts.socketDataArrived m = .ok (t, out) →
      Turn tc toClient ts toServer .serverSegment
        (opened tc (toClient ++ out.filterMap Action.segment) t rest) out
  | serverFin {rest : List Segment} : toServer = .fin :: rest →
      Turn tc toClient ts toServer .serverSegment (opened tc toClient ts.socketPeerClosed rest) []

theorem turn_of_step (hclient : tc.socket ≠ .closed) (hserver : ts.socket ≠ .closed)
    (hreliable : reliable (opened tc toClient ts toServer) e = true)
    (hstep : step (opened tc toClient ts toServer) e = .ok (s', out)) :
    Turn tc toClient ts toServer e s' out := by
  unfold step at hstep
  split at hstep
  · cases handleClient_cases hstep with
    | timer hscheduled htimer => exact .clientTimer hscheduled htimer
    | established _ hsocket hestablished => exact .clientEstablished hsocket hestablished
    | data hincoming hdata =>
      simpa [fromClient, opened] using Turn.clientData hincoming hdata
    | fin hincoming => simpa [fromClient, opened] using Turn.clientFin hincoming
    | closed => exact absurd (of_decide_eq_true hreliable) hclient
    | failure => cases hreliable
  · cases handleServer_cases hstep with
    | timer hscheduled htimer => exact .serverTimer hscheduled htimer
    | data hincoming hdata => exact .serverData hincoming hdata
    | fin hincoming => simpa [fromServer, opened] using Turn.serverFin hincoming
    | closed => exact absurd (of_decide_eq_true hreliable) hserver
    | failure => cases hreliable

theorem Leads.of_client {n : Nat} (hclient : e.isClient = true) (hform : Form n s')
    (hsent : sent + (sentIn out).length = n) : Leads sent s e s' out := by
  subst hsent
  refine .on ?_ (by rwa [if_pos hclient])
  cases e <;> first | rfl | cases hclient

theorem waiting_leads (hstate : tc.threadState = .waiting)
    (hidle : tc.socket = .connecting → tc.isScheduled = false)
    (hserver : ts.Listens) (hturn : Turn tc [] ts [] e s' out) :
    Leads 0 (opened tc [] ts []) e s' out := by
  cases hturn with
  | @clientTimer _ thread _ hscheduled htimer =>
    simp only [ClientThread.timerExpired, hstate] at htimer
    obtain ⟨socket, hconnect, htimer⟩ := bind_eq_ok.mp htimer
    cases htimer
    refine .of_client (n := 0) rfl ?_ rfl
    have hsocket : socket = .connecting := by
      unfold SockState.connect at hconnect
      split at hconnect
      · cases hconnect
        rfl
      · cases hconnect
    exact .waiting rfl (fun _ => rfl) (.inr hsocket) hserver
  | clientEstablished hsocket hestablished =>
    obtain ⟨m, rfl, hasks⟩ := sendRequest_asks hestablished rfl rfl (hidle hsocket)
    exact .of_client (n := 1) rfl (.asking hasks hserver) rfl
  | serverTimer hscheduled =>
    rw [hserver.idle] at hscheduled
    cases hscheduled
  | clientData hin | clientFin hin | serverData hin | serverFin hin => cases hin

theorem thinking_leads (hstate : tc.threadState = .connected) (hsocket : tc.socket = .connected)
    (hserver : ts.Listens) (hturn : Turn tc [] ts [] e s' out) :
    Leads (sent + 1) (opened tc [] ts []) e s' out := by
  cases hturn with
  | clientTimer hscheduled htimer =>
    simp only [ClientThread.timerExpired, hstate] at htimer
    obtain ⟨⟨t, out'⟩, hrequest, htimer⟩ := bind_eq_ok.mp htimer
    cases htimer
    obtain ⟨m, rfl, hasks⟩ := sendRequest_asks hrequest rfl hsocket rfl
    exact .of_client (n := sent + 1 + 1) rfl (.asking hasks hserver) rfl
  | clientEstablished hconnecting =>
    rw [hsocket] at hconnecting
    cases hconnecting
  | serverTimer hscheduled =>
    rw [hserver.idle] at hscheduled
    cases hscheduled
  | clientData hin | clientFin hin | serverData hin | serverFin hin => cases hin

variable {t : ServerThread}

theorem reply_leads (hclose : ts.closeIfLast = .ok (t, out))
    (hasks : tc.Asks ts.doClose) (hsocket : ts.socket = .connected)
    (hidle : ts.isScheduled = false) (hreplies : ts.replies = []) :
    Form (sent + 1) (opened tc ([.data m] ++ out.filterMap Action.segment) t []) := by
  unfold ServerThread.closeIfLast at hclose
  rw [hsocket] at hclose
  split at hclose
  · rename_i hlast
    cases hclose
    rw [hlast] at hasks
    refine .ending ⟨fun t ht => ?_, rfl, fun t ht => ?_⟩
    · cases ht
      exact .inl rfl
    · cases ht
      refine .inl ⟨hasks.state, ?_⟩
      rw [hasks.socket]
      exact SockState.noConfusion
  · rename_i hlast
    cases hclose
    rw [Bool.not_eq_true] at hlast
    rw [hlast] at hasks
    exact .answering hasks ⟨hsocket, hidle, hreplies⟩

theorem asking_leads (hasks : tc.Asks m.last) (hserver : ts.Listens)
    (hturn : Turn tc [] ts [.data m] e s' out) :
    Leads (sent + 1) (opened tc [] ts [.data m]) e s' out := by
  cases hturn with
  | clientTimer hscheduled =>
    rw [hasks.idle] at hscheduled
    cases hscheduled
  | clientEstablished hconnecting =>
    rw [hasks.socket] at hconnecting
    cases hconnecting
  | serverTimer hscheduled =>
    rw [hserver.idle] at hscheduled
    cases hscheduled
  | serverData hin hdata =>
    cases hin
    unfold ServerThread.socketDataArrived at hdata
    split at hdata
    · rename_i hnothing
      cases hdata
      refine .stuck ?_ rfl (Nat.succ_ne_zero sent) ⟨rfl, rfl, fun t ht => ?_, fun t ht => ?_⟩ ?_
      · simp [isUnanswered, asksForNothing, opened, hnothing]
      · cases ht
        exact hasks.idle
      · cases ht
        exact hserver.idle
      · intro hclosed
        have := hclosed _ rfl
        simp [hserver.socket] at this
    · rename_i hsomething
      refine .on ?_ ?_
      · simp [isUnanswered, asksForNothing, opened, hsomething]
      split at hdata
      · obtain ⟨isScheduled, hschedule, hdata⟩ := bind_eq_ok.mp hdata
        cases hdata
        exact .serving hasks hserver.socket (scheduleAt_ok hschedule)
          (congrArg (· ++ [{ m with byteLength := m.replyLength.toInt }]) hserver.replies)
      · obtain ⟨sent', hsend, hdata⟩ := bind_eq_ok.mp hdata
        obtain ⟨⟨t, closed⟩, hclose, hdata⟩ := bind_eq_ok.mp hdata
        cases hdata
        rw [send_ok hsend]
        exact reply_leads hclose hasks hserver.socket hserver.idle hserver.replies
  | clientData hin | clientFin hin | serverFin hin => cases hin

theorem serving_leads (hasks : tc.Asks ts.doClose) (hsocket : ts.socket = .connected)
    (hreplies : ts.replies = [m]) (hturn : Turn tc [] ts [] e s' out) :
    Leads (sent + 1) (opened tc [] ts []) e s' out := by
  cases hturn with
  | clientTimer hscheduled =>
    rw [hasks.idle] at hscheduled
    cases hscheduled
  | clientEstablished hconnecting =>
    rw [hasks.socket] at hconnecting
    cases hconnecting
  | serverTimer hscheduled htimer =>
    simp only [ServerThread.timerExpired, hreplies] at htimer
    obtain ⟨sent', hsend, htimer⟩ := bind_eq_ok.mp htimer
    obtain ⟨⟨t, closed⟩, hclose, htimer⟩ := bind_eq_ok.mp htimer
    cases htimer
    rw [send_ok hsend]
    exact .on rfl (reply_leads hclose hasks hsocket rfl rfl)
  | clientData hin | clientFin hin | serverData hin | serverFin hin => cases hin

theorem answering_leads (hasks : tc.Asks false) (hserver : ts.Listens)
    (hturn : Turn tc [.data m] ts [] e s' out) :
    Leads (sent + 1) (opened tc [.data m] ts []) e s' out := by
  cases hturn with
  | clientTimer hscheduled =>
    rw [hasks.idle] at hscheduled
    cases hscheduled
  | clientEstablished hconnecting =>
    rw [hasks.socket] at hconnecting
    cases hconnecting
  | serverTimer hscheduled =>
    rw [hserver.idle] at hscheduled
    cases hscheduled
  | clientData hin hdata =>
    cases hin
    obtain ⟨isScheduled, hschedule, hdata⟩ := bind_eq_ok.mp hdata
    cases hdata
    exact .of_client (n := sent + 1) rfl
      (.thinking hasks.state hasks.socket (scheduleAt_ok hschedule) hserver) rfl
  | clientFin hin | serverData hin | serverFin hin => cases hin

variable {sock : SockState}

theorem closeOnce_closed {sock' : SockState}
    (h : sock.closeOnce = .ok (sock', out)) : sock' = .locallyClosed ∨ sock' = .closed := by
  unfold SockState.closeOnce at h
  split_ifs at h with hclosed
  · cases h
    exact .inl hclosed
  · unfold SockState.close at h
    split at h <;> cases h
    · exact .inl rfl
    · exact .inr rfl
    · exact .inr rfl

theorem closeIfLast_closed (h : ts.closeIfLast = .ok (t, out))
    (hclosed : ts.socket = .locallyClosed ∨ ts.socket = .closed) :
    t.socket = .locallyClosed ∨ t.socket = .closed := by
  unfold ServerThread.closeIfLast at h
  split at h
  · obtain ⟨⟨socket, out'⟩, hclose, h⟩ := bind_eq_ok.mp h
    cases h
    exact closeOnce_closed hclose
  · cases h
    exact hclosed

theorem send_closed {message : GenericApplicationMessage}
    (h : sock.send message = .ok out) : ¬ (sock = .locallyClosed ∨ sock = .closed) := by
  rintro (rfl | rfl) <;> cases h

theorem ending_server (h : s.Ends) (hthread : s.server.thread = some ts)
    (hstep : s.handleServer ts e = .ok (s', out)) : s'.Ends ∧ s.asksForNothing = false := by
  obtain ⟨hclosed, hnone, hclient⟩ := h
  have hsocket := hclosed ts hthread
  have hnothing : s.asksForNothing = false := by
    unfold asksForNothing
    split
    · rename_i hin
      rw [hin, dataIn_data] at hnone
      cases hnone
    · rfl
  refine ⟨?_, hnothing⟩
  cases handleServer_cases hstep with
  | timer _ htimer =>
    refine ⟨fun t' ht' => ?_, hnone, hclient⟩
    cases ht'
    unfold ServerThread.timerExpired at htimer
    dsimp only at htimer
    split at htimer
    · exact closeIfLast_closed htimer hsocket
    · obtain ⟨sent, hsend, -⟩ := bind_eq_ok.mp htimer
      exact absurd hsocket (send_closed hsend)
  | data hin =>
    rw [hin, dataIn_data] at hnone
    cases hnone
  | fin hin =>
    refine ⟨fun t' ht' => ?_, ?_, hclient⟩
    · cases ht'
      refine .inr ?_
      rcases hsocket with hsocket | hsocket <;>
        simp [ServerThread.socketPeerClosed, hsocket, SockState.peerCloses]
    · rw [hin, dataIn_fin] at hnone
      exact hnone
  | closed | failure => exact ⟨fun t' ht' => (by cases ht'), hnone, hclient⟩

theorem Session.Ends.fromClient (h : s.Ends) {client : End ClientThread} (hnil : sentIn out = [])
    (hthread : ∀ t, client.thread = some t → t.Over client.isOpen) :
    (s.fromClient client out).Ends ∧ sentIn out = [] := by
  refine ⟨⟨h.closed, ?_, hthread⟩, hnil⟩
  simp only [Session.fromClient, dataIn_append, hnil, h.none, List.length_nil]

variable {isOpen : Bool}

theorem over_timerExpired {draw : Draw} {thread : Option ClientThread}
    (hover : tc.Over isOpen) (h : tc.timerExpired draw = .ok (thread, out)) :
    sentIn out = [] ∧ ∀ t, thread = some t → t.Over isOpen := by
  rcases hover with ⟨hstate, -⟩ | ⟨hstate, -⟩
  · simp only [ClientThread.timerExpired, hstate] at h
    obtain ⟨⟨socket, out'⟩, hclose, h⟩ := bind_eq_ok.mp h
    cases h
    obtain ⟨hnil, hsocket⟩ := closeOnce_ok hclose
    refine ⟨hnil, fun t ht => ?_⟩
    cases ht
    exact .inl ⟨rfl, hsocket⟩
  · simp only [ClientThread.timerExpired, hstate] at h
    cases h
    exact ⟨rfl, fun t ht => by cases ht⟩

theorem over_socketDataArrived {msg : GenericApplicationMessage} {t : ClientThread}
    (hover : tc.Over isOpen) (h : tc.socketDataArrived msg = .ok t) : t.Over isOpen := by
  obtain ⟨isScheduled, -, h⟩ := bind_eq_ok.mp h
  cases h
  exact hover

theorem over_peerCloses (hover : tc.Over isOpen) :
    ({ tc with socket := tc.socket.peerCloses } : ClientThread).Over isOpen := by
  rcases hover with ⟨hstate, -⟩ | hfinish
  · exact .inl ⟨hstate, peerCloses_ne tc.socket⟩
  · exact .inr hfinish

theorem ending_client (h : s.Ends) (hthread : s.client.thread = some tc)
    (hstep : s.handleClient tc e = .ok (s', out)) : s'.Ends ∧ sentIn out = [] := by
  have hover : tc.Over s.client.isOpen := h.client tc hthread
  cases handleClient_cases hstep with
  | timer _ htimer =>
    obtain ⟨hnil, hthread'⟩ := over_timerExpired hover htimer
    exact h.fromClient hnil hthread'
  | established hopen hsocket =>
    rcases hover with ⟨-, hne⟩ | ⟨-, hclosed⟩
    · exact absurd hsocket hne
    · rw [hclosed] at hopen
      cases hopen
  | data _ hdata =>
    refine h.fromClient rfl fun t ht => ?_
    cases ht
    exact over_socketDataArrived hover hdata
  | fin =>
    refine h.fromClient rfl fun t ht => ?_
    cases ht
    exact over_peerCloses hover
  | closed hclosed =>
    cases hclosed
    refine h.fromClient rfl fun t ht => ?_
    cases ht
    exact .inr ⟨rfl, rfl⟩
  | failure => exact h.fromClient rfl fun t ht => by cases ht

theorem ending_leads (h : s.Ends) (hstep : step s e = .ok (s', out)) :
    Leads (sent + 1) s e s' out := by
  unfold step at hstep
  split_ifs at hstep with hclient
  · split at hstep
    · rename_i t hthread
      obtain ⟨hends, hnil⟩ := ending_client h hthread hstep
      exact .of_client hclient (.ending hends) (by rw [hnil]; rfl)
    · cases hstep
  · split at hstep
    · rename_i t hthread
      obtain ⟨hends, hnothing⟩ := ending_server h hthread hstep
      refine .on ?_ (by rw [if_neg hclient]; exact .ending hends)
      unfold isUnanswered
      rw [hnothing, Bool.and_false]
    · cases hstep

theorem Form.leads (h : Form sent s) (hreliable : reliable s e = true)
    (hstep : step s e = .ok (s', out)) : Leads sent s e s' out := by
  have hopen : SockState.connected ≠ .closed := SockState.noConfusion
  cases h with
  | waiting hstate hidle hsocket hserver =>
    refine waiting_leads hstate hidle hserver (turn_of_step ?_ ?_ hreliable hstep)
    · rcases hsocket with hsocket | hsocket <;> rw [hsocket] <;> exact SockState.noConfusion
    · rwa [hserver.socket]
  | thinking hstate hsocket _ hserver =>
    exact thinking_leads hstate hsocket hserver
      (turn_of_step (by rwa [hsocket]) (by rwa [hserver.socket]) hreliable hstep)
  | asking hasks hserver =>
    exact asking_leads hasks hserver
      (turn_of_step (by rwa [hasks.socket]) (by rwa [hserver.socket]) hreliable hstep)
  | serving hasks hsocket _ hreplies =>
    exact serving_leads hasks hsocket hreplies
      (turn_of_step (by rwa [hasks.socket]) (by rwa [hsocket]) hreliable hstep)
  | answering hasks hserver =>
    exact answering_leads hasks hserver
      (turn_of_step (by rwa [hasks.socket]) (by rwa [hserver.socket]) hreliable hstep)
  | ending hends => exact ending_leads hends hstep

/-- A form with a request behind it is quiet only after the server has closed. -/
theorem Form.closed_of_quiet (h : Form sent s) (hsent : sent ≠ 0) (hquiet : s.Quiet) :
    s.ServerClosed := by
  cases h with
  | waiting => exact absurd rfl hsent
  | thinking _ _ hscheduled =>
    rw [hquiet.clientTimer _ rfl] at hscheduled
    cases hscheduled
  | asking => cases hquiet.server
  | serving _ _ hscheduled =>
    rw [hquiet.serverTimer _ rfl] at hscheduled
    cases hscheduled
  | answering => cases hquiet.client
  | ending hends => exact hends.closed

end Steps

/-! ## Runs -/

theorem form_start (requestsPerSession : Int32) : Form 0 (start requestsPerSession) :=
  .waiting rfl SockState.noConfusion (.inl rfl) ⟨rfl, rfl, rfl⟩

theorem length_requests_cons (st : Step Session Event (List Action))
    (tr : List (Step Session Event (List Action))) :
    (requests (st :: tr)).length =
      (requests tr).length + if st.event.isClient then (sentIn st.out).length else 0 := by
  rw [requests, List.length_append]
  split <;> rfl

theorem neverStuck_cons {start s : Session} {st : Step Session Event (List Action)}
    {tr : List (Step Session Event (List Action))} (hrun : Run step start (st :: tr) s) :
    NeverStuck start (st :: tr) ↔
      NeverStuck start tr ∧ (requests (st :: tr) ≠ [] → s.Quiet → s.ServerClosed) := by
  constructor
  · intro h
    refine ⟨fun later earlier s' heq => ?_, h [] (st :: tr) s rfl hrun⟩
    exact h (st :: later) earlier s' (congrArg (st :: ·) heq)
  · rintro ⟨hbefore, hlast⟩ later earlier s' heq hrun'
    cases later with
    | nil =>
      cases heq
      rw [hrun'.state_unique hrun]
      exact hlast
    | cons newest later =>
      obtain ⟨-, heq⟩ := List.cons.inj heq
      exact hbefore later earlier s' heq hrun'

/-- The session is never quiet with the server open just when no request for a reply of length 0
arrives. -/
theorem never_stuck_iff {requestsPerSession : Int32}
    {tr : List (Step Session Event (List Action))} {s : Session}
    (hrun : Run step (Session.start requestsPerSession) tr s)
    (hreliable : ∀ st ∈ tr, reliable st.pre st.event = true) :
    NeverStuck (Session.start requestsPerSession) tr ↔ ∀ st ∈ tr, isUnanswered st = false := by
  -- as long as every request is answered, the session is in one of the forms
  have hboth : (NeverStuck (start requestsPerSession) tr ↔ ∀ st ∈ tr, isUnanswered st = false) ∧
      ((∀ st ∈ tr, isUnanswered st = false) → Form (requests tr).length s) := by
    induction hrun with
    | start =>
      refine ⟨iff_of_true ?_ fun _ h => absurd h List.not_mem_nil, fun _ => form_start _⟩
      intro later earlier s heq _ hrequests
      obtain ⟨-, rfl⟩ := List.append_eq_nil_iff.mp heq.symm
      exact absurd rfl hrequests
    | next hrun hstep ih =>
      obtain ⟨hnew, hearlier⟩ := List.forall_mem_cons.mp hreliable
      obtain ⟨hiff, hform⟩ := ih hearlier
      rw [neverStuck_cons (hrun.next hstep), hiff, List.forall_mem_cons]
      rw [← List.length_pos_iff, length_requests_cons]
      constructor
      · constructor
        · rintro ⟨hanswered, hlast⟩
          refine ⟨?_, hanswered⟩
          cases (hform hanswered).leads hnew hstep with
          | on hanswered' => exact hanswered'
          | stuck _ _ hsent hquiet hopen =>
            exact absurd (hlast (by omega) hquiet) hopen
        · rintro ⟨hanswered', hanswered⟩
          refine ⟨hanswered, fun hpos hquiet => ?_⟩
          cases (hform hanswered).leads hnew hstep with
          | on _ hform' => exact hform'.closed_of_quiet (Nat.pos_iff_ne_zero.mp hpos) hquiet
          | stuck hnot =>
            rw [hanswered'] at hnot
            cases hnot
      · rintro ⟨hanswered', hanswered⟩
        cases (hform hanswered).leads hnew hstep with
        | on _ hform' => exact hform'
        | stuck hnot =>
          rw [hanswered'] at hnot
          cases hnot
  exact hboth.1

def answeredSession : List Event :=
  [.clientTimer noDraw, .clientEstablished noDraw, .serverSegment, .clientSegment, .clientSegment,
    .clientTimer noDraw, .serverSegment, .serverClosed]

theorem never_stuck_answered :
    NeverStuck (Session.start 1) (replayTrace step (Session.start 1) answeredSession) :=
  have hrun : replays step (start 1) answeredSession = true := by decide +kernel
  (never_stuck_iff (run_of_replays hrun) (by decide +kernel)).mpr (by decide +kernel)

def unansweredSession : List Event :=
  [.clientTimer noDraw, .clientEstablished { noDraw with replyLength := 0 }, .serverSegment]

theorem session_stuck :
    Run step (Session.start 1) (replayTrace step (Session.start 1) unansweredSession)
        (replayState step (Session.start 1) unansweredSession) ∧
      (∀ st ∈ replayTrace step (Session.start 1) unansweredSession,
        reliable st.pre st.event = true) ∧
      (replayState step (Session.start 1) unansweredSession).Quiet ∧
      (replayState step (Session.start 1) unansweredSession).server.thread.map (·.socket) =
        some .connected ∧
      ¬ NeverStuck (Session.start 1) (replayTrace step (Session.start 1) unansweredSession) := by
  have hreplays : replays step (start 1) unansweredSession = true := by decide +kernel
  have hrun := run_of_replays hreplays
  have hquiet : (replayState step (start 1) unansweredSession).Quiet :=
    ⟨rfl, rfl, fun t ht => by cases ht; rfl, fun t ht => by cases ht; rfl⟩
  refine ⟨hrun, by decide +kernel, hquiet, rfl, fun h => ?_⟩
  have hclosed := h [] _ _ rfl hrun (by decide +kernel) hquiet
  have hopen : SockState.connected = .locallyClosed ∨ SockState.connected = .closed :=
    hclosed _ rfl
  exact absurd hopen (by decide)

end WormsAttack.TcpApp
