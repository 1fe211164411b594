/-
  Requests and replies take turns.

  There is one token in a session: the timer of the client thread, a request on its way, a reply
  that waits for the timer of the server thread, or a reply on its way.  Each handler passes it
  on.
-/
import WormsAttack.Foundation.Machine
import WormsAttack.Foundation.Run
import WormsAttack.TcpApp.Handlers

namespace WormsAttack.TcpApp

open Foundation List Session

/-! ## Messages -/

def Segment.isData : Segment → Bool
  | .data _ => true
  | .fin => false

def Action.message : Action → Option GenericApplicationMessage
  | .send message => some message
  | _ => none

def dataIn (segments : List Segment) : Nat := segments.countP Segment.isData

def sentIn (out : List Action) : List GenericApplicationMessage := out.filterMap Action.message

def waitingIn (server : Option ServerThread) : Nat :=
  match server with
  | some t => t.replies.length
  | none => 0

/-- The requests and replies that have not arrived. -/
def Session.outstanding (s : Session) : Nat :=
  dataIn s.server.incoming + waitingIn s.server.thread + dataIn s.client.incoming

@[simp] theorem dataIn_data (message : GenericApplicationMessage) (segments : List Segment) :
    dataIn (.data message :: segments) = dataIn segments + 1 :=
  countP_cons_of_pos rfl

@[simp] theorem dataIn_fin (segments : List Segment) :
    dataIn (.fin :: segments) = dataIn segments :=
  countP_cons_of_neg Bool.false_ne_true

theorem dataIn_segments (out : List Action) :
    dataIn (out.filterMap Action.segment) = (sentIn out).length := by
  induction out with
  | nil => rfl
  | cons action out ih =>
    cases action with
    | connect | transmissionDone _ _ _ _ => exact ih
    | send message =>
      change dataIn (.data message :: out.filterMap Action.segment) = (message :: sentIn out).length
      rw [dataIn_data, ih, length_cons]
    | close =>
      change dataIn (.fin :: out.filterMap Action.segment) = (sentIn out).length
      rw [dataIn_fin, ih]

@[simp] theorem dataIn_append (segments : List Segment) (out : List Action) :
    dataIn (segments ++ out.filterMap Action.segment) = dataIn segments + (sentIn out).length := by
  rw [← dataIn_segments]
  exact countP_append

@[simp] theorem sentIn_append (out out' : List Action) :
    sentIn (out ++ out') = sentIn out ++ sentIn out' :=
  filterMap_append

/-! ## Sockets -/

variable {out : List Action} {s : Session} {t : ClientThread} {s' : Session} {e : Event}
  {t' : ServerThread} {msg : GenericApplicationMessage} {sent : Nat} {n : UInt64} {draw : Draw}
  {incoming : List Segment} {tr : List (Step Session Event (List Action))}

theorem send_ok {sock : SockState} {message : GenericApplicationMessage}
    (h : sock.send message = .ok out) : out = [.send message] := by
  unfold SockState.send at h
  split at h <;> cases h <;> rfl

theorem closeOnce_ok {sock sock' : SockState} (h : sock.closeOnce = .ok (sock', out)) :
    sentIn out = [] ∧ sock' ≠ .connecting := by
  unfold SockState.closeOnce at h
  split_ifs at h with hclosed
  · cases h
    exact ⟨rfl, by rw [hclosed]; decide⟩
  · unfold SockState.close at h
    split at h <;> cases h <;> exact ⟨rfl, by decide⟩

theorem peerCloses_ne (sock : SockState) : sock.peerCloses ≠ .connecting := by
  cases sock <;> decide

theorem scheduleAt_ok {isScheduled isScheduled' : Bool}
    (h : scheduleAt isScheduled = .ok isScheduled') : isScheduled' = true := by
  unfold scheduleAt at h
  split at h <;> cases h
  rfl

/-! ## The cases of an event -/

/-- An event that the client thread `t` handles.  That the connection is open is stated only
where something depends on it. -/
inductive ClientHandled (s : Session) (t : ClientThread) : Event → Session → List Action → Prop
  | timer {draw : Draw} {thread : Option ClientThread} {out : List Action} :
      t.isScheduled = true → t.timerExpired draw = .ok (thread, out) →
      ClientHandled s t (.clientTimer draw)
        (s.fromClient { s.client with thread := thread } out) out
  | established {draw : Draw} {t' : ClientThread} {out : List Action} :
      s.client.isOpen = true → t.socket = .connecting → t.socketEstablished draw = .ok (t', out) →
      ClientHandled s t (.clientEstablished draw)
        (s.fromClient { s.client with thread := some t' } out) out
  | data {msg : GenericApplicationMessage} {incoming : List Segment} {t' : ClientThread} :
      s.client.incoming = .data msg :: incoming → t.socketDataArrived msg = .ok t' →
      ClientHandled s t .clientSegment
        (s.fromClient { s.client with thread := some t', incoming := incoming } []) []
  | fin {incoming : List Segment} : s.client.incoming = .fin :: incoming →
      ClientHandled s t .clientSegment
        (s.fromClient { s.client with
          thread := some { t with socket := t.socket.peerCloses }, incoming := incoming } []) []
  | closed {t' : ClientThread} : t.socketClosed = .ok t' →
      ClientHandled s t .clientClosed
        (s.fromClient { s.client with thread := some t', isOpen := false } []) []
  | failure : ClientHandled s t .clientFailure
      (s.fromClient { s.client with thread := none, isOpen := false } [.transmissionDone 0 0 0 0])
      [.transmissionDone 0 0 0 0]

inductive ServerHandled (s : Session) (t : ServerThread) : Event → Session → List Action → Prop
  | timer {t' : ServerThread} {out : List Action} :
      t.isScheduled = true → t.timerExpired = .ok (t', out) →
      ServerHandled s t .serverTimer (s.fromServer { s.server with thread := some t' } out) out
  | data {msg : GenericApplicationMessage} {incoming : List Segment} {t' : ServerThread}
      {out : List Action} :
      s.server.incoming = .data msg :: incoming → t.socketDataArrived msg = .ok (t', out) →
      ServerHandled s t .serverSegment
        (s.fromServer { s.server with thread := some t', incoming := incoming } out) out
  | fin {incoming : List Segment} : s.server.incoming = .fin :: incoming →
      ServerHandled s t .serverSegment
        (s.fromServer { s.server with thread := some t.socketPeerClosed, incoming := incoming } [])
        []
  | closed : ServerHandled s t .serverClosed
      (s.fromServer { s.server with thread := none, isOpen := false } []) []
  | failure : ServerHandled s t .serverFailure
      (s.fromServer { s.server with thread := none, isOpen := false } []) []

theorem handleClient_cases (h : s.handleClient t e = .ok (s', out)) :
    ClientHandled s t e s' out := by
  cases e with
  | clientTimer draw =>
    obtain ⟨hscheduled, h⟩ := guard_eq_ok.mp h
    obtain ⟨⟨thread, out'⟩, htimer, h⟩ := bind_eq_ok.mp h
    cases h
    exact .timer hscheduled htimer
  | clientEstablished draw =>
    obtain ⟨hpossible, h⟩ := guard_eq_ok.mp h
    rw [Bool.and_eq_true, decide_eq_true_eq] at hpossible
    obtain ⟨⟨t', out'⟩, hestablished, h⟩ := bind_eq_ok.mp h
    cases h
    exact .established hpossible.1 hpossible.2 hestablished
  | clientSegment =>
    obtain ⟨-, h⟩ := guard_eq_ok.mp h
    split at h
    · cases h
    · rename_i hincoming
      obtain ⟨t', hdata, h⟩ := bind_eq_ok.mp h
      cases h
      exact .data hincoming hdata
    · rename_i hincoming
      cases h
      exact .fin hincoming
  | clientClosed =>
    obtain ⟨-, h⟩ := guard_eq_ok.mp h
    obtain ⟨t', hclosed, h⟩ := bind_eq_ok.mp h
    cases h
    exact .closed hclosed
  | clientFailure =>
    obtain ⟨-, h⟩ := guard_eq_ok.mp h
    cases h
    exact .failure
  | serverTimer | serverSegment | serverClosed | serverFailure => cases h

theorem handleServer_cases {t : ServerThread} (h : s.handleServer t e = .ok (s', out)) :
    ServerHandled s t e s' out := by
  cases e with
  | serverTimer =>
    obtain ⟨hscheduled, h⟩ := guard_eq_ok.mp h
    obtain ⟨⟨t', out'⟩, htimer, h⟩ := bind_eq_ok.mp h
    cases h
    exact .timer hscheduled htimer
  | serverSegment =>
    obtain ⟨-, h⟩ := guard_eq_ok.mp h
    split at h
    · cases h
    · rename_i hincoming
      obtain ⟨⟨t', out'⟩, hdata, h⟩ := bind_eq_ok.mp h
      cases h
      exact .data hincoming hdata
    · rename_i hincoming
      cases h
      exact .fin hincoming
  | serverClosed =>
    obtain ⟨-, h⟩ := guard_eq_ok.mp h
    cases h
    exact .closed
  | serverFailure =>
    obtain ⟨-, h⟩ := guard_eq_ok.mp h
    cases h
    exact .failure
  | clientTimer | clientEstablished | clientSegment | clientClosed | clientFailure => cases h

/-! ## The server -/

def ServerThread.Timed (t : ServerThread) : Prop := t.isScheduled = true ↔ t.replies ≠ []

theorem closeIfLast_ok {t : ServerThread} (h : t.closeIfLast = .ok (t', out)) :
    sentIn out = [] ∧ t'.replies = t.replies ∧ t'.isScheduled = t.isScheduled := by
  unfold ServerThread.closeIfLast at h
  split at h
  · obtain ⟨⟨socket, out'⟩, hclose, h⟩ := bind_eq_ok.mp h
    cases h
    exact ⟨(closeOnce_ok hclose).1, rfl, rfl⟩
  · cases h
    exact ⟨rfl, rfl, rfl⟩

theorem serverTimer_ok {t : ServerThread} (h : t.timerExpired = .ok (t', out)) :
    (sentIn out).length + t'.replies.length = t.replies.length ∧ t'.isScheduled = false ∧
      t'.replies = t.replies.tail := by
  unfold ServerThread.timerExpired at h
  dsimp only at h
  split at h
  · rename_i hnone
    obtain ⟨hsent, hreplies, hscheduled⟩ := closeIfLast_ok h
    rw [hsent, hreplies, hscheduled, hnone]
    exact ⟨rfl, rfl, rfl⟩
  · rename_i reply replies hreplies
    obtain ⟨sent, hsend, h⟩ := bind_eq_ok.mp h
    obtain ⟨⟨t₁, closed⟩, hclose, h⟩ := bind_eq_ok.mp h
    cases h
    obtain ⟨hsent, hreplies', hscheduled⟩ := closeIfLast_ok hclose
    rw [send_ok hsend, sentIn_append, hsent, hreplies', hscheduled, hreplies]
    exact ⟨Nat.add_comm _ _, rfl, rfl⟩

theorem serverData_ok {t : ServerThread} (h : t.socketDataArrived msg = .ok (t', out)) :
    (sentIn out).length + t'.replies.length ≤ t.replies.length + 1 ∧ (t.Timed → t'.Timed) := by
  unfold ServerThread.socketDataArrived at h
  split at h
  · cases h
    exact ⟨by simp [sentIn], id⟩
  · split at h
    · obtain ⟨isScheduled, hschedule, h⟩ := bind_eq_ok.mp h
      cases h
      refine ⟨by simp [sentIn], fun _ => iff_of_true (scheduleAt_ok hschedule) ?_⟩
      exact append_ne_nil_of_right_ne_nil _ (cons_ne_nil _ _)
    · obtain ⟨sent, hsend, h⟩ := bind_eq_ok.mp h
      obtain ⟨⟨t₁, closed⟩, hclose, h⟩ := bind_eq_ok.mp h
      cases h
      obtain ⟨hsent, hreplies, hscheduled⟩ := closeIfLast_ok hclose
      refine ⟨?_, fun htimed => ?_⟩
      · rw [send_ok hsend, sentIn_append, hsent, hreplies]
        exact Nat.le_of_eq (Nat.add_comm _ _)
      · rw [ServerThread.Timed, hscheduled, hreplies]
        exact htimed

structure ServerEffect (s s' : Session) : Prop where
  thread : s'.client.thread = s.client.thread
  isOpen : s'.client.isOpen = s.client.isOpen
  outstanding : s'.outstanding ≤ s.outstanding
  timed : ∀ t, s'.server.thread = some t → t.Timed

/-- The actions of the server thread `t'` leave no more messages than there were. -/
theorem fromServer_effect {server : End ServerThread}
    (hcount : dataIn server.incoming + waitingIn server.thread + (sentIn out).length ≤
      dataIn s.server.incoming + waitingIn s.server.thread)
    (htimed : ∀ t, server.thread = some t → t.Timed) :
    ServerEffect s (s.fromServer server out) := by
  refine ⟨rfl, rfl, ?_, htimed⟩
  simp only [outstanding, fromServer, dataIn_append]
  omega

theorem handleServer_effect {t : ServerThread} (hthread : s.server.thread = some t)
    (htimed : t.Timed) (hone : s.outstanding ≤ 1) (h : s.handleServer t e = .ok (s', out)) :
    ServerEffect s s' := by
  have hwaiting : waitingIn s.server.thread = t.replies.length := by rw [hthread]; rfl
  have hfew : t.replies.length ≤ 1 := by
    unfold outstanding at hone
    omega
  -- without a thread nothing waits
  have hgone : ServerEffect s (s.fromServer { s.server with thread := none, isOpen := false } []) :=
    fromServer_effect (by simp [waitingIn, sentIn]) fun t ht => by cases ht
  cases handleServer_cases h with
  | @timer t' _ _ htimer =>
    obtain ⟨hsent, hscheduled, htail⟩ := serverTimer_ok htimer
    refine fromServer_effect ?_ fun t₁ ht₁ => ?_
    · rw [hwaiting]
      simp only [waitingIn]
      omega
    · cases ht₁
      have hnil : t'.replies = [] := by
        rw [← length_eq_zero_iff, htail, length_tail]
        omega
      rw [ServerThread.Timed, hscheduled, hnil]
      decide
  | data hincoming hdata =>
    obtain ⟨hcount, hkeeps⟩ := serverData_ok hdata
    refine fromServer_effect ?_ fun t₁ ht₁ => ?_
    · rw [hwaiting, hincoming, dataIn_data]
      simp only [waitingIn]
      omega
    · cases ht₁
      exact hkeeps htimed
  | fin hincoming =>
    refine fromServer_effect ?_ fun t₁ ht₁ => ?_
    · rw [hwaiting, hincoming, dataIn_fin]
      exact Nat.le_refl _
    · cases ht₁
      exact htimed
  | closed | failure => exact hgone

/-! ## The client -/

/-- The number of requests of a session, for what `noRequestsToSend` is set to. -/
def total (noRequestsToSend : UInt64) : Nat := max 1 noRequestsToSend.toNat

/-- A client thread that has sent `sent` of `total n` requests; its timer is the token, if it is
scheduled. -/
def ClientThread.InTurn (n : UInt64) (sent outstanding : Nat) (isOpen : Bool)
    (t : ClientThread) : Prop :=
  match t.threadState with
  | .waiting =>
      sent = 0 ∧ outstanding = 0 ∧ isOpen = true ∧ t.noRequestsToSend = n ∧
        (t.socket = .connecting → t.isScheduled = false)
  | .connected =>
      0 < t.noRequestsToSend.toNat ∧ sent + t.noRequestsToSend.toNat = total n ∧
        isOpen = true ∧ t.socket ≠ .connecting ∧ (t.isScheduled = true → outstanding = 0)
  | .disconnected =>
      sent = total n ∧ isOpen = true ∧ t.socket ≠ .connecting ∧
        (t.isScheduled = true → outstanding = 0)
  | .finish => isOpen = false

theorem ClientThread.InTurn.next {t' : ClientThread} {outstanding outstanding' : Nat}
    {isOpen : Bool} (h : t.InTurn n sent outstanding isOpen)
    (hstate : t'.threadState = t.threadState) (hn : t'.noRequestsToSend = t.noRequestsToSend)
    (hsocket : t.socket ≠ .connecting → t'.socket ≠ .connecting)
    (hwaiting : outstanding = 0 → (t.socket = .connecting → t.isScheduled = false) →
      outstanding' = 0 ∧ (t'.socket = .connecting → t'.isScheduled = false))
    (htimer : (t.isScheduled = true → outstanding = 0) → t'.isScheduled = true →
      outstanding' = 0) :
    t'.InTurn n sent outstanding' isOpen := by
  unfold InTurn at h ⊢
  rw [hstate, hn]
  split at h
  · obtain ⟨hsent, hidle, hopen, hrequests, hconnecting⟩ := h
    obtain ⟨hidle', hconnecting'⟩ := hwaiting hidle hconnecting
    exact ⟨hsent, hidle', hopen, hrequests, hconnecting'⟩
  · obtain ⟨hpos, hcount, hopen, hne, hidle⟩ := h
    exact ⟨hpos, hcount, hopen, hsocket hne, htimer hidle⟩
  · obtain ⟨hsent, hopen, hne, hidle⟩ := h
    exact ⟨hsent, hopen, hsocket hne, htimer hidle⟩
  · exact h

theorem toNat_atLeastOne (n : UInt64) : (if n < 1 then 1 else n).toNat = total n := by
  unfold total
  split_ifs with hless
  · have hzero : n.toNat < 1 := UInt64.lt_iff_toNat_lt.mp hless
    change 1 = _
    omega
  · have hpos : ¬ n.toNat < (1 : UInt64).toNat := mt UInt64.lt_iff_toNat_lt.mpr hless
    change ¬ n.toNat < 1 at hpos
    omega

theorem sendRequest_turn {t' : ClientThread} (h : t.sendRequest draw = .ok (t', out))
    (hstate : t.threadState = .connected) (hpos : 0 < t.noRequestsToSend.toNat)
    (hcount : sent + t.noRequestsToSend.toNat = total n) (hsocket : t.socket ≠ .connecting)
    (hscheduled : t.isScheduled = false) :
    ∃ m, out = [.send m] ∧ (m.last = true ↔ sent + 1 = total n) ∧
      t'.InTurn n (sent + 1) 1 true := by
  obtain ⟨out', hsend, h⟩ := bind_eq_ok.mp h
  cases h
  have hzero : t.noRequestsToSend - 1 ≤ 0 ↔ sent + 1 = total n := by
    rw [UInt64.le_iff_toNat_le, toNat_sub_one hpos]
    change _ ≤ 0 ↔ _
    omega
  refine ⟨_, send_ok hsend, ?_, ?_⟩
  · rw [decide_eq_true_eq, hstate]
    split
    · rename_i hlast
      exact iff_of_true rfl (hzero.mp hlast)
    · rename_i hmore
      exact iff_of_false ThreadState.noConfusion (mt hzero.mpr hmore)
  · unfold ClientThread.InTurn
    rw [hstate]
    split_ifs with hlast
    · exact ⟨hzero.mp hlast, rfl, hsocket, fun hyes => by rw [hscheduled] at hyes; cases hyes⟩
    have hmore := mt hzero.mpr hlast
    rw [toNat_sub_one hpos]
    refine ⟨?_, ?_, rfl, hsocket, fun hyes => by rw [hscheduled] at hyes; cases hyes⟩
    · omega
    · omega

structure ClientEffect (n : UInt64) (sent : Nat) (s s' : Session) (out : List Action) : Prop where
  thread : s'.server.thread = s.server.thread
  outstanding : s'.outstanding ≤ 1
  turn : ∀ t, s'.client.thread = some t →
    t.InTurn n (sent + (sentIn out).length) s'.outstanding s'.client.isOpen
  requests : sentIn out = [] ∨
    ∃ m, sentIn out = [m] ∧ sent < total n ∧ (m.last = true ↔ sent + 1 = total n)

theorem outstanding_fromClient (s : Session) (client : End ClientThread) (out : List Action) :
    (s.fromClient client out).outstanding =
      dataIn s.server.incoming + waitingIn s.server.thread + (sentIn out).length +
        dataIn client.incoming := by
  simp only [outstanding, fromClient, dataIn_append]
  omega

theorem ClientEffect.of_sent_nil {client : End ClientThread} (hnil : sentIn out = [])
    (hone : s.outstanding ≤ 1) (hincoming : dataIn client.incoming ≤ dataIn s.client.incoming)
    (hturn : ∀ t, client.thread = some t → t.InTurn n sent
      (dataIn s.server.incoming + waitingIn s.server.thread + dataIn client.incoming)
      client.isOpen) : ClientEffect n sent s (s.fromClient client out) out := by
  have hout := outstanding_fromClient s client out
  rw [hnil, length_nil, Nat.add_zero] at hout
  refine ⟨rfl, ?_, fun t ht => ?_, .inl hnil⟩
  · unfold Session.outstanding at hone
    omega
  · rw [hnil, length_nil, Nat.add_zero, hout]
    exact hturn t ht

theorem ClientEffect.of_request {m : GenericApplicationMessage} (hidle : s.outstanding = 0)
    (hopen : s.client.isOpen = true) (hless : sent < total n)
    (hlast : m.last = true ↔ sent + 1 = total n) (hturn : t.InTurn n (sent + 1) 1 true) :
    ClientEffect n sent s (s.fromClient { s.client with thread := some t } [.send m])
      [.send m] := by
  have hout : (s.fromClient { s.client with thread := some t } [.send m]).outstanding = 1 := by
    rw [outstanding_fromClient]
    unfold Session.outstanding at hidle
    change dataIn s.server.incoming + waitingIn s.server.thread + 1 + dataIn s.client.incoming = 1
    omega
  refine ⟨rfl, Nat.le_of_eq hout, fun t' ht' => ?_, .inr ⟨m, rfl, hless, hlast⟩⟩
  cases ht'
  rw [hout]
  change t.InTurn n (sent + 1) 1 s.client.isOpen
  rw [hopen]
  exact hturn

variable (hturn : t.InTurn n sent s.outstanding s.client.isOpen)

include hturn

theorem clientTimer_effect {thread : Option ClientThread} (hone : s.outstanding ≤ 1)
    (hscheduled : t.isScheduled = true) (htimer : t.timerExpired draw = .ok (thread, out)) :
    ClientEffect n sent s (s.fromClient { s.client with thread := thread } out) out := by
  unfold ClientThread.timerExpired at htimer
  dsimp only at htimer
  split at htimer
  · rename_i hstate
    rw [ClientThread.InTurn, hstate] at hturn
    obtain ⟨hsent, hidle, hopen, hn, -⟩ := hturn
    obtain ⟨socket, -, htimer⟩ := bind_eq_ok.mp htimer
    cases htimer
    refine .of_sent_nil rfl hone (Nat.le_refl _) fun t' ht' => ?_
    cases ht'
    rw [ClientThread.InTurn, hstate]
    exact ⟨hsent, hidle, hopen, hn, fun _ => rfl⟩
  · rename_i hstate
    rw [ClientThread.InTurn, hstate] at hturn
    obtain ⟨hpos, hcount, hopen, hsocket, hidle⟩ := hturn
    obtain ⟨⟨t', out''⟩, hrequest, htimer⟩ := bind_eq_ok.mp htimer
    cases htimer
    obtain ⟨m, rfl, hlast, hturn'⟩ := sendRequest_turn hrequest hstate hpos hcount hsocket rfl
    exact .of_request (hidle hscheduled) hopen (by omega) hlast hturn'
  · rename_i hstate
    rw [ClientThread.InTurn, hstate] at hturn
    obtain ⟨hsent, hopen, -, -⟩ := hturn
    obtain ⟨⟨socket, out''⟩, hclose, htimer⟩ := bind_eq_ok.mp htimer
    cases htimer
    obtain ⟨hnil, hsocket⟩ := closeOnce_ok hclose
    refine .of_sent_nil hnil hone (Nat.le_refl _) fun t' ht' => ?_
    cases ht'
    rw [ClientThread.InTurn, hstate]
    exact ⟨hsent, hopen, hsocket, Bool.noConfusion⟩
  · cases htimer
    refine .of_sent_nil rfl hone (Nat.le_refl _) fun t' ht' => ?_
    cases ht'

theorem clientEstablished_effect {t' : ClientThread} (hopen : s.client.isOpen = true)
    (hsocket : t.socket = .connecting) (hrequest : t.socketEstablished draw = .ok (t', out)) :
    ClientEffect n sent s (s.fromClient { s.client with thread := some t' } out) out := by
  unfold ClientThread.InTurn at hturn
  split at hturn
  · obtain ⟨rfl, hidle, -, rfl, hscheduled⟩ := hturn
    have hnumber := toNat_atLeastOne t.noRequestsToSend
    have hleast : 0 < total t.noRequestsToSend := Nat.le_max_left 1 _
    have hpos : 0 < (if t.noRequestsToSend < 1 then 1 else t.noRequestsToSend).toNat := by
      rw [hnumber]
      exact hleast
    obtain ⟨m, rfl, hlast, hturn'⟩ := sendRequest_turn hrequest rfl hpos
      ((Nat.zero_add _).trans hnumber) SockState.noConfusion (hscheduled hsocket)
    exact .of_request hidle hopen hleast hlast hturn'
  · exact absurd hsocket hturn.2.2.2.1
  · exact absurd hsocket hturn.2.2.1
  · rw [hturn] at hopen
    cases hopen

theorem clientData_effect {t' : ClientThread} (hone : s.outstanding ≤ 1)
    (hincoming : s.client.incoming = .data msg :: incoming)
    (hdata : t.socketDataArrived msg = .ok t') :
    ClientEffect n sent s
      (s.fromClient { s.client with thread := some t', incoming := incoming } []) [] := by
  obtain ⟨isScheduled, -, hdata⟩ := bind_eq_ok.mp hdata
  cases hdata
  have hdata := dataIn_data msg incoming
  rw [← hincoming] at hdata
  -- the reply was the token, and now the timer is
  have hidle : dataIn s.server.incoming + waitingIn s.server.thread + dataIn incoming = 0 := by
    unfold outstanding at hone
    omega
  refine .of_sent_nil rfl hone (by dsimp only; omega) fun t' ht' => ?_
  cases ht'
  refine hturn.next rfl rfl id (fun hzero _ => ?_) fun _ _ => hidle
  unfold outstanding at hzero
  omega

theorem clientFin_effect
    (hone : s.outstanding ≤ 1) (hincoming : s.client.incoming = .fin :: incoming) :
    ClientEffect n sent s
      (s.fromClient { s.client with
        thread := some { t with socket := t.socket.peerCloses }, incoming := incoming } []) [] := by
  have hfin := dataIn_fin incoming
  rw [← hincoming] at hfin
  refine .of_sent_nil rfl hone (by dsimp only; omega) fun t' ht' => ?_
  cases ht'
  have hsame : dataIn s.server.incoming + waitingIn s.server.thread + dataIn incoming =
      s.outstanding := by
    unfold outstanding
    omega
  have hsocket := peerCloses_ne t.socket
  rw [hsame]
  exact hturn.next rfl rfl (fun _ => hsocket)
    (fun hidle _ => ⟨hidle, fun hconnecting => absurd hconnecting hsocket⟩) id

theorem handleClient_effect (hone : s.outstanding ≤ 1) (h : s.handleClient t e = .ok (s', out)) :
    ClientEffect n sent s s' out := by
  cases handleClient_cases h with
  | timer hscheduled htimer => exact clientTimer_effect hturn hone hscheduled htimer
  | established hopen hsocket hrequest =>
    exact clientEstablished_effect hturn hopen hsocket hrequest
  | data hincoming hdata => exact clientData_effect hturn hone hincoming hdata
  | fin hincoming => exact clientFin_effect hturn hone hincoming
  | closed hclosed =>
    cases hclosed
    refine .of_sent_nil rfl hone (Nat.le_refl _) fun t' ht' => ?_
    cases ht'
    rfl
  | failure =>
    refine .of_sent_nil rfl hone (Nat.le_refl _) fun t' ht' => ?_
    cases ht'

omit hturn

/-! ## Runs -/

def requests : List (Step Session Event (List Action)) → List GenericApplicationMessage
  | [] => []
  | st :: tr => requests tr ++ if st.event.isClient then sentIn st.out else []

structure Token (n : UInt64) (tr : List (Step Session Event (List Action))) (s : Session) :
    Prop where
  outstanding : s.outstanding ≤ 1
  timed : ∀ t, s.server.thread = some t → t.Timed
  turn : ∀ t, s.client.thread = some t →
    t.InTurn n (requests tr).length s.outstanding s.client.isOpen
  sent : (requests tr).length ≤ total n
  last : ∀ k m, (requests tr)[k]? = some m → (m.last = true ↔ k + 1 = total n)

theorem token_start (requestsPerSession : Int32) :
    Token requestsPerSession.toInt64.toUInt64 [] (start requestsPerSession) := by
  refine ⟨Nat.zero_le 1, ?_, ?_, Nat.zero_le _, ?_⟩
  · intro t ht
    cases ht
    exact iff_of_false Bool.noConfusion fun h => h rfl
  · intro t ht
    cases ht
    exact ⟨rfl, rfl, rfl, rfl, SockState.noConfusion⟩
  · intro k m hm
    cases hm

theorem token_step (h : Token n tr s) (hstep : step s e = .ok (s', out)) :
    Token n (⟨s, e, out⟩ :: tr) s' := by
  unfold step at hstep
  split at hstep
  · rename_i hclient
    split at hstep
    · rename_i t hthread
      obtain ⟨hserver, hone, hturn, hrequests⟩ :=
        handleClient_effect (h.turn t hthread) h.outstanding hstep
      have hsent : requests (⟨s, e, out⟩ :: tr) = requests tr ++ sentIn out := by
        rw [requests, if_pos hclient]
      have hlength : (requests (⟨s, e, out⟩ :: tr)).length =
          (requests tr).length + (sentIn out).length := by
        rw [hsent, length_append]
      refine ⟨hone, fun t' ht' => h.timed t' (hserver ▸ ht'), fun t' ht' => ?_, ?_, ?_⟩
      · rw [hlength]
        exact hturn t' ht'
      · rw [hlength]
        rcases hrequests with hnil | ⟨m, hm, hless, -⟩
        · rw [hnil]
          exact h.sent
        · rw [hm]
          exact hless
      · intro k m hm
        rw [hsent] at hm
        rcases hrequests with hnil | ⟨m', hm', -, hlast⟩
        · rw [hnil, append_nil] at hm
          exact h.last k m hm
        · rw [hm'] at hm
          rcases getElem?_concat_eq_some.mp hm with hold | ⟨rfl, rfl⟩
          · exact h.last k m hold
          · exact hlast
    · cases hstep
  · rename_i hserver
    split at hstep
    · rename_i t hthread
      obtain ⟨hclient, hopen, hless, htimed⟩ :=
        handleServer_effect hthread (h.timed t hthread) h.outstanding hstep
      have hsent : requests (⟨s, e, out⟩ :: tr) = requests tr := by
        rw [requests, if_neg hserver, append_nil]
      refine ⟨Nat.le_trans hless h.outstanding, htimed, fun t' ht' => ?_, ?_, ?_⟩
      · rw [hsent, hopen]
        refine (h.turn t' (hclient ▸ ht')).next rfl rfl id (fun hidle hrest => ⟨?_, hrest⟩)
          fun hidle hscheduled => ?_
        · omega
        · have := hidle hscheduled
          omega
      · rw [hsent]
        exact h.sent
      · rw [hsent]
        exact h.last
    · cases hstep

theorem token_run {requestsPerSession : Int32} (h : Run step (start requestsPerSession) tr s) :
    Token requestsPerSession.toInt64.toUInt64 tr s :=
  h.invariant (token_start requestsPerSession) fun _ _ _ _ _ htoken hstep =>
    token_step htoken hstep

/-! ## Timers -/

theorem send_ne (sock : SockState) (message : GenericApplicationMessage) :
    sock.send message ≠ .error .alreadyScheduled := by
  unfold SockState.send
  split <;> simp

theorem closeOnce_ne (sock : SockState) : sock.closeOnce ≠ .error .alreadyScheduled := by
  cases sock <;> decide

theorem closeIfLast_ne (t : ServerThread) : t.closeIfLast ≠ .error .alreadyScheduled := by
  unfold ServerThread.closeIfLast
  split
  · exact bind_ne_error (closeOnce_ne t.socket) fun _ _ => ok_ne_error
  · exact ok_ne_error

theorem sendRequest_ne (t : ClientThread) (draw : Draw) :
    t.sendRequest draw ≠ .error .alreadyScheduled :=
  bind_ne_error (send_ne t.socket _) fun _ _ => ok_ne_error

theorem scheduleAt_ne {isScheduled : Bool} (h : isScheduled = false) :
    scheduleAt isScheduled ≠ .error .alreadyScheduled := by
  rw [h]
  exact ok_ne_error

/-- A message for the client is the token, so its timer is not scheduled. -/
theorem Token.client_idle (h : Token n tr s) (hthread : s.client.thread = some t)
    (hopen : s.client.isOpen = true) (hincoming : s.client.incoming = .data msg :: incoming) :
    t.isScheduled = false := by
  have hbusy : s.outstanding ≠ 0 := by
    rw [Session.outstanding, hincoming, dataIn_data]
    omega
  have hturn := h.turn t hthread
  unfold ClientThread.InTurn at hturn
  split at hturn
  · exact absurd hturn.2.1 hbusy
  · exact Bool.eq_false_iff.mpr fun hscheduled => hbusy (hturn.2.2.2.2 hscheduled)
  · exact Bool.eq_false_iff.mpr fun hscheduled => hbusy (hturn.2.2.2 hscheduled)
  · rw [hturn] at hopen
    cases hopen

theorem Token.server_idle (h : Token n tr s) {t : ServerThread} (hthread : s.server.thread = some t)
    (hincoming : s.server.incoming = .data msg :: incoming) : t.isScheduled = false := by
  have hone := h.outstanding
  rw [Session.outstanding, hincoming, dataIn_data, hthread] at hone
  have hnil : t.replies = [] := by
    rw [← length_eq_zero_iff]
    change _ + t.replies.length + _ ≤ 1 at hone
    omega
  exact Bool.eq_false_iff.mpr fun hscheduled => (h.timed t hthread).mp hscheduled hnil

theorem handleClient_ne (h : Token n tr s) (hthread : s.client.thread = some t) (e : Event) :
    s.handleClient t e ≠ .error .alreadyScheduled := by
  cases e with
  | clientTimer draw =>
    refine guard_ne_error (by decide) fun _ => bind_ne_error ?_ fun _ _ => ok_ne_error
    unfold ClientThread.timerExpired
    dsimp only
    split
    · refine bind_ne_error ?_ fun _ _ => ok_ne_error
      cases t.socket <;> decide
    · exact bind_ne_error (sendRequest_ne _ draw) fun _ _ => ok_ne_error
    · exact bind_ne_error (closeOnce_ne t.socket) fun _ _ => ok_ne_error
    · exact ok_ne_error
  | clientEstablished draw =>
    exact guard_ne_error (by decide) fun _ =>
      bind_ne_error (sendRequest_ne _ draw) fun _ _ => ok_ne_error
  | clientSegment =>
    refine guard_ne_error (by decide) fun hopen => ?_
    split
    · decide
    · rename_i msg incoming hincoming
      have hidle := h.client_idle hthread hopen hincoming
      exact bind_ne_error (bind_ne_error (scheduleAt_ne hidle) fun _ _ => ok_ne_error)
        fun _ _ => ok_ne_error
    · exact ok_ne_error
  | clientClosed =>
    exact guard_ne_error (by decide) fun _ =>
      bind_ne_error (bind_ne_error (scheduleAt_ne rfl) fun _ _ => ok_ne_error)
        fun _ _ => ok_ne_error
  | clientFailure => exact guard_ne_error (by decide) fun _ => ok_ne_error
  | serverTimer | serverSegment | serverClosed | serverFailure => simp [handleClient]

theorem handleServer_ne (h : Token n tr s) {t : ServerThread} (hthread : s.server.thread = some t)
    (e : Event) : s.handleServer t e ≠ .error .alreadyScheduled := by
  cases e with
  | serverTimer =>
    refine guard_ne_error (by decide) fun _ => bind_ne_error ?_ fun _ _ => ok_ne_error
    unfold ServerThread.timerExpired
    dsimp only
    split
    · exact closeIfLast_ne _
    · exact bind_ne_error (send_ne _ _) fun _ _ =>
        bind_ne_error (closeIfLast_ne _) fun _ _ => ok_ne_error
  | serverSegment =>
    refine guard_ne_error (by decide) fun _ => ?_
    split
    · decide
    · rename_i msg incoming hincoming
      have hidle := h.server_idle hthread hincoming
      refine bind_ne_error ?_ fun _ _ => ok_ne_error
      unfold ServerThread.socketDataArrived
      split
      · exact ok_ne_error
      split
      · exact bind_ne_error (scheduleAt_ne hidle) fun _ _ => ok_ne_error
      · exact bind_ne_error (send_ne _ _) fun _ _ =>
          bind_ne_error (closeIfLast_ne _) fun _ _ => ok_ne_error
    · exact ok_ne_error
  | serverClosed | serverFailure => exact guard_ne_error (by decide) fun _ => ok_ne_error
  | clientTimer _ | clientEstablished _ | clientSegment | clientClosed | clientFailure =>
    simp [handleServer]

theorem step_ne (h : Token n tr s) (e : Event) : step s e ≠ .error .alreadyScheduled := by
  unfold step
  split
  · split
    · rename_i t hthread
      exact handleClient_ne h hthread e
    · decide
  · split
    · rename_i t hthread
      exact handleServer_ne h hthread e
    · decide

/-! ## The number of requests -/

/-- Requests and replies take turns, no timer is scheduled twice, and the client sends the requests
that were drawn. -/
structure Orderly (requestsPerSession : Int32) (tr : List (Step Session Event (List Action)))
    (s : Session) : Prop where
  outstanding : s.outstanding ≤ 1
  timers : ∀ e, step s e ≠ .error .alreadyScheduled
  sent : ((requests tr).length : Int) ≤ max 1 requestsPerSession.toInt
  last : ∀ (k : Nat) m, (requests tr)[k]? = some m →
    (m.last = true ↔ (k + 1 : Int) = max 1 requestsPerSession.toInt)

def noDraw : Draw := { requestLength := 1, replyLength := 1, timeToRespond := 0 }

def connects : List Event := [.clientTimer noDraw, .clientEstablished noDraw]

theorem exists_request (requestsPerSession : Int32) :
    ∃ tr s, Run step (start requestsPerSession) tr s ∧ (requests tr).length = 1 :=
  have hrun : replays step (start requestsPerSession) connects = true := rfl
  ⟨_, _, run_of_replays hrun, rfl⟩

/-- All sessions are orderly just when the number of requests is not negative. -/
theorem session_orderly_iff (requestsPerSession : Int32) :
    (∀ tr s, Run step (Session.start requestsPerSession) tr s → Orderly requestsPerSession tr s) ↔
      0 ≤ requestsPerSession := by
  have hnumber := toNat_toUInt64 requestsPerSession
  rw [Int32.le_iff_toInt_le]
  change _ ↔ 0 ≤ requestsPerSession.toInt
  constructor
  · intro h
    by_contra hneg
    obtain ⟨tr, s, hrun, hone⟩ := exists_request requestsPerSession
    obtain ⟨m, hm⟩ := length_eq_one_iff.mp hone
    have hfirst : (requests tr)[0]? = some m := by
      rw [hm]
      rfl
    -- the request is announced as the last one only if one request is all that is counted
    have hcounted := (token_run hrun).last 0 m hfirst
    have hwanted := (h tr s hrun).last 0 m hfirst
    have hlarge : total requestsPerSession.toInt64.toUInt64 ≠ 0 + 1 := by
      unfold total
      have := requestsPerSession.le_toInt
      omega
    exact hlarge (hcounted.mp (hwanted.mpr (by omega))).symm
  · intro hpos tr s hrun
    have htoken := token_run hrun
    have htotal : (total requestsPerSession.toInt64.toUInt64 : Int) =
        max 1 requestsPerSession.toInt := by
      unfold total
      omega
    refine ⟨htoken.outstanding, step_ne htoken, ?_, fun k m hm => ?_⟩
    · rw [← htotal]
      exact Int.ofNat_le.mpr htoken.sent
    · rw [← htotal, htoken.last k m hm]
      omega

/-- With a number of requests below zero the first request is all that should be sent, and
does not say so. -/
theorem negative_session_goes_on :
    (requests (replayTrace step (Session.start (-1)) connects)).map (·.last) = [false] ∧
      Run step (Session.start (-1)) (replayTrace step (Session.start (-1)) connects)
        (replayState step (Session.start (-1)) connects) ∧
      ¬ Orderly (-1) (replayTrace step (Session.start (-1)) connects)
        (replayState step (Session.start (-1)) connects) := by
  have hfirst : (requests (replayTrace step (start (-1)) connects)).map (·.last) =
      [false] := by decide +kernel
  have hrun : replays step (start (-1)) connects = true := rfl
  refine ⟨hfirst, run_of_replays hrun, fun h => ?_⟩
  obtain ⟨m, hm, hlast⟩ := map_eq_singleton_iff.mp hfirst
  have hget : (requests (replayTrace step (start (-1)) connects))[0]? = some m := by
    rw [hm]
    rfl
  have hsaid := (h.last 0 m hget).mpr (by decide)
  rw [hlast] at hsaid
  cases hsaid

end WormsAttack.TcpApp
