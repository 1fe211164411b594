/-
  Replies start no threads.
-/
import WormsAttack.Foundation.Network
import WormsAttack.Udp.Transition

namespace WormsAttack.Udp

open Foundation Inet

/-! ## The network -/

/-- What the hosts share: the next socket id, and all messages that have been sent. -/
structure Medium where
  uniqueNumber : Nat
  sent : List GenericApplicationMessage

def Event.possible (sent : List GenericApplicationMessage) : Event → Bool
  | .datagram msg _ => msg ∈ sent
  | _ => true

def handle {ι : Type} (_ : ι) (medium : Medium) (app : Application) (e : Event) :
    Except Stop (Medium × Application × List Action) :=
  if e.possible medium.sent then do
    let (app, out) ← app.handle medium.uniqueNumber e
    .ok
      ({ uniqueNumber := medium.uniqueNumber + 1
         sent := medium.sent ++ sentIn out }, app, out)
  else .error .unsent

def start {ι : Type} (uniqueNumber : Nat) (members : ι → Application) :
    Network ι Medium Application :=
  ⟨⟨uniqueNumber, []⟩, members⟩

def Application.Initial (app : Application) : Prop :=
  ∃ sockId isServer port noThreads out,
    Application.initial sockId isServer port noThreads = .ok (app, out)

theorem valid_initial {app : Application} (h : app.Initial) : app.Valid := by
  obtain ⟨sockId, isServer, port, noThreads, out, hok⟩ := h
  obtain ⟨⟨mySocket, bound⟩, -, hok⟩ := bind_eq_ok.mp hok
  cases hok
  exact fun _ hthread => absurd hthread List.not_mem_nil

def Event.isFirstRequest : Event → Bool
  | .datagram msg _ => msg.isFirst && msg.name = .udpRequestData
  | _ => false

def OnlyRequests (sent : List GenericApplicationMessage) : Prop :=
  ∀ m ∈ sent, m.packetNumber = 1 → m.name = .udpRequestData

theorem isFirst_eq_isFirstRequest {sent : List GenericApplicationMessage} (h : OnlyRequests sent)
    {e : Event} (hpossible : e.possible sent = true) : e.isFirst = e.isFirstRequest := by
  cases e with
  | datagram msg ctrl =>
    have hmem : msg ∈ sent := of_decide_eq_true hpossible
    by_cases hfirst : msg.packetNumber = 1
    · simp [Event.isFirst, Event.isFirstRequest, h msg hmem hfirst]
    · simp [Event.isFirst, Event.isFirstRequest, GenericApplicationMessage.isFirst, hfirst]
  | _ => rfl

/-- One request sends one fragment with number 1, and one such fragment starts one thread. -/
def Proper (app : Application) (e : Event) (out : List Action) : Prop :=
  (sentIn out).countP (·.isFirst) = (if app.sendsRequest e then 1 else 0) ∧
    startedIn out = if e.isFirstRequest then 1 else 0

theorem handle_proper {ι : Type} {a : ι} {medium medium' : Medium} {app app' : Application}
    {e : Event} {out : List Action} (hsent : OnlyRequests medium.sent) (hvalid : app.Valid)
    (hok : handle a medium app e = .ok (medium', app', out)) :
    OnlyRequests medium'.sent ∧ app'.Valid ∧ Proper app e out := by
  obtain ⟨hpossible, hok⟩ := guard_eq_ok.mp hok
  obtain ⟨⟨app₁, out₁⟩, hhandle, hok⟩ := bind_eq_ok.mp hok
  cases hok
  have heffect := handle_effect hvalid hhandle
  refine ⟨?_, heffect.valid, heffect.requests, ?_⟩
  · intro m hm
    rcases List.mem_append.mp hm with hm | hm
    · exact hsent m hm
    · exact heffect.replies m hm
  · rw [← isFirst_eq_isFirstRequest hsent hpossible]
    exact heffect.threads

section Runs

variable {ι : Type} [DecidableEq ι]

abbrev Trace (ι : Type) := List (Step (Network ι Medium Application) (ι × Event) (List Action))

theorem run_proper {uniqueNumber : Nat} {members : ι → Application}
    (hinitial : ∀ a, (members a).Initial) {tr : Trace ι} {n : Network ι Medium Application}
    (h : Run (Network.step handle) (start uniqueNumber members) tr n) :
    OnlyRequests n.shared.sent ∧
      ∀ st ∈ tr, Proper (st.pre.members st.event.1) st.event.2 st.out := by
  have hnone : OnlyRequests (start uniqueNumber members).shared.sent := by
    intro m hm
    cases hm
  obtain ⟨hsent, -, hsteps⟩ := Network.invariant_of_run
    (G := fun medium => OnlyRequests medium.sent) (Q := fun _ app e out => Proper app e out)
    hnone (fun a => valid_initial (hinitial a))
    (fun _ _ _ _ _ _ _ hsent hvalid hok => handle_proper hsent hvalid hok) h
  exact ⟨hsent, hsteps⟩

def threadsStarted (a : ι) (tr : Trace ι) : Nat :=
  startedIn ((Network.labelsOf a tr).flatMap (·.2))

def firstRequests (a : ι) (tr : Trace ι) : Nat :=
  (Network.labelsOf a tr).countP (·.1.isFirstRequest)

theorem startedIn_flatMap {labels : List (Event × List Action)}
    (h : ∀ l ∈ labels, startedIn l.2 = if l.1.isFirstRequest then 1 else 0) :
    startedIn (labels.flatMap (·.2)) = labels.countP (·.1.isFirstRequest) := by
  induction labels with
  | nil => rfl
  | cons l labels ih =>
    obtain ⟨hl, hlabels⟩ := List.forall_mem_cons.mp h
    rw [List.flatMap_cons, startedIn_append, hl, ih hlabels, List.countP_cons, Nat.add_comm]

/-- Each request has one fragment with number 1 and no reply has, so the server threads started are
the requests delivered. -/
theorem replies_start_no_thread {uniqueNumber : Nat} {members : ι → Application}
    (hinitial : ∀ a, (members a).Initial) {tr : Trace ι} {n : Network ι Medium Application}
    (h : Run (Network.step handle) (start uniqueNumber members) tr n) :
    (∀ st ∈ tr, (sentIn st.out).countP (·.isFirst) =
      if (st.pre.members st.event.1).sendsRequest st.event.2 then 1 else 0) ∧
    (∀ m ∈ n.shared.sent, m.name = .udpReplyData → m.packetNumber ≠ 1) ∧
    (∀ a, threadsStarted a tr = firstRequests a tr) ∧
    ∀ st ∈ tr, ∀ msg ctrl, st.event.2 = .datagram msg ctrl → msg.name = .udpReplyData →
      startedIn st.out = 0 := by
  obtain ⟨hsent, hsteps⟩ := run_proper hinitial h
  refine ⟨fun st hst => (hsteps st hst).1, ?_, ?_, ?_⟩
  · intro m hm hreply hfirst
    rw [hsent m hm hfirst] at hreply
    cases hreply
  · intro a
    refine startedIn_flatMap fun l hl => ?_
    obtain ⟨st, hst, rfl⟩ := Network.exists_of_mem_labelsOf hl
    exact (hsteps st hst).2
  · intro st hst msg ctrl hevent hreply
    rw [(hsteps st hst).2, hevent]
    simp [Event.isFirstRequest, hreply]

end Runs

def clientAndServer (server : Bool) : Application :=
  { isServer := server
    port := 53
    mySocket := { (UDPSocket.new (if server then 1 else 0)) with bound := true, localPort := 53 }
    maxThreadCount := if server then 4 else 2147483647
    threadCount := 0
    threadMap := [] }

theorem clientAndServer_initial (server : Bool) : (clientAndServer server).Initial := by
  refine ⟨if server then 1 else 0, server, 53, 4, [.bind (if server then 1 else 0) 53], ?_⟩
  cases server <;> rfl

def fragment (packetNumber : Int32) : GenericApplicationMessage :=
  { name := .udpRequestData, byteLength := 1022, replyLength := 100, replyPerRequest := 1
    packetNumber := packetNumber }

/-- A request of 2000 bytes.  Both fragments arrive, the one with number 1 twice; one of the
replies arrives. -/
def repeatedRequest : List (Bool × Event) :=
  [(false, .transmissionStart 1024 ⟨9⟩ 53 1 2000),
    (false, .timer 2 100 1),
    (true, .datagram (fragment 1) (some ⟨1, ⟨8⟩, 1024, 53⟩)),
    (true, .datagram (fragment 2) (some ⟨1, ⟨8⟩, 1024, 53⟩)),
    (true, .datagram (fragment 1) (some ⟨1, ⟨8⟩, 1024, 53⟩)),
    (true, .timer 4 0 0),
    (false, .datagram { name := .udpReplyData, byteLength := 100, packetNumber := 2 }
      (some ⟨2, ⟨9⟩, 53, 1024⟩))]

theorem replies_start_no_thread_repeatedRequest :
    threadsStarted true
      (replayTrace (Network.step handle) (start 2 clientAndServer) repeatedRequest) = 2 ∧
    threadsStarted false
      (replayTrace (Network.step handle) (start 2 clientAndServer) repeatedRequest) = 0 := by
  have hrun := replies_start_no_thread clientAndServer_initial
    (run_of_replays (by decide +kernel) : Run (Network.step handle) (start 2 clientAndServer)
      (replayTrace (Network.step handle) (start 2 clientAndServer) repeatedRequest) _)
  rw [hrun.2.2.1 true, hrun.2.2.1 false]
  decide +kernel

end WormsAttack.Udp
