/-
  The number of threads of a server.

  A server keeps its limit only by closing the welcome socket.
-/
import WormsAttack.Udp.Overload

namespace WormsAttack.Udp

open Foundation Inet

/-- A packet comes through a socket of the application: the welcome socket, or that of a
running server thread, which is connected to the sender. -/
def Arrives (app : Application) (ctrl : UDPControlInfo) : Prop :=
  (app.mySocket.bound = true ∧ ctrl.sockId = app.mySocket.sockId ∧
      ctrl.destPort = app.mySocket.localPort) ∨
    ∃ t, app.find ctrl.sockId = some (.server t) ∧ t.socket.bound = true ∧
      t.socket.localPort = ctrl.destPort ∧ t.socket.remoteAddr = ctrl.srcAddr ∧
      t.socket.remotePort = ctrl.srcPort

structure Serves (n : Int32) (app : Application) : Prop where
  isServer : app.isServer = true
  max : app.maxThreadCount = n
  limits : Limits app
  gate : Gate app

theorem serves_initial {sockId : Nat} {port : Int} {n : Int32} {app : Application}
    {out : List Action} (hn : 0 < n) (h : Application.initial sockId true port n = .ok (app, out)) :
    Serves n app ∧ app.threadCount ≤ n := by
  have hle : 0 ≤ n := Int32.le_iff_toInt_le.mpr (Int.le_of_lt (Int32.lt_iff_toInt_lt.mp hn))
  obtain ⟨hlimits, hgate⟩ := gate_initial hle h
  obtain ⟨⟨mySocket, bound⟩, -, h⟩ := bind_eq_ok.mp h
  cases h
  have hne : n ≠ 0 := by
    rintro rfl
    exact absurd hn (by decide)
  exact ⟨⟨rfl, if_neg hne, hlimits, hgate⟩, hle⟩

/-- One event of a server that has kept a limit below `INT_MAX`: the limit is kept just when
the event is not packet number 1, or the welcome socket is bound. -/
theorem serves_step {n : Int32} {app app' : Application} {sockId : Nat} {e : Event}
    {out : List Action} (hn : n.toInt < 2147483647) (h : Serves n app)
    (hle : app.threadCount ≤ n) (hfresh : app.find sockId = none)
    (hstep : app.handle sockId e = .ok (app', out)) :
    Serves n app' ∧
      (app'.threadCount ≤ n ↔ (e.isFirst = true → app.mySocket.bound = true)) := by
  obtain ⟨hsame, hturns⟩ := handle_turns hfresh hstep
  obtain ⟨hcounted, hbound⟩ := h.gate
  rw [Int32.le_iff_toInt_le] at hle
  rw [h.max, Int32.lt_iff_toInt_lt] at hbound
  have hroom : Room app e := by
    refine ⟨fun hstart => ?_, fun _ => by omega⟩
    -- a server does not start transmissions
    cases hturns with
    | client _ _ hclient =>
      rw [h.isServer] at hclient
      cases hclient
    | kept hno | removed _ hno | server hno =>
      rw [hno] at hstart
      cases hstart
  refine ⟨⟨hsame.isServer.trans h.isServer, hsame.max.trans h.max, hturns.limits h.limits hfresh
    hsame, (gate_step_iff h.limits h.gate hsame hturns).mpr hroom⟩, ?_⟩
  rw [Int32.le_iff_toInt_le]
  cases hturns with
  | kept _ hfirst _ hcount _ =>
    rw [hcount, hfirst]
    exact iff_of_true hle Bool.noConfusion
  | removed id _ hfirst hmem _ hcount _ =>
    have hpos := List.length_pos_of_mem hmem
    rw [hcount, hfirst, toInt_sub_one (by omega)]
    exact iff_of_true (by omega) Bool.noConfusion
  | client _ _ hclient =>
    rw [h.isServer] at hclient
    cases hclient
  | server _ hfirst _ hcount _ =>
    rw [hcount, hfirst, toInt_add_one (by omega), hbound]
    simp only [true_implies]
    omega

/-- The count of threads is never above `n` just when each packet number 1 comes while the welcome
socket is bound, or `n` is `INT_MAX`. -/
theorem thread_limit_iff {sockId : Nat} {port : Int} {n : Int32} {app : Application}
    {out : List Action} (hn : 0 < n)
    (hinitial : Application.initial sockId true port n = .ok (app, out))
    {tr : List (Step Application (Nat × Event) (List Action))} {s : Application}
    (h : Run step app tr s) (hfresh : ∀ st ∈ tr, st.pre.find st.event.1 = none) :
    (s.threadCount ≤ n ∧ ∀ st ∈ tr, st.pre.threadCount ≤ n) ↔
      ∀ st ∈ tr, st.event.2.isFirst = true → st.pre.mySocket.bound = true ∨ n = 2147483647 := by
  by_cases hmax : n = 2147483647
  · have hle : ∀ count : Int32, count ≤ n := by
      intro count
      rw [hmax, Int32.le_iff_toInt_le]
      exact Int.le_of_lt_add_one count.toInt_lt
    exact iff_of_true ⟨hle _, fun st _ => hle _⟩ fun _ _ _ => .inr hmax
  have hbelow : n.toInt < 2147483647 := by
    have hlt := n.toInt_lt
    have hne : n.toInt ≠ 2147483647 := fun heq => hmax (Int32.toInt_inj.mp heq)
    omega
  simp only [hmax, or_false]
  -- as long as the limit has been kept, the welcome socket is closed just at the limit
  have hboth : ((s.threadCount ≤ n ∧ ∀ st ∈ tr, st.pre.threadCount ≤ n) → Serves n s) ∧
      ((s.threadCount ≤ n ∧ ∀ st ∈ tr, st.pre.threadCount ≤ n) ↔
        ∀ st ∈ tr, st.event.2.isFirst = true → st.pre.mySocket.bound = true) := by
    induction h with
    | start =>
      obtain ⟨hserves, hle⟩ := serves_initial hn hinitial
      exact ⟨fun _ => hserves, by simp [hle]⟩
    | next hrun hstep ih =>
      obtain ⟨hnew, hearlier⟩ := List.forall_mem_cons.mp hfresh
      obtain ⟨hserves, hiff⟩ := ih hearlier
      rw [List.forall_mem_cons, List.forall_mem_cons, ← hiff]
      constructor
      · rintro ⟨-, hkept⟩
        exact (serves_step hbelow (hserves hkept) hkept.1 hnew hstep).1
      · constructor
        · rintro ⟨hle, hkept⟩
          exact ⟨(serves_step hbelow (hserves hkept) hkept.1 hnew hstep).2.mp hle, hkept⟩
        · rintro ⟨hbound, hkept⟩
          exact ⟨(serves_step hbelow (hserves hkept) hkept.1 hnew hstep).2.mpr hbound, hkept⟩
  exact hboth.2

theorem thread_limit_twoRequests :
    (replayState step smallServer (threeRequests.take 2)).threadCount ≤ 2 :=
  have hinitial : Application.initial 0 true 53 2 = .ok (smallServer, [.bind 0 53]) := rfl
  ((thread_limit_iff (by decide) hinitial (run_of_replays (by decide +kernel))
    (by decide +kernel)).mpr (by decide +kernel)).1

def sessionOfTwo : List (Nat × Event) :=
  [(1, .datagram requestForOneReply (some ⟨0, ⟨8⟩, 1024, 53⟩)),
    (2, .datagram requestForOneReply (some ⟨1, ⟨8⟩, 1024, 53⟩))]

theorem thread_limit_exceeded :
    ∃ app out, Application.initial 0 true 53 1 = .ok (app, out) ∧
      Arrives app ⟨0, ⟨8⟩, 1024, 53⟩ ∧
      Arrives (replayState step app (sessionOfTwo.take 1)) ⟨1, ⟨8⟩, 1024, 53⟩ ∧
      replays step app sessionOfTwo = true ∧
      (replayState step app sessionOfTwo).threadCount = 2 :=
  ⟨_, _, rfl, .inl ⟨rfl, rfl, rfl⟩, .inr ⟨_, rfl, rfl, rfl, rfl, rfl⟩, rfl, rfl⟩

end WormsAttack.Udp
