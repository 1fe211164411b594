/-
  The fragments of a message, and the replies to a request.

  A message longer than `UDP_MAX_PAYLOAD` is cut into fragments, and each of them gets that
  length, the last one too.
-/
import WormsAttack.Udp.Overload
import Mathlib.Algebra.Ring.Int.Defs
import Mathlib.Algebra.Ring.Nat

namespace WormsAttack.Udp

open Foundation Inet List Application

/-! ## Fragments -/

/-- No fragment is too long, and together they are as long as the message. -/
def Fits (length : Int32) (fragments : List GenericApplicationMessage) : Prop :=
  (∀ m ∈ fragments, m.byteLength.toInt ≤ udpMaxPayload) ∧
    (fragments.map (·.byteLength.toInt)).sum = length.toInt

inductive ClientThread.Reached (length : Int32) : ClientThread → Prop
  | new (socket : UDPSocket) (requestsPerSession : Int32) :
      Reached length (.new socket requestsPerSession length)
  | sendRequest {t : ClientThread} (replyLength replyPerRequest : Int32) :
      Reached length t → Reached length (t.sendRequest replyLength replyPerRequest).1
  | socketDatagramArrived {t : ClientThread} :
      Reached length t → Reached length t.socketDatagramArrived
  | finish {t : ClientThread} :
      Reached length t → Reached length { t with threadState := .finish }

inductive ServerThread.Reached (length : Int32) : ServerThread → Prop
  | new (socket : UDPSocket) (request : GenericApplicationMessage) :
      request.replyLength = length → Reached length (.new socket request)
  | sendReply {t : ServerThread} : Reached length t → Reached length t.sendReply.1

variable {length : Int32} {t : ServerThread} {app app' : Application} {out : List Action}
  {sockId id : Nat} {thread : Thread} {request : GenericApplicationMessage} {n : Nat}
  {tr : List (Step Application (Nat × Event) (List Action))}

theorem ClientThread.Reached.size {t : ClientThread} (h : t.Reached length) :
    t.packetsPerRequest = packets length ∧ t.packetSize = Udp.packetSize length := by
  induction h with
  | new => exact ⟨rfl, rfl⟩
  | sendRequest _ _ _ ih | finish _ ih => exact ih
  | socketDatagramArrived _ ih =>
    unfold ClientThread.socketDatagramArrived
    split
    · exact ih
    · exact ih

theorem ServerThread.Reached.size (h : t.Reached length) :
    t.packetPerReply = packets length ∧ t.packetSize = Udp.packetSize length := by
  induction h with
  | new _ request hlength =>
    subst hlength
    exact ⟨rfl, rfl⟩
  | sendReply _ ih => exact ih

theorem byteLength_requestFragments (request : GenericApplicationMessage) (n : Nat) :
    (requestFragments request n).map (·.byteLength) = replicate n request.byteLength := by
  induction n with
  | zero => rfl
  | succ n ih => rw [requestFragments, map_cons, ih, replicate_succ]

theorem toInt_packetSize (length : Int32) :
    (packetSize length).toInt = min length.toInt udpMaxPayload := by
  unfold packetSize
  split_ifs with hlong
  · rw [Int.min_eq_right (Int.le_of_lt hlong)]
    rfl
  · rw [Int.min_eq_left (Int.not_lt.mp hlong)]

theorem fits_iff {fragments : List GenericApplicationMessage}
    (hsizes : fragments.map (·.byteLength) = replicate (packets length) (packetSize length)) :
    Fits length fragments ↔ length.toInt ≤ udpMaxPayload ∨ udpMaxPayload ∣ length.toInt := by
  have hsum : (fragments.map (·.byteLength.toInt)).sum =
      packets length * min length.toInt udpMaxPayload := by
    have hmap : fragments.map (·.byteLength.toInt) =
        (fragments.map (·.byteLength)).map Int32.toInt := by
      rw [map_map]
      rfl
    rw [hmap, hsizes, map_replicate, toInt_packetSize, sum_replicate_int]
  have hle : ∀ m ∈ fragments, m.byteLength.toInt ≤ udpMaxPayload := by
    intro m hm
    have hmem : m.byteLength ∈ replicate (packets length) (packetSize length) :=
      hsizes ▸ mem_map_of_mem hm
    rw [eq_of_mem_replicate hmem, toInt_packetSize]
    exact Int.min_le_right _ _
  unfold Fits
  rw [hsum, and_iff_right hle]
  unfold packets payloads udpMaxPayload
  split_ifs with hlong
  · rw [Int.min_eq_right (Int.le_of_lt hlong)]
    omega
  · omega

/-- The fragments fit just when the length is at most the payload, or a multiple of it. -/
theorem fragments_fit_iff (length : Int32) :
    ((∀ t : ClientThread, t.Reached length → ∀ replyLength replyPerRequest,
        Fits length (t.sendRequest replyLength replyPerRequest).2) ∧
      ∀ t : ServerThread, t.Reached length → Fits length t.sendReply.2) ↔
      length.toInt ≤ udpMaxPayload ∨ udpMaxPayload ∣ length.toInt := by
  have hclient : ∀ t : ClientThread, t.Reached length → ∀ replyLength replyPerRequest,
      (Fits length (t.sendRequest replyLength replyPerRequest).2 ↔
        length.toInt ≤ udpMaxPayload ∨ udpMaxPayload ∣ length.toInt) := by
    intro t ht replyLength replyPerRequest
    refine fits_iff ?_
    obtain ⟨hpackets, hsize⟩ := ht.size
    rw [← hpackets, ← hsize]
    exact byteLength_requestFragments _ _
  have hserver : ∀ t : ServerThread, t.Reached length → (Fits length t.sendReply.2 ↔
      length.toInt ≤ udpMaxPayload ∨ udpMaxPayload ∣ length.toInt) := by
    intro t ht
    refine fits_iff ?_
    obtain ⟨hpackets, hsize⟩ := ht.size
    rw [← hpackets, ← hsize]
    exact map_replicate
  constructor
  · intro h
    have hnew : (ClientThread.new (.new 0) 1 length).Reached length := .new _ _
    exact (hclient _ hnew 0 0).mp (h.1 _ hnew 0 0)
  · intro h
    exact ⟨fun t ht replyLength replyPerRequest => (hclient t ht _ _).mpr h,
      fun t ht => (hserver t ht).mpr h⟩

theorem fragments_too_long :
    (ClientThread.new (.new 0) 1 1023).Reached 1023 ∧
      (((ClientThread.new (.new 0) 1 1023).sendRequest 100 1).2.map (·.byteLength.toInt)) =
        [1022, 1022] ∧
      ¬ Fits 1023 ((ClientThread.new (.new 0) 1 1023).sendRequest 100 1).2 :=
  ⟨.new _ _, by decide +kernel, fun h => absurd h.2 (by decide +kernel)⟩

/-! ## The thread with a socket -/

theorem find_store (app : Application) (sockId id : Nat) (thread : Thread) :
    (app.store sockId thread).find id =
      if id = sockId then (app.find id).map fun _ => thread else app.find id := by
  unfold store find
  induction app.threadMap with
  | nil => simp
  | cons entry threadMap ih =>
    obtain ⟨key, old⟩ := entry
    by_cases hkey : key = sockId
    · subst hkey
      by_cases hid : id = key
      · simp [hid]
      · simp [hid, ih, lookup_cons, beq_false_of_ne hid]
    · by_cases hid : id = key
      · subst hid
        simp [hkey]
      · simp [hkey, ih, lookup_cons, beq_false_of_ne hid]

theorem lookup_filter_ne (threadMap : List (Nat × Thread)) (sockId id : Nat) :
    (threadMap.filter (·.1 ≠ sockId)).lookup id =
      if id = sockId then none else threadMap.lookup id := by
  induction threadMap with
  | nil => simp
  | cons entry threadMap ih =>
    obtain ⟨key, old⟩ := entry
    by_cases hkey : key = sockId
    · subst hkey
      by_cases hid : id = key
      · simpa [hid] using ih
      · simpa [hid, lookup_cons, beq_false_of_ne hid] using ih
    · by_cases hid : id = key
      · subst hid
        simp [hkey]
      · simpa [hkey, lookup_cons, beq_false_of_ne hid] using ih

theorem find_removeThread (h : app.removeThread sockId = .ok (app', out)) (id : Nat) :
    app'.find id = if id = sockId then none else app.find id := by
  unfold find
  rw [threadMap_removeThread h]
  exact lookup_filter_ne app.threadMap sockId id

theorem find_removeThreadStat {stat : TransmissionStatistics}
    (h : app.removeThreadStat sockId stat = .ok (app', out)) (id : Nat) :
    app'.find id = if id = sockId then none else app.find id := by
  obtain ⟨⟨app₁, out₁⟩, hremove, h⟩ := bind_eq_ok.mp h
  cases h
  exact find_removeThread hremove id

theorem find_append (hfind : app.find id = some thread) (entries : List (Nat × Thread)) :
    (app.threadMap ++ entries).lookup id = some thread := by
  unfold find at hfind
  rw [lookup_append, hfind]
  rfl

def Event.isTimerOf (id : Nat) : Event → Bool
  | .timer sockId _ _ => sockId = id
  | _ => false

theorem find_transmissionStart {ownPort port : Int} {address : IPAddress}
    {requestsPerSession requestLength : Int32} (hfind : app.find id = some thread)
    (hok : app.transmissionStart sockId ownPort address port requestsPerSession requestLength =
      .ok (app', out)) : app'.find id = some thread := by
  obtain ⟨-, hok⟩ := unless_eq_ok.mp hok
  simp only [bind_eq_ok] at hok
  obtain ⟨⟨socket, bound⟩, -, ⟨socket', connected⟩, -, hok⟩ := hok
  cases hok
  cases hsock : app.find sockId with
  | none => exact find_append hfind _
  | some => exact hfind

theorem find_startServerThread {msg : GenericApplicationMessage} {ctrl : UDPControlInfo}
    (hfind : app.find id = some thread)
    (hok : app.startServerThread sockId msg ctrl = .ok (app', out)) :
    app'.find id = some thread := by
  simp only [startServerThread, bind_eq_ok] at hok
  obtain ⟨⟨socket, bound⟩, -, ⟨socket', connected⟩, -, hok⟩ := hok
  split at hok
  · cases hok
    exact find_append hfind _
  · cases hok

theorem handle_other {e : Event} (hfind : app.find id = some (.server t))
    (herror : e ≠ .udpError id) (htimer : e.isTimerOf id = false)
    (hok : app.handle sockId e = .ok (app', out)) : app'.find id = some (.server t) := by
  -- what is done to another thread does not touch this one
  have hstore : ∀ {other new}, ¬ id = other → (app.store other new).find id = some (.server t) := by
    intro other new hne
    rw [find_store, if_neg hne, hfind]
  have hremoved : ∀ {other}, ¬ id = other →
      app'.find id = (if id = other then none else app.find id) →
        app'.find id = some (.server t) := by
    intro other hne hremove
    rw [hremove, if_neg hne, hfind]
  have hother : ∀ {other replyLength replyPerRequest},
      e = .timer other replyLength replyPerRequest → ¬ id = other := by
    rintro other replyLength replyPerRequest rfl rfl
    simp [Event.isTimerOf] at htimer
  cases handle_cases hok with
  | transmissionStart hok => exact find_transmissionStart hfind hok
  | request | wait | reply => exact hstore (hother rfl)
  | finish _ _ hremove => exact hremoved (hother rfl) (find_removeThreadStat hremove id)
  | served _ _ hremove => exact hremoved (hother rfl) (find_removeThread hremove id)
  | serverError hremove =>
    exact hremoved (fun heq => herror (by rw [heq])) (find_removeThread hremove id)
  | clientError hremove =>
    exact hremoved (fun heq => herror (by rw [heq])) (find_removeThreadStat hremove id)
  | started _ hok => exact find_startServerThread hfind hok
  | lastMessage _ hclient =>
    refine hstore fun heq => ?_
    rw [← heq, hfind] at hclient
    cases hclient
  | ownError | invalid | discarded => exact hfind

theorem handle_own {e : Event} (hfind : app.find id = some (.server t))
    (htimer : e.isTimerOf id = true) (hok : app.handle sockId e = .ok (app', out)) :
    (t.threadState ≠ .disconnected ∧ app'.find id = some (.server t.sendReply.1) ∧
        sentIn out = t.sendReply.2) ∨
      (t.threadState = .disconnected ∧ app'.find id = none ∧ sentIn out = []) := by
  obtain ⟨replyLength, replyPerRequest, rfl⟩ :
      ∃ replyLength replyPerRequest, e = .timer id replyLength replyPerRequest := by
    cases e with
    | timer thread replyLength replyPerRequest =>
      exact ⟨replyLength, replyPerRequest, by rw [of_decide_eq_true htimer]⟩
    | transmissionStart | udpError | invalid | datagram => cases htimer
  -- the thread is the server thread
  have hthread : ∀ {thread}, app.find id = some thread → thread = .server t := fun h =>
    Option.some.inj (h.symm.trans hfind)
  cases handle_cases hok with
  | request hclient | wait hclient | finish hclient => cases hthread hclient
  | reply hserver hstate hsend =>
    cases hthread hserver
    refine .inl ⟨hstate, ?_, (mapM_send hsend).1⟩
    rw [find_store, if_pos rfl, hfind]
    rfl
  | served hserver hstate hremove =>
    cases hthread hserver
    refine .inr ⟨hstate, ?_, ?_⟩
    · rw [find_removeThread hremove, if_pos rfl]
    · rw [sentIn_append, (quiet_close t.socket).sent]
      exact (quiet_removeThread hremove).sent

/-! ## The replies to a request -/

/-- The replies of the server thread with this socket, newest first: what its timer made it
send. -/
def repliesOf (id : Nat) (tr : List (Step Application (Nat × Event) (List Action))) :
    List (List GenericApplicationMessage) :=
  ((tr.filter (·.event.2.isTimerOf id)).map (sentIn ·.out)).filter (!·.isEmpty)

/-- What a server thread is to send when `r` replies are asked for: `r` replies, with the flag
`last` on one fragment of the final reply and on no other. -/
def ReplyProtocol (r : Int) : List (List GenericApplicationMessage) → Prop
  | [] => r = 0
  | final :: earlier =>
      earlier.length + 1 = r ∧ final.countP (·.last) = 1 ∧
        ∀ reply ∈ earlier, ∀ m ∈ reply, m.last = false

structure Served (id : Nat) (request : GenericApplicationMessage) (app : Application)
    (tr : List (Step Application (Nat × Event) (List Action))) (app' : Application) : Prop where
  started : ∃ socket, app.find id = some (.server (.new socket request))
  run : Run step app tr app'
  alive : ∀ st ∈ tr, (st.pre.find id).isSome
  undisturbed : ∀ st ∈ tr, st.event.2 ≠ .udpError id
  done : app'.find id = none

structure ServerThread.Serving (request : GenericApplicationMessage) (n : Nat) (t : ServerThread) :
    Prop where
  packets : t.packetPerReply = packets request.replyLength
  left : t.noReplysToSend.toInt + n = request.replyPerRequest.toInt
  more : t.threadState ≠ .disconnected → n = 0 ∨ n < request.replyPerRequest.toInt
  last : t.threadState = .disconnected → n = max 1 request.replyPerRequest.toInt

theorem ServerThread.Serving.new (socket : UDPSocket) (request : GenericApplicationMessage) :
    (ServerThread.new socket request).Serving request 0 where
  packets := rfl
  left := Int.add_zero _
  more _ := .inl rfl
  last h := by cases h

theorem ServerThread.Serving.reply (h : t.Serving request n) :
    t.sendReply.2.isEmpty = false ∧ ∀ m ∈ t.sendReply.2, m.last = false := by
  constructor
  · have hpos := packets_pos request.replyLength
    rw [← h.packets] at hpos
    obtain ⟨k, hk⟩ := Nat.exists_eq_add_of_lt hpos
    unfold ServerThread.sendReply
    rw [hk]
    rfl
  · intro m hm
    obtain rfl := eq_of_mem_replicate hm
    rfl

theorem ServerThread.Serving.sendReply (hr : 0 ≤ request.replyPerRequest.toInt)
    (h : t.Serving request n) (hstate : t.threadState ≠ .disconnected) :
    t.sendReply.1.Serving request (n + 1) := by
  have hmore := h.more hstate
  have hleft := h.left
  have hpred : (t.noReplysToSend - 1).toInt = t.noReplysToSend.toInt - 1 :=
    toInt_pred (by omega)
  have hdone : t.noReplysToSend - 1 ≤ 0 ↔ t.noReplysToSend.toInt - 1 ≤ 0 := by
    rw [Int32.le_iff_toInt_le, hpred]
    rfl
  refine ⟨h.packets, ?_, fun hnext => ?_, fun hnext => ?_⟩
  · change (t.noReplysToSend - 1).toInt + (n + 1 : Nat) = _
    omega
  · have hnot : ¬ t.noReplysToSend - 1 ≤ 0 := fun hle => hnext (if_pos hle)
    rw [hdone] at hnot
    omega
  · have hle : t.noReplysToSend - 1 ≤ 0 := by
      by_contra hnot
      exact hstate ((if_neg hnot).symm.trans hnext)
    rw [hdone] at hle
    omega

variable {st : Step Application (Nat × Event) (List Action)}

theorem repliesOf_cons_other
    (h : st.event.2.isTimerOf id = false) : repliesOf id (st :: tr) = repliesOf id tr := by
  unfold repliesOf
  rw [filter_cons_of_neg (by simp [h])]

theorem repliesOf_cons_own (h : st.event.2.isTimerOf id = true) :
    repliesOf id (st :: tr) =
      if (sentIn st.out).isEmpty then repliesOf id tr else sentIn st.out :: repliesOf id tr := by
  unfold repliesOf
  rw [filter_cons, if_pos h, map_cons, filter_cons]
  cases (sentIn st.out).isEmpty <;> rfl

variable {socket : UDPSocket}

/-- As long as the server thread is there, it has sent as many replies as it has counted; then those
that were asked for, and at least one. -/
theorem served_replies {s : Application} (hr : 0 ≤ request.replyPerRequest.toInt)
    (hstarted : app.find id = some (.server (.new socket request))) (hrun : Run step app tr s)
    (halive : ∀ st ∈ tr, (st.pre.find id).isSome)
    (hundisturbed : ∀ st ∈ tr, st.event.2 ≠ .udpError id) :
    (∀ reply ∈ repliesOf id tr, ∀ m ∈ reply, m.last = false) ∧
      ((∃ t, s.find id = some (.server t) ∧ t.Serving request (repliesOf id tr).length) ∨
        (s.find id = none ∧ (repliesOf id tr).length = max 1 request.replyPerRequest.toInt)) := by
  induction hrun with
  | start => exact ⟨fun _ h => absurd h not_mem_nil, .inl ⟨_, hstarted, .new socket request⟩⟩
  | @next _ pre _ e _ hrun hstep ih =>
    obtain ⟨hpre, halive⟩ := forall_mem_cons.mp halive
    obtain ⟨herror, hundisturbed⟩ := forall_mem_cons.mp hundisturbed
    obtain ⟨hunmarked, ⟨t, hfind, hserving⟩ | ⟨hgone, -⟩⟩ := ih halive hundisturbed
    · cases htimer : e.2.isTimerOf id with
      | false =>
        rw [repliesOf_cons_other htimer]
        exact ⟨hunmarked, .inl ⟨t, handle_other hfind herror htimer hstep, hserving⟩⟩
      | true =>
        rw [repliesOf_cons_own htimer]
        rcases handle_own hfind htimer hstep with ⟨hstate, hfind', hsent⟩ | ⟨hstate, hgone, hsent⟩
        · obtain ⟨hsome, hflags⟩ := hserving.reply
          simp only [hsent, hsome, Bool.false_eq_true, if_false]
          exact ⟨forall_mem_cons.mpr ⟨hflags, hunmarked⟩,
            .inl ⟨_, hfind', hserving.sendReply hr hstate⟩⟩
        · simp only [hsent, isEmpty_nil, if_true]
          exact ⟨hunmarked, .inr ⟨hgone, hserving.last hstate⟩⟩
    · rw [hgone] at hpre
      cases hpre

/-- No server thread keeps the protocol: the flag is missing in every final reply. -/
theorem replies_unmarked {id : Nat} {request : GenericApplicationMessage} {app app' : Application}
    {tr : List (Step Application (Nat × Event) (List Action))}
    (hr : 0 ≤ request.replyPerRequest.toInt) (h : Served id request app tr app') :
    ¬ ReplyProtocol request.replyPerRequest.toInt (repliesOf id tr) := by
  obtain ⟨socket, hstarted⟩ := h.started
  obtain ⟨hunmarked, hlive | ⟨-, hlength⟩⟩ :=
    served_replies hr hstarted h.run h.alive h.undisturbed
  · obtain ⟨t, hfind, -⟩ := hlive
    rw [h.done] at hfind
    cases hfind
  · intro hprotocol
    cases hreplies : repliesOf id tr with
    | nil =>
      rw [hreplies, length_nil] at hlength
      omega
    | cons final earlier =>
      rw [hreplies] at hprotocol hunmarked
      have hnone : final.countP (·.last) = 0 := by
        refine countP_eq_zero.mpr fun m hm => ?_
        rw [hunmarked final mem_cons_self m hm]
        exact Bool.false_ne_true
      rw [hprotocol.2.1] at hnone
      cases hnone

def requestFor (r : Int32) : GenericApplicationMessage :=
  { requestForOneReply with replyPerRequest := r }

def asked (r : Int32) : Application :=
  replayState step smallServer [(1, .datagram (requestFor r) (some ⟨0, ⟨8⟩, 1024, 53⟩))]

def timers (n : Nat) : List (Nat × Event) := List.replicate n (2, .timer 1 0 0)

theorem served_asked {r : Int32}
    (hstarted : (asked r).find 1 = some (.server (.new socket (requestFor r))))
    (hrun : replays step (asked r) (timers n) = true)
    (hlife : ∀ st ∈ replayTrace step (asked r) (timers n),
      (st.pre.find 1).isSome ∧ st.event.2 ≠ .udpError 1)
    (hdone : (replayState step (asked r) (timers n)).find 1 = none) :
    Served 1 (requestFor r) (asked r) (replayTrace step (asked r) (timers n))
      (replayState step (asked r) (timers n)) where
  started := ⟨socket, hstarted⟩
  run := run_of_replays hrun
  alive st hst := (hlife st hst).1
  undisturbed st hst := (hlife st hst).2
  done := hdone

theorem replies_unmarked_two :
    (repliesOf 1 (replayTrace step (asked 2) (timers 3))).length = 2 ∧
      ¬ ReplyProtocol (requestFor 2).replyPerRequest.toInt
        (repliesOf 1 (replayTrace step (asked 2) (timers 3))) :=
  ⟨by decide +kernel, replies_unmarked (by decide) (served_asked rfl (by decide +kernel)
    (by decide +kernel) (by decide +kernel))⟩

theorem replies_without_flag :
    Served 1 (requestFor 1) (asked 1) (replayTrace step (asked 1) (timers 2))
        (replayState step (asked 1) (timers 2)) ∧
      (repliesOf 1 (replayTrace step (asked 1) (timers 2))).map (·.map (·.last)) = [[false]] ∧
      ¬ ReplyProtocol (requestFor 1).replyPerRequest.toInt
        (repliesOf 1 (replayTrace step (asked 1) (timers 2))) ∧
      (repliesOf 1 (replayTrace step (asked 0) (timers 2))).length = 1 :=
  ⟨served_asked rfl (by decide +kernel) (by decide +kernel) (by decide +kernel),
    by decide +kernel, fun h => absurd h.2.1 (by decide +kernel), by decide +kernel⟩

end WormsAttack.Udp
