/-
  The spread of the worm.
-/
import WormsAttack.Foundation.Machine
import WormsAttack.Foundation.Network
import WormsAttack.Worm.Handlers

namespace WormsAttack.Worm

open Foundation Inet List Network

def active : Option Host → Bool
  | some h => h.isActive
  | none => false

/-! ## One event -/

inductive Turn (par : Parameters) (sent : List ProbingPacket) :
    Option Host → Event → List ProbingPacket → Option Host → List Action → Prop
  | vulnerable {h : Host} {uniform : Rat} (hactive : h.isActive = false)
      (hscheduled : h.isScheduled = false) (hmax : h.maxProbingPackets = par.maxProbingPackets) :
      Turn par sent none (.initial uniform) sent (some h) [.addVictim]
  | infectedAtStart {h : Host} {uniform : Rat} (hactive : h.isActive = true)
      (hmax : h.maxProbingPackets = par.maxProbingPackets) :
      Turn par sent none (.initial uniform) sent (some h)
        [.addVictim, .addStartVictim, .addInfectedHost]
  | probes {h h' : Host} {targetAddr : IPAddress} {packet : ProbingPacket}
      (hscheduled : h.isScheduled = true) (hleft : h.maxProbingPackets ≠ 0)
      (hactive : h'.isActive = h.isActive)
      (hmax : h'.maxProbingPackets =
        if h.maxProbingPackets > 0 then h.maxProbingPackets - 1 else h.maxProbingPackets) :
      Turn par sent (some h) (.timer targetAddr) (sent ++ [packet]) (some h') [.send packet]
  | exhausted {h : Host} {targetAddr : IPAddress} :
      Turn par sent (some h) (.timer targetAddr) sent (some { h with isScheduled := false }) []
  | infected {h : Host} {k : Nat} (hactive : h.isActive = false) (hk : k < sent.length) :
      Turn par sent (some h) (.probe k) sent
        (some { h with isActive := true, isScheduled := true }) [.addInfectedHost]
  | ignored {h : Host} {e : Event} : Turn par sent (some h) e sent (some h) []

theorem scheduleAt_ok {isScheduled isScheduled' : Bool}
    (h : scheduleAt isScheduled = .ok isScheduled') : isScheduled' = true := by
  unfold scheduleAt at h
  split at h <;> cases h
  rfl

variable {sent' : List ProbingPacket} {h : Host} {out : List Action} {host' : Option Host}
  {sent : List ProbingPacket} {par : Parameters} {e : Event} {host : Option Host}

theorem deliver_ok {msg : Message} (hok : deliver sent h msg = .ok (sent', host', out)) :
    ∃ h', h.handleMessage msg = .ok (h', out) ∧ sent' = sent ++ sentIn out ∧ host' = some h' := by
  obtain ⟨⟨h', out'⟩, hmessage, hok⟩ := bind_eq_ok.mp hok
  cases hok
  exact ⟨h', hmessage, rfl, rfl⟩

theorem initial_turn {uniform : Rat} (hok : Host.initial par uniform = .ok (h, out)) :
    Turn par sent none (.initial uniform) (sent ++ sentIn out) (some h) out := by
  unfold Host.initial at hok
  dsimp only at hok
  split at hok
  · rename_i hactive
    cases hok
    rw [sentIn, filterMap_eq_nil_iff.mpr (by decide), append_nil]
    exact .infectedAtStart hactive rfl
  · rename_i hactive
    cases hok
    rw [sentIn, filterMap_eq_nil_iff.mpr (by decide), append_nil]
    exact .vulnerable (Bool.eq_false_iff.mpr hactive) rfl rfl

theorem selfMessage_turn {h' : Host} {targetAddr : IPAddress} (hscheduled : h.isScheduled = true)
    (hok : h.handleMessage (.selfMessage targetAddr) = .ok (h', out)) :
    Turn par sent (some h) (.timer targetAddr) (sent ++ sentIn out) (some h') out := by
  simp only [Host.handleMessage] at hok
  split at hok
  · rename_i hleft
    cases hok
    exact .probes hscheduled hleft rfl rfl
  · cases hok
    rw [sentIn, filterMap_nil, append_nil]
    exact .exhausted

theorem udpPacket_turn {h' : Host} {isQuery : Bool}
    (hquery : isQuery = true → ∃ k, e = .probe k ∧ k < sent.length)
    (hok : h.handleMessage (.udpPacket isQuery) = .ok (h', out)) :
    Turn par sent (some h) e (sent ++ sentIn out) (some h') out := by
  simp only [Host.handleMessage] at hok
  split at hok
  · cases hok
    rw [sentIn, filterMap_nil, append_nil]
    exact .ignored
  · rename_i hactive
    split_ifs at hok with hisQuery
    · obtain ⟨isScheduled, hschedule, hok⟩ := bind_eq_ok.mp hok
      cases hok
      obtain ⟨k, rfl, hk⟩ := hquery hisQuery
      rw [scheduleAt_ok hschedule]
      simp only [sentIn, filterMap_cons, Action.packet, filterMap_nil, append_nil]
      exact .infected (Bool.eq_false_iff.mpr hactive) hk
    · cases hok
      rw [sentIn, filterMap_nil, append_nil]
      exact .ignored

theorem handle_turn {ι : Type} {par : ι → Parameters} {a : ι}
    (hok : handle par a sent host e = .ok (sent', host', out)) :
    Turn (par a) sent host e sent' host' out := by
  unfold handle at hok
  split at hok
  · obtain ⟨⟨h, out⟩, hinitial, hok⟩ := bind_eq_ok.mp hok
    cases hok
    exact initial_turn hinitial
  · split at hok
    · rename_i hscheduled
      obtain ⟨h', hmessage, rfl, rfl⟩ := deliver_ok hok
      exact selfMessage_turn hscheduled hmessage
    · cases hok
  · split at hok
    · rename_i k hk
      obtain ⟨h', hmessage, rfl, rfl⟩ := deliver_ok hok
      exact udpPacket_turn (fun _ => ⟨k, rfl, hk⟩) hmessage
    · cases hok
  · obtain ⟨h', hmessage, rfl, rfl⟩ := deliver_ok hok
    exact udpPacket_turn Bool.noConfusion hmessage
  · obtain ⟨h', hmessage, rfl, rfl⟩ := deliver_ok hok
    cases hmessage
    rw [sentIn, filterMap_nil, append_nil]
    exact .ignored
  · cases hok

/-! ## The record of a host -/

def infectedCalls (labels : List (Event × List Action)) : Nat :=
  (labels.flatMap (·.2)).count .addInfectedHost

def packetsSent (labels : List (Event × List Action)) : Nat :=
  (sentIn (labels.flatMap (·.2))).length

def isStartVictim (labels : List (Event × List Action)) : Prop :=
  .addStartVictim ∈ labels.flatMap (·.2)

/-- The packets that are left, all of them before the initialization. -/
def left (par : Parameters) : Option Host → Int32
  | some h => h.maxProbingPackets
  | none => par.maxProbingPackets

theorem infectedCalls_cons (e : Event) (out : List Action) (labels : List (Event × List Action)) :
    infectedCalls ((e, out) :: labels) = out.count .addInfectedHost + infectedCalls labels := by
  rw [infectedCalls, flatMap_cons, count_append]
  rfl

theorem packetsSent_cons (e : Event) (out : List Action) (labels : List (Event × List Action)) :
    packetsSent ((e, out) :: labels) = (sentIn out).length + packetsSent labels := by
  rw [packetsSent, flatMap_cons, sentIn, filterMap_append, length_append]
  rfl

structure Record (par : Parameters) (labels : List (Event × List Action)) (host : Option Host) :
    Prop where
  scheduled : ∀ h, host = some h → h.isScheduled = true → h.isActive = true
  calls : infectedCalls labels = if active host then 1 else 0
  sent : 0 ≤ par.maxProbingPackets.toInt → 0 ≤ (left par host).toInt ∧
    packetsSent labels + (left par host).toInt = par.maxProbingPackets.toInt

theorem record_start (par : Parameters) : Record par [] none :=
  ⟨nofun, rfl, fun hlimit => ⟨hlimit, Int.zero_add _⟩⟩

theorem scheduled_turn (h : ∀ h, host = some h → h.isScheduled = true → h.isActive = true)
    (hturn : Turn par sent host e sent' host' out) :
    ∀ h', host' = some h' → h'.isScheduled = true → h'.isActive = true := by
  intro h' hh' hscheduled'
  cases hturn with
  | vulnerable _ hidle _ =>
    cases hh'
    rw [hidle] at hscheduled'
    cases hscheduled'
  | infectedAtStart hactive _ =>
    cases hh'
    exact hactive
  | probes hscheduled _ hactive _ =>
    cases hh'
    rw [hactive]
    exact h _ rfl hscheduled
  | exhausted =>
    cases hh'
    cases hscheduled'
  | infected _ _ =>
    cases hh'
    rfl
  | ignored => exact h h' hh' hscheduled'

theorem calls_turn (hturn : Turn par sent host e sent' host' out) :
    (out.count .addInfectedHost + if active host then 1 else 0) =
      if active host' then 1 else 0 := by
  cases hturn with
  | vulnerable hactive _ _ | infectedAtStart hactive _ | infected hactive _ =>
    simp only [active, hactive]
    rfl
  | probes _ _ hactive _ =>
    simp only [active, hactive]
    exact Nat.zero_add _
  | exhausted | ignored => exact Nat.zero_add _

theorem left_turn (hturn : Turn par sent host e sent' host' out)
    (hleft : 0 ≤ (left par host).toInt) :
    0 ≤ (left par host').toInt ∧
      (sentIn out).length + (left par host').toInt = (left par host).toInt := by
  cases hturn with
  | vulnerable _ _ hmax | infectedAtStart _ hmax =>
    simp only [left, hmax]
    exact ⟨hleft, Int.zero_add _⟩
  | @probes h _ _ packet _ hsome _ hmax =>
    have hne : h.maxProbingPackets.toInt ≠ (0 : Int32).toInt := mt Int32.toInt_inj.mp hsome
    change 0 ≤ h.maxProbingPackets.toInt at hleft
    change h.maxProbingPackets.toInt ≠ 0 at hne
    have hpos : 0 < h.maxProbingPackets.toInt := by omega
    have hlimit : h.maxProbingPackets > 0 := Int32.lt_iff_toInt_lt.mpr hpos
    simp only [left]
    rw [hmax, if_pos hlimit, toInt_sub_one hpos]
    change 0 ≤ _ ∧ (1 : Int) + _ = _
    omega
  | exhausted | infected _ _ | ignored => exact ⟨hleft, Int.zero_add _⟩

theorem record_turn {labels : List (Event × List Action)} (h : Record par labels host)
    (hturn : Turn par sent host e sent' host' out) : Record par ((e, out) :: labels) host' := by
  refine ⟨scheduled_turn h.scheduled hturn, ?_, fun hlimit => ?_⟩
  · rw [infectedCalls_cons, h.calls]
    exact calls_turn hturn
  · obtain ⟨hleft, htotal⟩ := h.sent hlimit
    obtain ⟨hleft', hsent⟩ := left_turn hturn hleft
    rw [packetsSent_cons]
    omega

theorem scheduleAt_ne {isScheduled : Bool} (h : isScheduled = false) :
    scheduleAt isScheduled ≠ .error .alreadyScheduled := by
  rw [h]
  exact ok_ne_error

theorem deliver_ne (hscheduled : h.isScheduled = true → h.isActive = true) (msg : Message) :
    deliver sent h msg ≠ .error .alreadyScheduled := by
  refine bind_ne_error ?_ fun _ _ => ok_ne_error
  cases msg with
  | selfMessage targetAddr =>
    simp only [Host.handleMessage]
    split
    · exact bind_ne_error (scheduleAt_ne rfl) fun _ _ => ok_ne_error
    · exact ok_ne_error
  | udpPacket isQuery =>
    simp only [Host.handleMessage]
    split
    · exact ok_ne_error
    rename_i hactive
    split
    · have hidle : h.isScheduled = false := Bool.eq_false_iff.mpr (mt hscheduled hactive)
      exact bind_ne_error (scheduleAt_ne hidle) fun _ _ => ok_ne_error
    · exact ok_ne_error
  | other => exact ok_ne_error

theorem handle_ne {ι : Type} {par : ι → Parameters} {a : ι}
    (h : ∀ h, host = some h → h.isScheduled = true → h.isActive = true) (e : Event) :
    handle par a sent host e ≠ .error .alreadyScheduled := by
  unfold handle
  split
  · refine bind_ne_error ?_ fun _ _ => ok_ne_error
    unfold Host.initial
    dsimp only
    split
    · exact bind_ne_error (scheduleAt_ne rfl) fun _ _ => ok_ne_error
    · exact ok_ne_error
  · split
    · exact deliver_ne (h _ rfl) _
    · decide
  · split
    · exact deliver_ne (h _ rfl) _
    · decide
  · exact deliver_ne (h _ rfl) _
  · exact deliver_ne (h _ rfl) _
  · decide

section Runs

variable {ι : Type}

abbrev Trace (ι : Type) :=
  List (Step (Network ι (List ProbingPacket) (Option Host)) (ι × Event) (List Action))

def start (ι : Type) : Network ι (List ProbingPacket) (Option Host) := ⟨[], fun _ => none⟩

/-! ## Chains of infection -/

/-- The host was infected by a chain of packets that starts at `source`. -/
inductive Chain : Trace ι → ι → List Nat → ι → Prop
  | initially {tr : Trace ι} {n : Network ι (List ProbingPacket) (Option Host)} {a : ι}
      {uniform : Rat} {out : List Action} (hvictim : .addStartVictim ∈ out) :
      Chain (⟨n, (a, .initial uniform), out⟩ :: tr) a [] a
  | delivered {later earlier : Trace ι} {n : Network ι (List ProbingPacket) (Option Host)}
      {st : Step (Network ι (List ProbingPacket) (Option Host)) (ι × Event) (List Action)}
      {source b : ι} {packets : List Nat} {out : List Action} {packet : ProbingPacket}
      (hsender : Chain earlier source packets st.event.1) (hsent : sentIn st.out = [packet]) :
      Chain (⟨n, (b, .probe st.pre.shared.length), out⟩ :: (later ++ st :: earlier)) source
        (packets ++ [st.pre.shared.length]) b
  | later {tr : Trace ι} {source a : ι} {packets : List Nat}
      {st : Step (Network ι (List ProbingPacket) (Option Host)) (ι × Event) (List Action)}
      (hchain : Chain tr source packets a) : Chain (st :: tr) source packets a

def SentByInfected (tr : Trace ι) (k : Nat) : Prop :=
  ∃ later st earlier source packets packet, tr = later ++ st :: earlier ∧
    st.pre.shared.length = k ∧ sentIn st.out = [packet] ∧
      Chain earlier source packets st.event.1

variable {tr : Trace ι} {a : ι}

theorem SentByInfected.later {k : Nat} (h : SentByInfected tr k)
    (st : Step (Network ι (List ProbingPacket) (Option Host)) (ι × Event) (List Action)) :
    SentByInfected (st :: tr) k := by
  obtain ⟨later, st', earlier, source, packets, packet, rfl, hrest⟩ := h
  exact ⟨st :: later, st', earlier, source, packets, packet, rfl, hrest⟩

structure Caused (tr : Trace ι) (n : Network ι (List ProbingPacket) (Option Host)) : Prop where
  hosts : ∀ a, active (n.members a) = true → ∃ source packets, Chain tr source packets a
  sent : ∀ k < n.shared.length, SentByInfected tr k

theorem caused_start : Caused [] (start ι) :=
  ⟨fun _ h => Bool.noConfusion h, fun k hk => absurd hk (Nat.not_lt_zero k)⟩

/-- What an event adds to the causes: the host that handled it may be infected now, and may
have sent a packet. -/
theorem caused_turn {par : Parameters} {n : Network ι (List ProbingPacket) (Option Host)}
    {e : Event} {sent' : List ProbingPacket} {host' : Option Host} {out : List Action}
    (h : Caused tr n)
    (hscheduled : ∀ h, n.members a = some h → h.isScheduled = true → h.isActive = true)
    (hturn : Turn par n.shared (n.members a) e sent' host' out) :
    (active host' = true → ∃ source packets, Chain (⟨n, (a, e), out⟩ :: tr) source packets a) ∧
      ∀ k < sent'.length, SentByInfected (⟨n, (a, e), out⟩ :: tr) k := by
  have hstill : active (n.members a) = true →
      ∃ source packets, Chain (⟨n, (a, e), out⟩ :: tr) source packets a := by
    intro hactive
    obtain ⟨source, packets, hchain⟩ := h.hosts a hactive
    exact ⟨source, packets, hchain.later⟩
  have hsent : ∀ k < n.shared.length, SentByInfected (⟨n, (a, e), out⟩ :: tr) k :=
    fun k hk => (h.sent k hk).later _
  generalize hhost : n.members a = host at hturn hscheduled hstill
  cases hturn with
  | vulnerable hactive _ _ =>
    refine ⟨fun hactive' => ?_, hsent⟩
    rw [active, hactive] at hactive'
    cases hactive'
  | infectedAtStart _ _ =>
    exact ⟨fun _ => ⟨a, [], .initially (by decide)⟩, hsent⟩
  | @probes h₀ _ _ packet hscheduled₀ _ hactive _ =>
    have hactive₀ : h₀.isActive = true := hscheduled h₀ rfl hscheduled₀
    refine ⟨fun _ => hstill hactive₀, fun k hk => ?_⟩
    rw [length_append, length_singleton] at hk
    rcases Nat.lt_succ_iff_lt_or_eq.mp hk with hk | rfl
    · exact hsent k hk
    -- the packet that is sent now, by a host that is infected
    have hinfected : active (n.members a) = true := by
      rw [hhost]
      exact hactive₀
    obtain ⟨source, packets, hchain⟩ := h.hosts a hinfected
    exact ⟨[], _, tr, source, packets, packet, rfl, rfl, rfl, hchain⟩
  | exhausted | ignored => exact ⟨hstill, hsent⟩
  | @infected _ k _ hk =>
    obtain ⟨later, st, earlier, source, packets, packet, rfl, rfl, hpacket, hchain⟩ := h.sent k hk
    exact ⟨fun _ => ⟨source, _, .delivered hchain hpacket⟩, hsent⟩

theorem isStartVictim_iff [DecidableEq ι] :
    isStartVictim (labelsOf a tr) ↔
      ∃ st ∈ tr, st.event.1 = a ∧ .addStartVictim ∈ st.out := by
  unfold isStartVictim labelsOf
  rw [mem_flatMap]
  constructor
  · rintro ⟨l, hl, hvictim⟩
    obtain ⟨st, hst, heq⟩ := mem_filterMap.mp hl
    obtain ⟨ha, heq⟩ := Option.ite_none_right_eq_some.mp heq
    cases heq
    exact ⟨st, hst, ha, hvictim⟩
  · rintro ⟨st, hst, ha, hvictim⟩
    exact ⟨_, mem_filterMap.mpr ⟨st, hst, if_pos ha⟩, hvictim⟩

theorem Chain.start_victim [DecidableEq ι] {source : ι} {packets : List Nat}
    (h : Chain tr source packets a) :
    isStartVictim (labelsOf source tr) ∧ (packets = [] → a = source) := by
  simp only [isStartVictim_iff]
  induction h with
  | initially hvictim => exact ⟨⟨_, mem_cons_self, rfl, hvictim⟩, fun _ => rfl⟩
  | delivered _ _ ih =>
    obtain ⟨⟨st, hst, hvictim⟩, -⟩ := ih
    refine ⟨⟨st, ?_, hvictim⟩, fun hnil => ?_⟩
    · exact mem_cons_of_mem _ (mem_append_right _ (mem_cons_of_mem _ hst))
    · exact absurd hnil (append_ne_nil_of_right_ne_nil _ (cons_ne_nil _ _))
  | later _ ih =>
    obtain ⟨⟨st, hst, hvictim⟩, hnil⟩ := ih
    exact ⟨⟨st, mem_cons_of_mem _ hst, hvictim⟩, hnil⟩

variable [DecidableEq ι] {par : ι → Parameters} {tr : Trace ι}
  {n : Network ι (List ProbingPacket) (Option Host)}

theorem record_run (h : Run (step (handle par)) (start ι) tr n) (a : ι) :
    Record (par a) (labelsOf a tr) (n.members a) :=
  history_of_run (record_start (par a))
    (fun _ _ _ _ _ _ _ hrecord hok => record_turn hrecord (handle_turn hok)) h

theorem active_turn {par : Parameters} {sent sent' : List ProbingPacket}
    {host host' : Option Host} {e : Event} {out : List Action}
    (hturn : Turn par sent host e sent' host' out) (hactive : active host = true) :
    active host' = true := by
  have hcalls := calls_turn hturn
  rw [if_pos hactive] at hcalls
  by_contra hinactive
  rw [if_neg hinactive] at hcalls
  omega

theorem active_run (h : Run (step (handle par)) (start ι) tr n) (a : ι) :
    ∀ st ∈ tr, active (st.pre.members a) = true → active (n.members a) = true := by
  induction h with
  | start =>
    intro st hst
    exact absurd hst not_mem_nil
  | @next tr n n' e out _ hstep ih =>
    obtain ⟨b, e⟩ := e
    obtain ⟨sent', host', hok, rfl⟩ := step_eq_ok.mp hstep
    have hkept : active (n.members a) = true →
        active (Function.update n.members b host' a) = true := by
      intro hactive
      by_cases hab : a = b
      · subst hab
        rw [Function.update_self]
        exact active_turn (handle_turn hok) hactive
      · rwa [Function.update_of_ne hab]
    refine forall_mem_cons.mpr ⟨hkept, fun st hst hactive => ?_⟩
    exact hkept (ih st hst hactive)

theorem caused_run (h : Run (step (handle par)) (start ι) tr n) : Caused tr n := by
  induction h with
  | start => exact caused_start
  | @next tr n n' e out hrun hstep ih =>
    obtain ⟨a, e⟩ := e
    obtain ⟨sent', host', hok, rfl⟩ := step_eq_ok.mp hstep
    obtain ⟨hhost, hsent⟩ := caused_turn ih (record_run hrun a).scheduled (handle_turn hok)
    refine ⟨fun b hb => ?_, hsent⟩
    change active (Function.update n.members a host' b) = true at hb
    by_cases hab : b = a
    · subst hab
      rw [Function.update_self] at hb
      exact hhost hb
    · rw [Function.update_of_ne hab] at hb
      obtain ⟨source, packets, hchain⟩ := ih.hosts b hb
      exact ⟨source, packets, hchain.later⟩

/-- The spread of the worm: a host stays infected, is counted once, was infected by a chain of
packets from a start victim, and keeps to its limit. -/
theorem epidemic (h : Run (Network.step (handle par)) (start ι) tr n) (a : ι) :
    (∀ st ∈ tr, active (st.pre.members a) = true → active (n.members a) = true) ∧
      infectedCalls (Network.labelsOf a tr) = (if active (n.members a) then 1 else 0) ∧
      (active (n.members a) = true → ¬ isStartVictim (Network.labelsOf a tr) →
        ∃ source packets, isStartVictim (Network.labelsOf source tr) ∧ packets ≠ [] ∧
          Chain tr source packets a) ∧
      (∀ e, Network.step (handle par) n (a, e) ≠ .error .alreadyScheduled) ∧
      (0 ≤ (par a).maxProbingPackets.toInt →
        (packetsSent (Network.labelsOf a tr) : Int) ≤ (par a).maxProbingPackets.toInt) := by
  have hrecord := record_run h a
  refine ⟨active_run h a, hrecord.calls, fun hactive hnot => ?_, fun e => ?_, fun hlimit => ?_⟩
  · obtain ⟨source, packets, hchain⟩ := (caused_run h).hosts a hactive
    obtain ⟨hsource, hnil⟩ := hchain.start_victim
    refine ⟨source, packets, hsource, fun hempty => hnot ?_, hchain⟩
    rw [hnil hempty]
    exact hsource
  · exact step_ne_error (handle_ne hrecord.scheduled e)
  · obtain ⟨hleft, htotal⟩ := hrecord.sent hlimit
    omega

end Runs

def twoHosts (second : Bool) : Parameters :=
  { maxProbingPackets := if second then 2 else 1
    sourcePort := 1434
    listenAndVictimPort := 1434
    probingPacketLength := 376
    attackTag := 1
    startProbingProbability := if second then 0 else 1 }

def outbreak : List (Bool × Event) :=
  [(false, .initial (1 / 2)), (true, .initial (1 / 2)), (false, .timer ⟨7⟩), (true, .probe 0),
    (true, .probe 0), (false, .timer ⟨8⟩), (true, .timer ⟨9⟩)]

theorem epidemic_outbreak :
    (replays (Network.step (handle twoHosts)) (start Bool) outbreak = true ∧
      active ((replayState (Network.step (handle twoHosts)) (start Bool) outbreak).members true) =
        true) ∧
      infectedCalls (Network.labelsOf true
        (replayTrace (Network.step (handle twoHosts)) (start Bool) outbreak)) = 1 := by
  have hrun : replays (step (handle twoHosts)) (start Bool) outbreak = true := by
    decide +kernel
  have hactive : active ((replayState (step (handle twoHosts)) (start Bool)
      outbreak).members true) = true := by decide +kernel
  refine ⟨⟨hrun, hactive⟩, ?_⟩
  rw [(epidemic (run_of_replays hrun) true).2.1, if_pos hactive]

end WormsAttack.Worm
