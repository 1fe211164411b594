/-
  The ports of the attack packets.
-/
import WormsAttack.Ddos.Waves
import WormsAttack.Foundation.Machine

namespace WormsAttack.Ddos

open Foundation

def wrapSource (port : Int32) : Int32 := if port < 1 then 9999 else port

def wrapVictim (port : Int32) : Int32 := if port > 9999 then 1 else port

@[simp] theorem wrapSource_wrapSource (port : Int32) :
    wrapSource (wrapSource port) = wrapSource port := by
  unfold wrapSource
  split
  · decide
  · rfl

@[simp] theorem wrapVictim_wrapVictim (port : Int32) :
    wrapVictim (wrapVictim port) = wrapVictim port := by
  unfold wrapVictim
  split
  · decide
  · rfl

theorem toInt_wrapSource (port : Int32) :
    (wrapSource port).toInt = if port.toInt < 1 then 9999 else port.toInt := by
  have hiff : port < 1 ↔ port.toInt < 1 := Int32.lt_iff_toInt_lt
  simp only [wrapSource, hiff, apply_ite Int32.toInt]
  rfl

theorem toInt_wrapVictim (port : Int32) :
    (wrapVictim port).toInt = if 9999 < port.toInt then 1 else port.toInt := by
  have hiff : port > 9999 ↔ 9999 < port.toInt := Int32.lt_iff_toInt_lt
  simp only [wrapVictim, hiff, apply_ite Int32.toInt]
  rfl

theorem toNat_port {port : Int32} (hpos : 0 ≤ port.toInt) (hle : port.toInt ≤ 65535) :
    (port.toUInt32.toUInt16.toNat : Int) = port.toInt := by
  have hmod : port.toInt = Int.bmod port.toUInt32.toNat (2 ^ 32) := BitVec.toInt_eq_toNat_bmod _
  rw [UInt32.toNat_toUInt16]
  rw [Int.bmod_def] at hmod
  split at hmod <;> omega

/-! ## Packets -/

def FloodPayload.source? : FloodPayload → Option Int
  | .tcp _ _ _ _ _ srcPort _ => some srcPort.toNat
  | .udp _ sourcePort _ => some sourcePort.toInt
  | .ping _ => none

def FloodPayload.victim? : FloodPayload → Option Int
  | .tcp _ _ _ _ _ _ destPort => some destPort.toNat
  | .udp _ _ destinationPort => some destinationPort.toInt
  | .ping _ => none

structure Attack.Aims (a : Attack) (source victim : Int32) : Prop where
  sourceWalk : a.srcPortWalkOn = decide (source = -1)
  victimWalk : a.dstPortWalkOn = decide (victim = -1)
  source : source ≠ -1 → wrapSource a.sourcePort = wrapSource source
  victim : victim ≠ -1 → wrapVictim a.victimPort = wrapVictim victim

variable {par : Parameters} {i : Nat}

theorem element_ok {α : Type} {as : List α} {x : α} (h : element as i = .ok x) :
    as[i]? = some x := by
  unfold element at h
  split at h
  · rename_i hx
    cases h
    exact hx
  · cases h

theorem aims_attackAt {a : Attack} (h : attackAt par i = .ok a) :
    ∃ source victim, par.sourcePort[i]? = some source ∧ par.destinationPort[i]? = some victim ∧
      a.Aims source victim := by
  obtain ⟨victim, hvictim, h⟩ := bind_eq_ok.mp h
  obtain ⟨source, hsource, h⟩ := bind_eq_ok.mp h
  iterate 5 obtain ⟨_, -, h⟩ := bind_eq_ok.mp h
  cases h
  refine ⟨source, victim, element_ok hsource, element_ok hvictim, rfl, rfl, fun hne => ?_,
    fun hne => ?_⟩
  · rw [if_neg hne]
  · rw [if_neg hne]

section Packet

variable {a : Attack} {source victim : Int32} (h : a.Aims source victim)

include h

theorem sourcePort_walkPorts (hne : source ≠ -1) : a.walkPorts.sourcePort = wrapSource source := by
  have hoff : a.srcPortWalkOn = false := h.sourceWalk.trans (decide_eq_false hne)
  rw [← h.source hne, Attack.walkPorts, hoff]
  rfl

theorem victimPort_walkPorts (hne : victim ≠ -1) : a.walkPorts.victimPort = wrapVictim victim := by
  have hoff : a.dstPortWalkOn = false := h.victimWalk.trans (decide_eq_false hne)
  rw [← h.victim hne, Attack.walkPorts, hoff]
  rfl

theorem aims_walkPorts : a.walkPorts.Aims source victim := by
  refine ⟨h.sourceWalk, h.victimWalk, fun hne => ?_, fun hne => ?_⟩
  · rw [sourcePort_walkPorts h hne, wrapSource_wrapSource]
  · rw [victimPort_walkPorts h hne, wrapVictim_wrapVictim]

theorem aims_flood (sequenceNo : Int32) : (a.flood sequenceNo).1.Aims source victim := by
  unfold Attack.flood
  split
  · exact aims_walkPorts h
  · exact h
  · exact aims_walkPorts h

theorem source_flood (hpos : 0 ≤ source.toInt)
    (hle : source.toInt ≤ 65535) (sequenceNo : Int32) {port : Int}
    (hport : (a.flood sequenceNo).2.payload.source? = some port) :
    port = if source.toInt < 1 then 9999 else source.toInt := by
  have hne : source ≠ -1 := by
    rintro rfl
    exact absurd hpos (by decide)
  have hwalk := sourcePort_walkPorts h hne
  rw [← toInt_wrapSource]
  unfold Attack.flood at hport
  split at hport
  · cases hport
    rw [hwalk]
    apply toNat_port <;> rw [toInt_wrapSource] <;> split <;> omega
  · cases hport
  · cases hport
    rw [hwalk]

theorem victim_flood (hpos : 0 ≤ victim.toInt)
    (hle : victim.toInt ≤ 65535) (sequenceNo : Int32) {port : Int}
    (hport : (a.flood sequenceNo).2.payload.victim? = some port) :
    port = if 9999 < victim.toInt then 1 else victim.toInt := by
  have hne : victim ≠ -1 := by
    rintro rfl
    exact absurd hpos (by decide)
  have hwalk := victimPort_walkPorts h hne
  rw [← toInt_wrapVictim]
  unfold Attack.flood at hport
  split at hport
  · cases hport
    rw [hwalk]
    apply toNat_port <;> rw [toInt_wrapVictim] <;> split <;> omega
  · cases hport
  · cases hport
    rw [hwalk]

end Packet

/-! ## Runs -/

inductive Aiming (par : Parameters) (z z' : Zombie) (out : List Action) : Prop
  | keeps (hattack : z'.attack = z.attack) (hindex : z'.attackIndex = z.attackIndex)
      (hsilent : ∀ packet, .send packet ∉ out)
  | begins {a : Attack} (ha : attackAt par z'.attackIndex = .ok a) (hattack : z'.attack = some a)
      (hsilent : ∀ packet, .send packet ∉ out)
  | floods {a : Attack} {sequenceNo : Int32} (ha : z.attack = some a)
      (hattack : z'.attack = some (a.flood sequenceNo).1) (hindex : z'.attackIndex = z.attackIndex)
      (hsends : ∀ packet, .send packet ∈ out → packet = (a.flood sequenceNo).2)

variable {z : Zombie} {out : List Action} {z' : Zombie} {e : Event}

theorem step_aiming (h : step par z e = .ok (z', out)) : Aiming par z z' out := by
  cases step_stepped h with
  | starts _ _ hdecide =>
    rcases decideAttack_cases hdecide with ⟨rfl, rfl⟩ | ⟨-, hstop⟩ | ⟨a, ha, -, rfl, rfl⟩ |
      ⟨a, ha, -, rfl, rfl⟩
    · exact .keeps rfl rfl (by simp)
    · cases hstop
      exact .keeps rfl rfl (by simp)
    · exact .begins ha rfl (by simp [Zombie.recordAttackScalars])
    · exact .begins ha rfl (by simp)
  | sends _ _ ha | ends _ _ ha => exact .floods ha rfl rfl (by simp)
  | discards | finishes | finishesIdle => exact .keeps rfl rfl (by simp)

/-- The current attack has the ports of its wave, which is the one with the number
`attackIndex`. -/
def Aimed (par : Parameters) (z : Zombie) : Prop :=
  ∀ a, z.attack = some a → ∃ source victim, par.sourcePort[z.attackIndex]? = some source ∧
    par.destinationPort[z.attackIndex]? = some victim ∧ a.Aims source victim

theorem aimed_step (h : Aimed par z) (hstep : step par z e = .ok (z', out)) : Aimed par z' := by
  intro a ha
  cases step_aiming hstep with
  | keeps hattack hindex _ =>
    rw [hattack] at ha
    rw [hindex]
    exact h a ha
  | begins hat hattack _ =>
    rw [hattack] at ha
    cases ha
    exact aims_attackAt hat
  | floods hbefore hattack hindex _ =>
    rw [hattack] at ha
    cases ha
    obtain ⟨source, victim, hsource, hvictim, haims⟩ := h _ hbefore
    rw [hindex]
    exact ⟨source, victim, hsource, hvictim, aims_flood haims _⟩

theorem aimed_initial (h : Zombie.initial par = .ok z) : Aimed par z := by
  obtain ⟨-, h⟩ := unless_eq_ok.mp h
  split at h <;> cases h
  intro a ha
  cases ha

variable {tr : List (Step Zombie Event (List Action))}

theorem sent_of_run {z₀ : Zombie}
    (hinitial : Zombie.initial par = .ok z₀) (hrun : Run (step par) z₀ tr z)
    {st : Step Zombie Event (List Action)} (hst : st ∈ tr) {packet : FloodPacket}
    (hsend : .send packet ∈ st.out) :
    ∃ a source victim sequenceNo, par.sourcePort[st.pre.attackIndex]? = some source ∧
      par.destinationPort[st.pre.attackIndex]? = some victim ∧ a.Aims source victim ∧
      packet = (Attack.flood a sequenceNo).2 := by
  obtain ⟨later, earlier, rfl⟩ := List.append_of_mem hst
  obtain ⟨z', hbefore, hstep, -⟩ := hrun.split
  have haimed : Aimed par st.pre := hbefore.invariant (I := fun _ z => Aimed par z)
    (aimed_initial hinitial) fun _ _ _ _ _ haimed hstep => aimed_step haimed hstep
  cases step_aiming hstep with
  | keeps _ _ hsilent | begins _ _ hsilent => exact absurd hsend (hsilent packet)
  | floods ha _ _ hsends =>
    obtain ⟨source, victim, hsource, hvictim, haims⟩ := haimed _ ha
    exact ⟨_, source, victim, _, hsource, hvictim, haims, hsends packet hsend⟩

/-- A wave has its destination port if that is not above 9999, and its source port if that is not
0. -/
theorem configured_ports_iff {par : Parameters} {z₀ z : Zombie}
    {tr : List (Step Zombie Event (List Action))} (hinitial : Zombie.initial par = .ok z₀)
    (hrun : Run (step par) z₀ tr z) {st : Step Zombie Event (List Action)} (hst : st ∈ tr)
    {packet : FloodPacket} (hsend : .send packet ∈ st.out) :
    (∀ victim port, par.destinationPort[st.pre.attackIndex]? = some victim → 0 ≤ victim.toInt →
        victim.toInt ≤ 65535 → packet.payload.victim? = some port →
        (port = victim.toInt ↔ victim.toInt ≤ 9999)) ∧
      ∀ source port, par.sourcePort[st.pre.attackIndex]? = some source → 0 ≤ source.toInt →
        source.toInt ≤ 65535 → packet.payload.source? = some port →
        (port = source.toInt ↔ 1 ≤ source.toInt) := by
  obtain ⟨a, source, victim, sequenceNo, hsource, hvictim, haims, rfl⟩ :=
    sent_of_run hinitial hrun hst hsend
  constructor
  · intro victim' port hvictim' hpos hle hport
    rw [hvictim] at hvictim'
    cases hvictim'
    rw [victim_flood haims hpos hle sequenceNo hport]
    split <;> omega
  · intro source' port hsource' hpos hle hport
    rw [hsource] at hsource'
    cases hsource'
    rw [source_flood haims hpos hle sequenceNo hport]
    split <;> omega

def toPort53 : FloodPacket :=
  { payload := .udp 164 4000 53, destAddr := .ipv4 ⟨1⟩, attackTag := udpFlooding }

theorem configured_ports_iff_udp :
    replays (step (twoAttacks [10, 15])) (ready [10, 15]) [.start soon, .flood 7] = true ∧
      ((53 : Int) = (53 : Int32).toInt ↔ (53 : Int32).toInt ≤ 9999) ∧
      ((4000 : Int) = (4000 : Int32).toInt ↔ 1 ≤ (4000 : Int32).toInt) := by
  have hrun :
      replays (step (twoAttacks [10, 15])) (ready [10, 15]) [.start soon, .flood 7] = true := by
    decide +kernel
  have hsent :
      ∃ st ∈ replayTrace (step (twoAttacks [10, 15])) (ready [10, 15]) [.start soon, .flood 7],
        Action.send toPort53 ∈ st.out ∧ st.pre.attackIndex = 0 := by
    decide +kernel
  obtain ⟨st, hst, hsend, hindex⟩ := hsent
  obtain ⟨hvictim, hsource⟩ :=
    configured_ports_iff (by decide +kernel) (run_of_replays hrun) hst hsend
  rw [hindex] at hvictim hsource
  refine ⟨hrun, hvictim 53 53 rfl ?_ ?_ rfl, hsource 4000 4000 rfl ?_ ?_ rfl⟩ <;> decide

def highPort : Parameters :=
  { twoAttacks [10, 15] with destinationPort := [27015, 80], sourcePort := [0, -1] }

theorem high_port_not_used :
    Zombie.initial highPort = .ok (ready [10, 15]) ∧
      replays (step highPort) (ready [10, 15]) [.start soon, .flood 7] = true ∧
      (replayTrace (step highPort) (ready [10, 15]) [.start soon, .flood 7]).head?.map
          (fun st => (st.pre.attackIndex, st.out)) =
        some (0, [.send
          { payload := .udp 164 9999 1, destAddr := .ipv4 ⟨1⟩, attackTag := udpFlooding }]) := by
  decide +kernel

/-! ## Walks -/

/-- The wave number `i` walks through the ports on both sides, by TCP or UDP. -/
def Parameters.WalksAt (par : Parameters) (i : Nat) : Prop :=
  par.sourcePort[i]? = some (-1) ∧ par.destinationPort[i]? = some (-1) ∧
    ∃ type, par.attackType[i]? = some type ∧ type ≠ icmpFlooding ∧ type ≠ smurfFlooding

structure Attack.Walks (a : Attack) (k : Nat) : Prop where
  sourceWalk : a.srcPortWalkOn = true
  victimWalk : a.dstPortWalkOn = true
  source : a.sourcePort.toInt = 9999 - k % 9999
  victim : a.victimPort.toInt = k % 9999 + 1
  func : a.floodFunc ≠ .handlePingFlood

structure FloodPacket.Walks (packet : FloodPacket) (k : Nat) : Prop where
  victim : packet.payload.victim? = some ((k : Int) % 9999 + 1)
  source : packet.payload.source? = some (9999 - (k : Int) % 9999)

theorem walks_attackAt {a : Attack} (hwalks : par.WalksAt i)
    (h : attackAt par i = .ok a) : a.Walks 0 := by
  obtain ⟨hsource, hvictim, type, htype, hicmp, hsmurf⟩ := hwalks
  simp only [attackAt, element, hsource, hvictim, htype, bind_eq_ok, Except.ok.injEq] at h
  obtain ⟨_, rfl, _, rfl, _, -, _, -, _, rfl, func, hfunc, _, -, rfl⟩ := h
  refine ⟨rfl, rfl, rfl, rfl, ?_⟩
  rintro rfl
  obtain ⟨-, hfunc⟩ := unless_eq_ok.mp hfunc
  simp only [hicmp, hsmurf, decide_false, Bool.or_self, Bool.false_eq_true, if_false] at hfunc
  split at hfunc <;> cases hfunc

theorem walks_walkPorts {a : Attack} {k : Nat} (h : a.Walks k) : a.walkPorts.Walks (k + 1) := by
  obtain ⟨hsourceOn, hvictimOn, hsource, hvictim, hfunc⟩ := h
  have hsub := toInt_sub_one (n := a.sourcePort) (by omega)
  have hadd := toInt_add_one (n := a.victimPort) (by omega)
  have hsourcePort : a.walkPorts.sourcePort = wrapSource (a.sourcePort - 1) := by
    simp only [Attack.walkPorts, hsourceOn, if_true, wrapSource]
  have hvictimPort : a.walkPorts.victimPort = wrapVictim (a.victimPort + 1) := by
    simp only [Attack.walkPorts, hvictimOn, if_true, wrapVictim]
  refine ⟨hsourceOn, hvictimOn, ?_, ?_, hfunc⟩
  · rw [hsourcePort, toInt_wrapSource, hsub]
    split <;> omega
  · rw [hvictimPort, toInt_wrapVictim, hadd]
    split <;> omega

theorem walks_flood {a : Attack} {k : Nat} (h : a.Walks k) (sequenceNo : Int32) :
    (a.flood sequenceNo).1.Walks (k + 1) ∧ (a.flood sequenceNo).2.Walks (k + 1) := by
  have hnext := walks_walkPorts h
  have hvictim := hnext.victim
  have hsource := hnext.source
  unfold Attack.flood
  split
  · refine ⟨hnext, congrArg some ?_, congrArg some ?_⟩
    · exact (toNat_port (by omega) (by omega)).trans hvictim
    · exact (toNat_port (by omega) (by omega)).trans hsource
  · rename_i hping
    exact absurd hping h.func
  · exact ⟨hnext, congrArg some hvictim, congrArg some hsource⟩

def sentAfter (packets : List FloodPacket) : Action → List FloodPacket
  | .attack _ => []
  | .send packet => packets ++ [packet]
  | .record _ => packets

/-- The packets of the last wave of a run, in the order in which they were sent. -/
def wavePackets : List (Step Zombie Event (List Action)) → List FloodPacket
  | [] => []
  | st :: tr => st.out.foldl sentAfter (wavePackets tr)

def Walked (par : Parameters) (tr : List (Step Zombie Event (List Action))) (z : Zombie) : Prop :=
  par.WalksAt z.attackIndex → (∀ a, z.attack = some a → a.Walks (wavePackets tr).length) ∧
    ∀ (k : Nat) (packet : FloodPacket), (wavePackets tr)[k]? = some packet → packet.Walks (k + 1)

theorem walked_step (h : Walked par tr z) (hstep : step par z e = .ok (z', out)) :
    Walked par (⟨z, e, out⟩ :: tr) z' := by
  cases step_stepped hstep with
  | starts _ _ hdecide =>
    rcases decideAttack_cases hdecide with ⟨rfl, rfl⟩ | ⟨-, hstop⟩ | ⟨a, ha, -, rfl, rfl⟩ |
      ⟨a, ha, -, rfl, rfl⟩
    · exact h
    · cases hstop
      exact h
    all_goals
      refine fun hat => ⟨fun a' ha' => ?_, fun k packet hpacket => by cases hpacket⟩
      cases ha'
      exact walks_attackAt hat ha
  | @sends sequenceNo _ a _ _ ha | @ends sequenceNo _ a _ _ ha =>
    intro hat
    obtain ⟨hwalks, hpackets⟩ := h hat
    obtain ⟨hnext, hports⟩ := walks_flood (hwalks a ha) sequenceNo
    refine ⟨fun a' ha' => ?_, fun k packet hpacket => ?_⟩
    · cases ha'
      change Attack.Walks _ (wavePackets tr ++ [_]).length
      rw [List.length_append]
      exact hnext
    · change (wavePackets tr ++ [_])[k]? = _ at hpacket
      rcases getElem?_concat_eq_some.mp hpacket with hold | ⟨rfl, rfl⟩
      · exact hpackets k packet hold
      · exact hports
  | discards | finishes | finishesIdle => exact h

/-- Packet `k` of a wave that walks goes to port `k mod 9999 + 1` and comes from port `9999 - k mod
9999`. -/
theorem port_walk {par : Parameters} {z₀ z : Zombie} {tr : List (Step Zombie Event (List Action))}
    (hinitial : Zombie.initial par = .ok z₀) (hrun : Run (step par) z₀ tr z)
    (hwalks : par.WalksAt z.attackIndex) :
    (∀ (k : Nat) (packet : FloodPacket), (wavePackets tr)[k]? = some packet →
        packet.Walks (k + 1)) ∧
      ∀ n p : Nat, n + 9999 ≤ (wavePackets tr).length → 1 ≤ p → p ≤ 9999 →
        (∃! k, (n ≤ k ∧ k < n + 9999) ∧
          (wavePackets tr)[k]?.bind (·.payload.victim?) = some (p : Int)) ∧
        ∃! k, (n ≤ k ∧ k < n + 9999) ∧
          (wavePackets tr)[k]?.bind (·.payload.source?) = some (p : Int) := by
  have hstart : Walked par [] z₀ := by
    obtain ⟨-, h⟩ := unless_eq_ok.mp hinitial
    split at h <;> cases h
    exact fun _ => ⟨fun a ha => (by cases ha), fun k packet hpacket => (by cases hpacket)⟩
  have hpackets := (hrun.invariant (I := Walked par) hstart
    (fun _ _ _ _ _ hwalked hstep => walked_step hwalked hstep) hwalks).2
  refine ⟨hpackets, fun n p hn hpos hle => ?_⟩
  have hports : ∀ k < n + 9999,
      ((wavePackets tr)[k]?.bind (·.payload.victim?) = some (p : Int) ↔
        (k + 1 : Int) % 9999 + 1 = p) ∧
      ((wavePackets tr)[k]?.bind (·.payload.source?) = some (p : Int) ↔
        9999 - (k + 1 : Int) % 9999 = p) := by
    intro k hk
    have hget := List.getElem?_eq_getElem (l := wavePackets tr) (show k < _ by omega)
    obtain ⟨hvictim, hsource⟩ := hpackets k _ hget
    rw [hget, Option.bind_some, Option.bind_some, hvictim, hsource, Option.some.injEq,
      Option.some.injEq]
    exact ⟨Iff.rfl, Iff.rfl⟩
  constructor
  · refine ⟨n + (p + 19996 - n % 9999) % 9999, ⟨by omega, (hports _ (by omega)).1.mpr (by omega)⟩,
      fun k hk => ?_⟩
    have := (hports k hk.1.2).1.mp hk.2
    omega
  · refine ⟨n + (29996 - p - n % 9999) % 9999, ⟨by omega, (hports _ (by omega)).2.mpr (by omega)⟩,
      fun k hk => ?_⟩
    have := (hports k hk.1.2).2.mp hk.2
    omega

def walking : Parameters :=
  { twoAttacks [10, 15] with destinationPort := [-1, 80], sourcePort := [-1, -1] }

def firstWalking : List (Step Zombie Event (List Action)) :=
  replayTrace (step walking) (ready [10, 15]) [.start soon, .flood 7]

theorem port_walk_first :
    ∃ packet, (wavePackets firstWalking)[0]? = some packet ∧ packet.Walks 1 := by
  have hrun : replays (step walking) (ready [10, 15]) [.start soon, .flood 7] = true := by
    decide +kernel
  have hindex : (replayState (step walking) (ready [10, 15]) [.start soon, .flood 7]).attackIndex =
      0 := by decide +kernel
  have hsent : (wavePackets firstWalking)[0]? = some
      { payload := .udp 164 9998 2, destAddr := .ipv4 ⟨1⟩, attackTag := udpFlooding } := by
    decide +kernel
  have hwalks : walking.WalksAt 0 := ⟨rfl, rfl, udpFlooding, rfl, by decide, by decide⟩
  exact ⟨_, hsent,
    (port_walk (by decide +kernel) (run_of_replays hrun) (hindex.symm ▸ hwalks)).1 0 _ hsent⟩

end WormsAttack.Ddos
