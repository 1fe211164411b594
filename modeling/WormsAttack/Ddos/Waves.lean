/-
  The attacks of a zombie and what is recorded of them.

  What a zombie does is a sequence of waves.
-/
import WormsAttack.Foundation.Run
import WormsAttack.Ddos.Handlers

namespace WormsAttack.Ddos

open Foundation Inet List

/-! ## Waves -/

structure Wave where
  index : Nat
  packets : List FloodPacket
  started : Int
  ended : Int

def Wave.actions (w : Wave) : List Action :=
  .attack w.index ::
    (w.packets.map Action.send ++
      [.record
        { attackIndex := w.index
          attackStarted := w.started
          attackEnded := w.ended
          packetsSent := w.packets.length }])

def current : Option (Nat × List FloodPacket) → List Action
  | some (index, packets) => .attack index :: packets.map Action.send
  | none => []

def actionsOf : List (Step Zombie Event (List Action)) → List Action
  | [] => []
  | st :: tr => actionsOf tr ++ st.out

/-! ## One event -/

inductive Turn (z z' : Zombie) : List Action → Prop
  | quiet (hactive : z'.isActive = z.isActive)
      (htimer : z'.floodingTime.isSome = z.floodingTime.isSome)
      (hfinished : z'.finished = false) (hsent : z'.packetsSent = z.packetsSent)
      (hindex : z'.attackIndex = z.attackIndex) : Turn z z' []
  | begins (hidle : z.isActive = false) (hactive : z'.isActive = true)
      (htimer : z'.floodingTime.isSome = true) (hfinished : z'.finished = false)
      (hsent : z'.packetsSent = z.packetsSent) : Turn z z' [.attack z'.attackIndex]
  | switches {ended : Int} (hbusy : z.isActive = true) (hactive : z'.isActive = true)
      (htimer : z'.floodingTime.isSome = true) (hfinished : z'.finished = false)
      (hsent : z'.packetsSent = 0) :
      Turn z z' [.record ⟨z.attackIndex, z.attackStart, ended, z.packetsSent⟩,
        .attack z'.attackIndex]
  | stops {ended : Int} (hbusy : z.isActive = true) (hactive : z'.isActive = false)
      (htimer : z'.floodingTime.isSome = false) (hsent : z'.packetsSent = 0) :
      Turn z z' [.record ⟨z.attackIndex, z.attackStart, ended, z.packetsSent⟩]
  | sends {packet : FloodPacket} (hdue : z.floodingTime.isSome = true)
      (hactive : z'.isActive = z.isActive) (htimer : z'.floodingTime.isSome = true)
      (hfinished : z'.finished = false) (hsent : z'.packetsSent = z.packetsSent + 1)
      (hindex : z'.attackIndex = z.attackIndex) : Turn z z' [.send packet]
  | ends {packet : FloodPacket} {ended : Int} (hdue : z.floodingTime.isSome = true)
      (hactive : z'.isActive = false) (htimer : z'.floodingTime.isSome = false)
      (hsent : z'.packetsSent = 0) :
      Turn z z' [.send packet,
        .record ⟨z.attackIndex, z.attackStart, ended, z.packetsSent + 1⟩]
  | finishes {ended : Int} (hbusy : z.isActive = true) (hactive : z'.isActive = true)
      (htimer : z'.floodingTime = z.floodingTime) (hfinished : z'.finished = true)
      (hsent : z'.packetsSent = 0) :
      Turn z z' [.record ⟨z.attackIndex, z.attackStart, ended, z.packetsSent⟩]
  | finishesIdle (hidle : z.isActive = false) (hactive : z'.isActive = false)
      (htimer : z'.floodingTime = z.floodingTime) (hfinished : z'.finished = true)
      (hsent : z'.packetsSent = z.packetsSent) : Turn z z' []

variable {t : Int} {z' z : Zombie} {par : Parameters} {out : List Action} {draw : Draw}
  {actions : List Action} {f : Stop}

theorem scheduleAt_ok (h : z.scheduleAt t = .ok z') : z' = { z with floodingTime := some t } := by
  obtain ⟨-, h⟩ := unless_eq_ok.mp h
  split at h <;> cases h
  rfl

theorem setCurrent_ok {i : Nat} {delay : Int}
    (h : z.setCurrentFloodingParameter par i delay = .ok (z', out)) :
    ∃ a, attackAt par i = .ok a ∧ out = [.attack z.index] ∧
      z' = { z with
        floodingTimes := 0
        attack := some a
        floodingDelay := delay
        floodingTime := none
        attackIndex := z.index
        attackStart := z.now + delay } := by
  obtain ⟨-, h⟩ := unless_eq_ok.mp h
  obtain ⟨a, ha, h⟩ := bind_eq_ok.mp h
  split at h
  · cases h
  · cases h
    exact ⟨a, ha, rfl, rfl⟩

def Zombie.begun (z : Zombie) (a : Attack) (delay : Int) : Zombie :=
  { z with
    floodingTimes := 0
    attack := some a
    floodingDelay := delay
    floodingTime := some (z.now + delay)
    attackIndex := z.index
    attackStart := z.now + delay }

theorem begin_ok (h : z.begin par draw = .ok (z', out)) :
    ∃ a, attackAt par z.index = .ok a ∧ out = [.attack z.index] ∧
      z' = z.begun a draw.floodingDelay := by
  obtain ⟨⟨z₁, out₁⟩, hset, h⟩ := bind_eq_ok.mp h
  obtain ⟨z₂, hschedule, h⟩ := bind_eq_ok.mp h
  cases h
  obtain ⟨a, ha, rfl, rfl⟩ := setCurrent_ok hset
  rw [scheduleAt_ok hschedule]
  exact ⟨a, ha, rfl, rfl⟩

/-- What a start message can do: nothing, stop the attack, switch to another one, begin one. -/
theorem decideAttack_cases (h : z.decideAttack par draw = .ok (z', out)) :
    (z' = z ∧ out = []) ∨
      (z.isActive = true ∧
        (z', out) = { z with isActive := false, floodingTime := none }.recordAttackScalars) ∨
      (∃ a, attackAt par z.index = .ok a ∧ z.isActive = true ∧
        z' = z.recordAttackScalars.1.begun a draw.floodingDelay ∧
          out = z.recordAttackScalars.2 ++ [.attack z.index]) ∨
      ∃ a, attackAt par z.index = .ok a ∧ z.isActive = false ∧
        z' = { z.begun a draw.floodingDelay with isActive := true } ∧ out = [.attack z.index] := by
  unfold Zombie.decideAttack at h
  split at h
  · rename_i hbusy
    split at h
    · obtain ⟨⟨z₁, out₁⟩, hbegin, h⟩ := bind_eq_ok.mp h
      cases h
      obtain ⟨a, ha, rfl, rfl⟩ := begin_ok hbegin
      exact .inr (.inr (.inl ⟨a, ha, hbusy, rfl, rfl⟩))
    · split at h
      · exact .inr (.inl ⟨hbusy, (Except.ok.inj h).symm⟩)
      · cases h
        exact .inl ⟨rfl, rfl⟩
  · rename_i hidle
    split at h
    · obtain ⟨⟨z₁, out₁⟩, hbegin, h⟩ := bind_eq_ok.mp h
      cases h
      obtain ⟨a, ha, rfl, rfl⟩ := begin_ok hbegin
      exact .inr (.inr (.inr ⟨a, ha, Bool.eq_false_iff.mpr hidle, rfl, rfl⟩))
    · cases h
      exact .inl ⟨rfl, rfl⟩

def Zombie.flooded (z : Zombie) (t : Int) (a : Attack) (sequenceNo : Int32) : Zombie :=
  { z with
    now := t
    attack := some (a.flood sequenceNo).1
    floodingTimes := z.floodingTimes + 1
    packetsSent := z.packetsSent + 1 }

inductive Stepped (par : Parameters) (z : Zombie) : Event → Zombie → List Action → Prop
  | starts {draw : Draw} {m : Int × Nat} {z₁ : Zombie} {out : List Action}
      (hnext : z.next m.1 = true) (hfirst : Agenda.first z.startMsg = some m)
      (hdecide : { z with now := m.1, startMsg := z.startMsg.erase m }.decideAttack par draw =
        .ok (z₁, out)) : Stepped par z (.start draw) { z₁ with index := z₁.index + 1 } out
  | sends {sequenceNo : Int32} {t : Int} {a : Attack} (hnext : z.next t = true)
      (hdue : z.floodingTime = some t) (ha : z.attack = some a) :
      Stepped par z (.flood sequenceNo)
        { z.flooded t a sequenceNo with floodingTime := some (t + z.floodingDelay) }
        [.send (a.flood sequenceNo).2]
  | ends {sequenceNo : Int32} {t : Int} {a : Attack} (hnext : z.next t = true)
      (hdue : z.floodingTime = some t) (ha : z.attack = some a) :
      Stepped par z (.flood sequenceNo)
        { z.flooded t a sequenceNo with floodingTime := none, isActive := false, packetsSent := 0 }
        [.send (a.flood sequenceNo).2,
          .record ⟨z.attackIndex, z.attackStart, t, z.packetsSent + 1⟩]
  | discards {t : Int} (hnext : z.next t = true) : Stepped par z (.message t) { z with now := t } []
  | finishes {t : Int} (hfinished : z.finished = false) (hbusy : z.isActive = true) :
      Stepped par z (.finish t) { z with now := t, packetsSent := 0, finished := true }
        [.record ⟨z.attackIndex, z.attackStart, t, z.packetsSent⟩]
  | finishesIdle {t : Int} (hfinished : z.finished = false) (hidle : z.isActive = false) :
      Stepped par z (.finish t) { z with now := t, finished := true } []

theorem step_stepped {e : Event} (h : step par z e = .ok (z', out)) : Stepped par z e z' out := by
  cases e with
  | start draw =>
    simp only [step] at h
    split at h
    · cases h
    rename_i hfirst
    split at h
    · rename_i hnext
      obtain ⟨⟨z₁, out₁⟩, hdecide, h⟩ := bind_eq_ok.mp h
      cases h
      exact .starts hnext hfirst hdecide
    · cases h
  | flood sequenceNo =>
    simp only [step] at h
    split at h
    · cases h
    rename_i hdue
    split at h
    · rename_i hnext
      unfold Zombie.handleFlood at h
      dsimp only at h
      split at h
      · cases h
      rename_i ha
      split at h
      · obtain ⟨z₁, hschedule, h⟩ := bind_eq_ok.mp h
        cases h
        rw [scheduleAt_ok hschedule]
        exact .sends hnext hdue ha
      · cases h
        exact .ends hnext hdue ha
    · cases h
  | message t =>
    simp only [step] at h
    split at h <;> cases h
    exact .discards ‹_›
  | finish t =>
    simp only [step, Zombie.finish] at h
    obtain ⟨hopen, h⟩ := guard_eq_ok.mp h
    rw [Bool.and_eq_true, Bool.not_eq_true'] at hopen
    split at h <;> cases h
    · exact .finishes hopen.1 ‹_›
    · exact .finishesIdle hopen.1 (Bool.eq_false_iff.mpr ‹_›)

theorem finished_of_next (h : z.next t = true) : z.finished = false := by
  simp only [Zombie.next, Bool.and_eq_true, Bool.not_eq_true'] at h
  exact h.1.1.1

theorem step_turn {e : Event} (h : step par z e = .ok (z', out)) :
    z.finished = false ∧ Turn z z' out := by
  cases step_stepped h with
  | starts hnext _ hdecide =>
    have hfinished := finished_of_next hnext
    refine ⟨hfinished, ?_⟩
    rcases decideAttack_cases hdecide with ⟨rfl, rfl⟩ | ⟨hbusy, hstop⟩ | ⟨a, -, hbusy, rfl, rfl⟩ |
      ⟨a, -, hidle, rfl, rfl⟩
    · exact .quiet rfl rfl hfinished rfl rfl
    · cases hstop
      exact .stops hbusy rfl rfl rfl
    · exact .switches hbusy hbusy rfl hfinished rfl
    · exact .begins hidle rfl rfl hfinished rfl
  | sends hnext hdue _ =>
    have hfinished := finished_of_next hnext
    exact ⟨hfinished, .sends (Option.isSome_of_eq_some hdue) rfl rfl hfinished rfl rfl⟩
  | ends hnext hdue _ =>
    exact ⟨finished_of_next hnext, .ends (Option.isSome_of_eq_some hdue) rfl rfl rfl⟩
  | discards hnext =>
    have hfinished := finished_of_next hnext
    exact ⟨hfinished, .quiet rfl rfl hfinished rfl rfl⟩
  | finishes hfinished hbusy => exact ⟨hfinished, .finishes hbusy hbusy rfl rfl rfl⟩
  | finishesIdle hfinished hidle => exact ⟨hfinished, .finishesIdle hidle hidle rfl rfl rfl⟩

/-! ## Start messages -/

theorem decideAttack_startMsg (h : z.decideAttack par draw = .ok (z', out)) :
    z'.startMsg = z.startMsg ∧ z'.index = z.index := by
  rcases decideAttack_cases h with ⟨rfl, -⟩ | ⟨-, hstop⟩ | ⟨a, -, -, rfl, -⟩ | ⟨a, -, -, rfl, -⟩
  · exact ⟨rfl, rfl⟩
  · cases hstop
    exact ⟨rfl, rfl⟩
  · exact ⟨rfl, rfl⟩
  · exact ⟨rfl, rfl⟩

theorem startMsg_step {e : Event} (h : step par z e = .ok (z', out)) :
    (z'.startMsg = z.startMsg ∧ z'.index = z.index) ∨
      ∃ m, Agenda.first z.startMsg = some m ∧ z'.startMsg = z.startMsg.erase m ∧
        z'.index = z.index + 1 := by
  cases step_stepped h with
  | starts _ hfirst hdecide =>
    obtain ⟨hstarts, hindex⟩ := decideAttack_startMsg hdecide
    exact .inr ⟨_, hfirst, hstarts, congrArg (· + 1) hindex⟩
  | sends | ends | discards | finishes | finishesIdle => exact .inl ⟨rfl, rfl⟩

theorem initial_ok (h : Zombie.initial par = .ok z) :
    par.destinationPort.length = par.attackStartTime.length ∧
      z.startMsg = par.attackStartTime.zipIdx ∧ z.index = 0 ∧ z.isActive = false ∧
        z.floodingTime = none ∧ z.packetsSent = 0 := by
  obtain ⟨-, h⟩ := unless_eq_ok.mp h
  obtain ⟨hlengths, h⟩ := unless_eq_ok.mp h
  cases h
  simp only [Bool.or_eq_true, decide_eq_true_eq, not_or, not_not, ne_eq] at hlengths
  exact ⟨by omega, rfl, rfl, rfl, rfl, rfl⟩

/-! ## Runs -/

def Goes (z : Zombie) : Option (Nat × List FloodPacket) → Prop
  | some (index, packets) =>
      z.isActive = true ∧ z.finished = false ∧ z.attackIndex = index ∧
        z.packetsSent = packets.length
  | none => ¬ (z.isActive = true ∧ z.finished = false) ∧ z.packetsSent = 0

def Recorded (actions : List Action) (z : Zombie) : Prop :=
  ∃ (waves : List Wave) (going : Option (Nat × List FloodPacket)),
    actions = waves.flatMap Wave.actions ++ current going ∧ Goes z going

theorem Recorded.busy (h : Recorded actions z) (hactive : z.isActive = true)
    (hfinished : z.finished = false) :
    ∃ (waves : List Wave) (packets : List FloodPacket), z.packetsSent = packets.length ∧
      actions = waves.flatMap Wave.actions ++ current (some (z.attackIndex, packets)) := by
  obtain ⟨waves, going, hactions, hgoes⟩ := h
  cases going with
  | none => exact absurd ⟨hactive, hfinished⟩ hgoes.1
  | some going =>
    obtain ⟨index, packets⟩ := going
    obtain ⟨-, -, rfl, hsent⟩ := hgoes
    exact ⟨waves, packets, hsent, hactions⟩

theorem Recorded.idle (h : Recorded actions z) (hidle : z.isActive = false) :
    z.packetsSent = 0 ∧ ∃ waves : List Wave, actions = waves.flatMap Wave.actions := by
  obtain ⟨waves, going, hactions, hgoes⟩ := h
  cases going with
  | none =>
    rw [current, append_nil] at hactions
    exact ⟨hgoes.2, waves, hactions⟩
  | some going =>
    have hactive : z.isActive = true := hgoes.1
    rw [hidle] at hactive
    cases hactive

theorem Recorded.congr (h : Recorded actions z) (hactive : z'.isActive = z.isActive)
    (hfinished : z'.finished = z.finished) (hsent : z'.packetsSent = z.packetsSent)
    (hindex : z'.attackIndex = z.attackIndex) : Recorded actions z' := by
  obtain ⟨waves, going, hactions, hgoes⟩ := h
  refine ⟨waves, going, hactions, ?_⟩
  unfold Goes at hgoes ⊢
  rwa [hactive, hfinished, hsent, hindex]

theorem Recorded.send (h : Recorded actions z) (hactive : z.isActive = true)
    (hfinished : z.finished = false) (packet : FloodPacket) :
    Recorded (actions ++ [.send packet]) { z with packetsSent := z.packetsSent + 1 } := by
  obtain ⟨waves, packets, hcount, hactions⟩ := h.busy hactive hfinished
  refine ⟨waves, some (z.attackIndex, packets ++ [packet]), ?_, hactive, hfinished, rfl, ?_⟩
  · rw [hactions]
    simp [current]
  · simp [hcount]

theorem Recorded.close (h : Recorded actions z) (hactive : z.isActive = true)
    (hfinished : z.finished = false) (ended : Int) :
    ∃ waves : List Wave,
      actions ++ [.record ⟨z.attackIndex, z.attackStart, ended, z.packetsSent⟩] =
        waves.flatMap Wave.actions := by
  obtain ⟨waves, packets, hcount, hactions⟩ := h.busy hactive hfinished
  refine ⟨waves ++ [⟨z.attackIndex, packets, z.attackStart, ended⟩], ?_⟩
  rw [hactions, hcount]
  simp [current, Wave.actions]

theorem recorded_turn (hfinished : z.finished = false) (htimer : z.isActive = z.floodingTime.isSome)
    (h : Recorded actions z) (hturn : Turn z z' out) : Recorded (actions ++ out) z' := by
  cases hturn with
  | quiet hactive _ hfinished' hsent hindex =>
    rw [append_nil]
    exact h.congr hactive (hfinished'.trans hfinished.symm) hsent hindex
  | begins hidle hactive _ hfinished' hsent =>
    obtain ⟨hzero, waves, hactions⟩ := h.idle hidle
    refine ⟨waves, some (z'.attackIndex, []), by rw [hactions]; rfl, hactive, hfinished', rfl, ?_⟩
    rw [hsent, hzero]
    rfl
  | @switches ended hbusy hactive _ hfinished' hsent =>
    obtain ⟨waves, hwaves⟩ := h.close hbusy hfinished ended
    refine ⟨waves, some (z'.attackIndex, []), ?_, hactive, hfinished', rfl, hsent⟩
    rw [← hwaves, append_assoc]
    rfl
  | @stops ended hbusy hactive _ hsent =>
    obtain ⟨waves, hwaves⟩ := h.close hbusy hfinished ended
    exact ⟨waves, none, by rw [hwaves, current, append_nil], by simp [hactive], hsent⟩
  | @sends packet hdue hactive _ hfinished' hsent hindex =>
    rw [← htimer] at hdue
    have hsends := h.send hdue hfinished packet
    exact hsends.congr hactive (hfinished'.trans hfinished.symm) hsent hindex
  | @ends packet ended hdue hactive _ hsent =>
    rw [← htimer] at hdue
    obtain ⟨waves, hwaves⟩ := (h.send hdue hfinished packet).close hdue hfinished ended
    refine ⟨waves, none, ?_, by simp [hactive], hsent⟩
    rw [current, append_nil, ← hwaves, append_assoc]
    rfl
  | @finishes ended hbusy hactive _ hfinished' hsent =>
    obtain ⟨waves, hwaves⟩ := h.close hbusy hfinished ended
    exact ⟨waves, none, by rw [hwaves, current, append_nil], by simp [hfinished'], hsent⟩
  | finishesIdle hidle hactive _ _ hsent =>
    obtain ⟨hzero, waves, hactions⟩ := h.idle hidle
    exact ⟨waves, none, by rw [hactions]; rfl, by simp [hactive], by rw [hsent, hzero]⟩

theorem timer_turn (h : z.isActive = z.floodingTime.isSome) (hturn : Turn z z' out) :
    z'.isActive = z'.floodingTime.isSome := by
  cases hturn with
  | quiet hactive htimer => rw [hactive, htimer, h]
  | begins _ hactive htimer | switches _ hactive htimer | stops _ hactive htimer
  | ends _ hactive htimer => rw [hactive, htimer]
  | sends hdue hactive htimer => rw [hactive, htimer, h, hdue]
  | finishes hbusy hactive htimer => rw [hactive, htimer, ← h, hbusy]
  | finishesIdle hidle hactive htimer => rw [hactive, htimer, ← h, hidle]

structure Orderly (par : Parameters) (tr : List (Step Zombie Event (List Action))) (z : Zombie) :
    Prop where
  timer : z.isActive = z.floodingTime.isSome
  starts : Agenda.Delivered par.attackStartTime.zipIdx z.startMsg z.index
  recorded : Recorded (actionsOf tr) z

theorem orderly_initial (h : Zombie.initial par = .ok z) : Orderly par [] z := by
  obtain ⟨-, hstarts, hindex, hidle, htimer, hsent⟩ := initial_ok h
  refine ⟨?_, ?_, [], none, rfl, ?_, hsent⟩
  · rw [hidle, htimer]
    rfl
  · rw [hstarts, hindex]
    exact .none (Agenda.ordered_zipIdx _ 0)
  · simp [hidle]

theorem orderly_run {z₀ : Zombie} {tr : List (Step Zombie Event (List Action))}
    (hinitial : Zombie.initial par = .ok z₀) (h : Run (step par) z₀ tr z) : Orderly par tr z := by
  refine h.invariant (orderly_initial hinitial) fun tr z z' e out horderly hstep => ?_
  obtain ⟨hfinished, hturn⟩ := step_turn hstep
  refine ⟨timer_turn horderly.timer hturn, ?_,
    recorded_turn hfinished horderly.timer horderly.recorded hturn⟩
  rcases startMsg_step hstep with ⟨hsame, hcount⟩ | ⟨m, hfirst, hless, hcount⟩
  · rw [hsame, hcount]
    exact horderly.starts
  · rw [hless, hcount]
    exact horderly.starts.next hfirst

/-! ## Errors -/

theorem invalid_ne_indexError (number : String) :
    Stop.error ("invalid attackType " ++ number ++ "\n") ≠ indexError := by
  intro h
  have hmessage := Stop.error.inj h
  -- the texts differ in the third letter
  have hletter := congrArg (fun s : String => s.toList[2]?) hmessage
  rw [String.toList_append, String.toList_append, append_assoc,
    getElem?_append_left (by decide)] at hletter
  exact absurd hletter (by decide)

theorem element_ne {α : Type} (hf : f ≠ .outOfRange) (as : List α) (i : Nat) :
    element as i ≠ .error f := by
  unfold element
  split
  · exact ok_ne_error
  · intro h
    exact hf (Except.error.inj h).symm

/-- `floodingTime` scheduled twice, and an index beyond the parameters. -/
def Unraised (f : Stop) : Prop := f = .alreadyScheduled ∨ f = indexError

theorem Unraised.ne {f' : Stop} (h : Unraised f) (hscheduled : .alreadyScheduled ≠ f')
    (hindex : indexError ≠ f') : f ≠ f' := by
  rcases h with rfl | rfl
  · exact hscheduled
  · exact hindex

theorem error_ne {α : Type} {f' : Stop} (h : f ≠ f') : (.error f' : Except Stop α) ≠ .error f :=
  fun heq => h (Except.error.inj heq).symm

theorem attackAt_ne (hf : Unraised f) (par : Parameters) (i : Nat) : attackAt par i ≠ .error f := by
  have hrange : f ≠ .outOfRange := hf.ne (by decide) (by decide)
  have hfunc : ∀ type, setFloodingFunc type ≠ .error f := by
    intro type
    unfold setFloodingFunc
    split
    · exact error_ne (hf.ne Stop.noConfusion (invalid_ne_indexError _).symm)
    · split
      · exact ok_ne_error
      · split <;> exact ok_ne_error
  exact bind_ne_error (element_ne hrange _ i) fun _ _ => bind_ne_error (element_ne hrange _ i)
    fun _ _ => bind_ne_error (element_ne hrange _ i) fun _ _ => bind_ne_error
      (element_ne hrange _ i) fun _ _ => bind_ne_error (element_ne hrange _ i) fun _ _ =>
        bind_ne_error (hfunc _) fun _ _ => bind_ne_error (element_ne hrange _ i)
          fun _ _ => ok_ne_error

theorem scheduleAt_ne (hf : Unraised f) (hidle : z.floodingTime = none) (t : Int) :
    z.scheduleAt t ≠ .error f := by
  unfold Zombie.scheduleAt
  rw [hidle]
  split
  · exact error_ne (hf.ne (by decide) (by decide))
  · exact ok_ne_error

theorem begin_ne (hf : Unraised f) (hindex : z.index < par.destinationPort.length) (draw : Draw) :
    z.begin par draw ≠ .error f := by
  refine bind_ne_error ?_ fun r hr => bind_ne_error ?_ fun _ _ => ok_ne_error
  · unfold Zombie.setCurrentFloodingParameter
    rw [if_neg (Nat.not_le.mpr hindex)]
    refine bind_ne_error (attackAt_ne hf par z.index) fun attack _ => ?_
    split
    · exact error_ne (hf.ne (by decide) (by decide))
    · exact ok_ne_error
  · obtain ⟨a, -, -, hz⟩ := setCurrent_ok hr
    rw [hz]
    exact scheduleAt_ne hf rfl _

theorem decideAttack_ne (hf : Unraised f) (hindex : z.index < par.destinationPort.length)
    (draw : Draw) : z.decideAttack par draw ≠ .error f := by
  unfold Zombie.decideAttack
  split
  · split
    · refine bind_ne_error (begin_ne hf ?_ draw) fun _ _ => ok_ne_error
      exact hindex
    · split <;> exact ok_ne_error
  · split
    · exact bind_ne_error (begin_ne hf hindex draw) fun _ _ => ok_ne_error
    · exact ok_ne_error

theorem step_ne (hf : Unraised f) (hindex : z.startMsg ≠ [] → z.index < par.destinationPort.length)
    (e : Event) : step par z e ≠ .error f := by
  have hnotNext : f ≠ .notNext := hf.ne (by decide) (by decide)
  cases e with
  | start draw =>
    simp only [step]
    split
    · exact error_ne hnotNext
    rename_i t i hfirst
    have hless : z.index < par.destinationPort.length :=
      hindex (ne_nil_of_mem (Agenda.mem_of_first hfirst))
    split
    · refine bind_ne_error (decideAttack_ne hf ?_ draw) fun _ _ => ok_ne_error
      exact hless
    · exact error_ne hnotNext
  | flood sequenceNo =>
    simp only [step]
    split
    · exact error_ne hnotNext
    split
    · unfold Zombie.handleFlood
      split
      · exact error_ne (hf.ne (by decide) (by decide))
      dsimp only
      split
      · exact bind_ne_error (scheduleAt_ne hf rfl _) fun _ _ => ok_ne_error
      · exact ok_ne_error
    · exact error_ne hnotNext
  | message t | finish t =>
    simp only [step]
    split
    · exact ok_ne_error
    · exact error_ne hnotNext

/-- The zombie is active just while `floodingTime` is scheduled, and every wave is recorded once,
with the number of its packets. -/
theorem waves_recorded {par : Parameters} {z₀ z : Zombie}
    {tr : List (Step Zombie Event (List Action))} (hinitial : Zombie.initial par = .ok z₀)
    (h : Run (step par) z₀ tr z) :
    (z.isActive = true ↔ z.floodingTime.isSome = true) ∧
      (∀ e, step par z e ≠ .error .alreadyScheduled) ∧ (∀ e, step par z e ≠ .error indexError) ∧
      ∃ (waves : List Wave) (going : Option (Nat × List FloodPacket)),
        actionsOf tr = waves.flatMap Wave.actions ++ current going ∧
          (going.isSome = true ↔ z.isActive = true ∧ z.finished = false) := by
  have horderly := orderly_run hinitial h
  have hindex : z.startMsg ≠ [] → z.index < par.destinationPort.length := by
    intro hpending
    have hlength := horderly.starts.length
    have hpos := length_pos_iff.mpr hpending
    rw [length_zipIdx] at hlength
    rw [(initial_ok hinitial).1]
    omega
  refine ⟨by rw [horderly.timer], step_ne (.inl rfl) hindex, step_ne (.inr rfl) hindex, ?_⟩
  obtain ⟨waves, going, hactions, hgoes⟩ := horderly.recorded
  refine ⟨waves, going, hactions, ?_⟩
  cases going with
  | none => exact iff_of_false Bool.noConfusion hgoes.1
  | some going => exact iff_of_true rfl ⟨hgoes.1, hgoes.2.1⟩

def twoAttacks (attackStartTime : List Int) : Parameters :=
  { attackStartTime := attackStartTime
    maxPacket := [2, -1]
    attackType := [udpFlooding, synFlooding]
    packetSize := [100, 0]
    destinationPort := [53, 80]
    sourcePort := [4000, -1]
    victimAddress := [.ipv4 ⟨1⟩, .ipv4 ⟨2⟩]
    attackOnProbability := 1
    attackSwitchProbability := 1
    attackOffProbability := 0 }

def ready (attackStartTime : List Int) : Zombie :=
  { now := 0
    startMsg := attackStartTime.zipIdx
    floodingTime := none
    index := 0
    isActive := false
    attack := none
    floodingDelay := 0
    floodingTimes := 0
    packetsSent := 0
    attackIndex := 0
    attackStart := 0
    finished := false }

def soon : Draw := { prob := 1 / 2, probOff := 1 / 2, floodingDelay := 3 }

def switching : List Event := [.start soon, .flood 7, .start soon, .flood 8, .finish 30]

theorem waves_recorded_switching :
    replays (step (twoAttacks [10, 15])) (ready [10, 15]) switching = true ∧
      ∃ waves : List Wave,
        actionsOf (replayTrace (step (twoAttacks [10, 15])) (ready [10, 15]) switching) =
          waves.flatMap Wave.actions := by
  have hrun : replays (step (twoAttacks [10, 15])) (ready [10, 15]) switching = true := by
    decide +kernel
  have hfinished : (replayState (step (twoAttacks [10, 15])) (ready [10, 15]) switching).finished =
      true := by decide +kernel
  obtain ⟨-, -, -, waves, going, hactions, hgoing⟩ :=
    waves_recorded (by decide +kernel) (run_of_replays hrun)
  refine ⟨hrun, waves, ?_⟩
  cases going with
  | none => rwa [current, append_nil] at hactions
  | some going =>
    have hopen := (hgoing.mp rfl).2
    rw [hfinished] at hopen
    cases hopen

/-! ## The parameters of a wave -/

theorem attackAt_of_attack {k : Nat} (h : step par z (.start draw) = .ok (z', out))
    (hattack : .attack k ∈ out) : ∃ a, z'.attack = some a ∧ attackAt par z.index = .ok a := by
  cases step_stepped h with
  | starts _ _ hdecide =>
    rcases decideAttack_cases hdecide with ⟨-, rfl⟩ | ⟨-, hstop⟩ | ⟨a, ha, -, rfl, -⟩ |
      ⟨a, ha, -, rfl, -⟩
    · cases hattack
    · cases hstop
      rw [mem_singleton] at hattack
      cases hattack
    · exact ⟨a, rfl, ha⟩
    · exact ⟨a, rfl, ha⟩

/-- The attack that the start message of entry `i` begins or switches to has the parameters
of that entry just when the entry at the rank of its start time has the same. -/
theorem attack_parameters_iff {par : Parameters} {z₀ z z' : Zombie}
    {tr : List (Step Zombie Event (List Action))} {draw : Draw} {out : List Action} {t : Int}
    {i k : Nat} (hinitial : Zombie.initial par = .ok z₀) (h : Run (step par) z₀ tr z)
    (hstart : Agenda.first z.startMsg = some (t, i))
    (hstep : step par z (.start draw) = .ok (z', out)) (hattack : .attack k ∈ out) :
    (∃ a, z'.attack = some a ∧ attackAt par i = .ok a) ↔
      attackAt par (Agenda.rank par.attackStartTime.zipIdx (t, i)) = attackAt par i := by
  obtain ⟨a, ha, hat⟩ := attackAt_of_attack hstep hattack
  rw [(orderly_run hinitial h).starts.rank_first hstart, hat]
  constructor
  · rintro ⟨a', ha', hat'⟩
    rw [ha] at ha'
    cases ha'
    exact hat'.symm
  · intro hsame
    exact ⟨a, ha, hsame.symm⟩

theorem attack_parameters_iff_ready :
    step (twoAttacks [10, 15]) (ready [10, 15]) (.start soon) =
        .ok (replayState (step (twoAttacks [10, 15])) (ready [10, 15]) [.start soon], [.attack 0]) ∧
      ∃ a, (replayState (step (twoAttacks [10, 15])) (ready [10, 15]) [.start soon]).attack =
        some a ∧ attackAt (twoAttacks [10, 15]) 0 = .ok a := by
  have hstep : step (twoAttacks [10, 15]) (ready [10, 15]) (.start soon) =
      .ok (replayState (step (twoAttacks [10, 15])) (ready [10, 15]) [.start soon],
        [.attack 0]) := by decide +kernel
  have hinitial : Zombie.initial (twoAttacks [10, 15]) = .ok (ready [10, 15]) := by decide +kernel
  have hfirst : Agenda.first (ready [10, 15]).startMsg = some (10, 0) := by decide +kernel
  refine ⟨hstep, (attack_parameters_iff hinitial .start hfirst hstep mem_cons_self).mpr ?_⟩
  decide +kernel

/-- The first message is that of entry 1, and the attack has the parameters of entry 0. -/
theorem unsorted_start_takes_other_entry :
    Zombie.initial (twoAttacks [20, 10]) = .ok (ready [20, 10]) ∧
      Agenda.first (ready [20, 10]).startMsg = some (10, 1) ∧
      (replayState (step (twoAttacks [20, 10])) (ready [20, 10]) [.start soon]).attack.map
          (fun a => (a.victimPort, a.attackType, a.maxPacket)) = some (53, udpFlooding, 2) ∧
      (attackAt (twoAttacks [20, 10]) 1).toOption.map
          (fun a => (a.victimPort, a.attackType, a.maxPacket)) = some (80, synFlooding, -1) := by
  decide +kernel

end WormsAttack.Ddos
