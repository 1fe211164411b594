/-
  What the trace of a queue says about its frames.

  Sources: ReaSE/src/networklayer/queue/DropTailTraceQueue.cc and
  inet/src/base/PassiveQueueBase.cc.

  A request of the interface that finds the queue empty stays pending, and the next frame is
  then sent on at once.

  NUMBERS.  An `int` is an `Int32` and wraps around.

  WHAT IS NOT MODELLED.  Times: the timer comes at any time.  `initialize` schedules it through
  a pointer that is not set yet, so nothing is assumed about its first arrival either.
-/
import Mathlib.Algebra.BigOperators.Group.List.Basic
import Mathlib.Algebra.Ring.Int.Defs
import Mathlib.Algebra.Ring.Nat
import WormsAttack.Foundation.Machine
import WormsAttack.Foundation.Run

namespace WormsAttack.Queue

open Foundation List

inductive Message (φ : Type)
  | frame (f : φ)
  | trace

structure DropTailTraceQueue (φ : Type) where
  frameCapacity : Int32
  tracingOn : Bool
  packetRequested : Int32
  numQueueReceived : Int32
  numQueueDropped : Int32
  queue : List (Message φ)
  dropsInInterval : Int32
  framesInInterval : Int32

inductive Action (φ : Type)
  | send (m : Message φ)
  | record (framesForQueue dropsForQueue : Int32)

namespace DropTailTraceQueue

variable {φ : Type}

def initial (frameCapacity : Int32) (tracingOn : Bool) : DropTailTraceQueue φ :=
  { frameCapacity := frameCapacity
    tracingOn := tracingOn
    packetRequested := 0
    numQueueReceived := 0
    numQueueDropped := 0
    queue := []
    dropsInInterval := 0
    framesInInterval := 0 }

/-- A capacity of 0 is none. -/
def isFull (q : DropTailTraceQueue φ) : Bool :=
  q.frameCapacity ≠ 0 && q.frameCapacity.toInt ≤ q.queue.length

/-- `enqueue`: whether the message was dropped. -/
def enqueue (q : DropTailTraceQueue φ) (m : Message φ) : DropTailTraceQueue φ × Bool :=
  if q.isFull then ({ q with dropsInInterval := q.dropsInInterval + 1 }, true)
  else
    ({ q with framesInInterval := q.framesInInterval + 1, queue := q.queue ++ [m] }, false)

/-- `PassiveQueueBase::handleMessage`. -/
def handleBase (q : DropTailTraceQueue φ) (m : Message φ) :
    DropTailTraceQueue φ × List (Action φ) :=
  let q := { q with numQueueReceived := q.numQueueReceived + 1 }
  if q.packetRequested > 0 then
    ({ q with packetRequested := q.packetRequested - 1 }, [.send m])
  else
    let (q, dropped) := q.enqueue m
    (if dropped then { q with numQueueDropped := q.numQueueDropped + 1 } else q, [])

def handleMessage (q : DropTailTraceQueue φ) (m : Message φ) :
    DropTailTraceQueue φ × List (Action φ) :=
  if !q.tracingOn then q.handleBase m
  else
    match m with
    | .trace =>
        ({ q with framesInInterval := 0, dropsInInterval := 0 },
          [.record q.framesInInterval q.dropsInInterval])
    | .frame f => q.handleBase (.frame f)

def requestPacket (q : DropTailTraceQueue φ) : DropTailTraceQueue φ × List (Action φ) :=
  match q.queue with
  | [] => ({ q with packetRequested := q.packetRequested + 1 }, [])
  | m :: rest => ({ q with queue := rest }, [.send m])

end DropTailTraceQueue

inductive Event (φ : Type)
  | arrive (m : Message φ)
  | requestPacket

inductive Stop

def step {φ : Type} (q : DropTailTraceQueue φ) :
    Event φ → Except Stop (DropTailTraceQueue φ × List (Action φ))
  | .arrive m => .ok (q.handleMessage m)
  | .requestPacket => .ok q.requestPacket

/-! ## Histories -/

section Histories

variable {φ : Type}

abbrev TraceStep (φ : Type) := Foundation.Step (DropTailTraceQueue φ) (Event φ) (List (Action φ))

def Event.isFrame : Event φ → Bool
  | .arrive (.frame _) => true
  | _ => false

def Event.isTimer : Event φ → Bool
  | .arrive .trace => true
  | _ => false

def isForwarded (st : TraceStep φ) : Bool := st.event.isFrame && st.pre.packetRequested > 0

def isDropped (st : TraceStep φ) : Bool :=
  st.event.isFrame && !(st.pre.packetRequested > 0) && st.pre.isFull

def isEnqueued (st : TraceStep φ) : Bool :=
  st.event.isFrame && !(st.pre.packetRequested > 0) && !st.pre.isFull

/-- How many steps of a kind there were in each interval, the current one first. -/
def perInterval (kind : TraceStep φ → Bool) : List (TraceStep φ) → List Nat
  | [] => [0]
  | st :: tr =>
      if st.event.isTimer then 0 :: perInterval kind tr
      else (perInterval kind tr).modifyHead (· + if kind st then 1 else 0)

def Action.framesForQueue : Action φ → Option Int32
  | .record frames _ => some frames
  | .send _ => none

def Action.dropsForQueue : Action φ → Option Int32
  | .record _ drops => some drops
  | .send _ => none

def recorded (value : Action φ → Option Int32) (tr : List (TraceStep φ)) : List Int32 :=
  (tr.flatMap (·.out)).filterMap value

def arrived (tr : List (TraceStep φ)) : Nat := tr.countP (·.event.isFrame)

theorem arrived_eq (tr : List (TraceStep φ)) :
    arrived tr = tr.countP isForwarded + tr.countP isDropped + tr.countP isEnqueued := by
  induction tr with
  | nil => rfl
  | cons st tr ih =>
    unfold arrived at ih ⊢
    rw [countP_cons, countP_cons, countP_cons, countP_cons, ih]
    unfold isForwarded isDropped isEnqueued
    cases st.event.isFrame <;> cases decide (st.pre.packetRequested > 0) <;>
      cases st.pre.isFull <;> simp <;> omega

theorem sum_modifyHead {ns : List Nat} (h : ns ≠ []) (k : Nat) :
    (ns.modifyHead (· + k)).sum = ns.sum + k := by
  cases ns with
  | nil => exact absurd rfl h
  | cons n ns =>
    rw [modifyHead_cons, sum_cons, sum_cons]
    omega

theorem perInterval_ne_nil (kind : TraceStep φ → Bool) (tr : List (TraceStep φ)) :
    perInterval kind tr ≠ [] := by
  induction tr with
  | nil => simp [perInterval]
  | cons st tr ih =>
    rw [perInterval]
    split
    · simp
    · simpa using ih

theorem sum_perInterval {kind : TraceStep φ → Bool}
    (hkind : ∀ st, kind st = true → st.event.isFrame = true) (tr : List (TraceStep φ)) :
    (perInterval kind tr).sum = tr.countP kind := by
  induction tr with
  | nil => rfl
  | cons st tr ih =>
    rw [perInterval, countP_cons]
    split
    · rename_i htimer
      have hnot : kind st = false := by
        rw [Bool.eq_false_iff]
        intro hyes
        have hframe := hkind st hyes
        cases hevent : st.event with
        | requestPacket => simp [hevent, Event.isTimer] at htimer
        | arrive m => cases m <;> simp [hevent, Event.isTimer, Event.isFrame] at htimer hframe
      rw [sum_cons, ih, hnot]
      simp
    · rw [sum_modifyHead (perInterval_ne_nil kind tr), ih]

end Histories

/-! ## The counters -/

section Counters

variable {φ : Type} {q q' : DropTailTraceQueue φ} {tr : List (TraceStep φ)}

structure Traced (tr : List (TraceStep φ)) (q : DropTailTraceQueue φ) : Prop where
  tracing : q.tracingOn = true
  frames : q.framesInInterval :: recorded Action.framesForQueue tr =
    (perInterval isEnqueued tr).map Int32.ofNat
  drops : q.dropsInInterval :: recorded Action.dropsForQueue tr =
    (perInterval isDropped tr).map Int32.ofNat

theorem traced_initial (frameCapacity : Int32) :
    Traced [] (DropTailTraceQueue.initial frameCapacity true : DropTailTraceQueue φ) :=
  ⟨rfl, rfl, rfl⟩

variable {value : Action φ → Option Int32} {kind : TraceStep φ → Bool} {st : TraceStep φ}

theorem count_next {n n' : Int32}
    (h : n :: recorded value tr = (perInterval kind tr).map Int32.ofNat)
    (htimer : st.event.isTimer = false) (hout : st.out.filterMap value = [])
    (hn : n' = n + if kind st then 1 else 0) :
    n' :: recorded value (st :: tr) = (perInterval kind (st :: tr)).map Int32.ofNat := by
  have hsame : recorded value (st :: tr) = recorded value tr := by
    rw [recorded, flatMap_cons, filterMap_append, hout, nil_append, recorded]
  rw [hsame, perInterval, if_neg (by rw [htimer]; exact Bool.noConfusion)]
  obtain ⟨k, ks, hk⟩ := exists_cons_of_ne_nil (perInterval_ne_nil kind tr)
  rw [hk, map_cons] at h
  obtain ⟨rfl, hrest⟩ := cons.inj h
  rw [hk, modifyHead_cons, map_cons, hrest, hn]
  split
  · rw [Int32.ofNat_add]
    rfl
  · simp

theorem count_timer {n : Int32} (h : n :: recorded value tr = (perInterval kind tr).map Int32.ofNat)
    (htimer : st.event.isTimer = true) (hout : st.out.filterMap value = [n]) :
    0 :: recorded value (st :: tr) = (perInterval kind (st :: tr)).map Int32.ofNat := by
  have hnext : recorded value (st :: tr) = n :: recorded value tr := by
    rw [recorded, flatMap_cons, filterMap_append, hout, singleton_append, recorded]
  rw [hnext, perInterval, if_pos htimer, map_cons, ← h]
  rfl

theorem handleBase_frame (q : DropTailTraceQueue φ) (f : φ) (out : List (Action φ)) :
    let st : TraceStep φ := ⟨q, .arrive (.frame f), out⟩
    (q.handleBase (.frame f)).1.tracingOn = q.tracingOn ∧
      (q.handleBase (.frame f)).1.framesInInterval =
        q.framesInInterval + (if isEnqueued st then 1 else 0) ∧
      (q.handleBase (.frame f)).1.dropsInInterval =
        q.dropsInInterval + (if isDropped st then 1 else 0) ∧
      ((q.handleBase (.frame f)).2 = [] ∨ (q.handleBase (.frame f)).2 = [.send (.frame f)]) := by
  intro st
  have hframe : st.event.isFrame = true := rfl
  unfold DropTailTraceQueue.handleBase isEnqueued isDropped
  rw [hframe]
  by_cases hpending : q.packetRequested > 0
  · simp [hpending, st]
  unfold DropTailTraceQueue.enqueue
  by_cases hfull : q.isFull = true
  · have hfull' : { q with numQueueReceived := q.numQueueReceived + 1 }.isFull = true := hfull
    simp [hpending, hfull, hfull', st]
  · have hfull' : ¬ { q with numQueueReceived := q.numQueueReceived + 1 }.isFull = true := hfull
    simp [hpending, hfull, hfull', st]

theorem traced_step {e : Event φ} {out : List (Action φ)} (h : Traced tr q)
    (hstep : step q e = .ok (q', out)) : Traced (⟨q, e, out⟩ :: tr) q' := by
  obtain ⟨htracing, hframes, hdrops⟩ := h
  cases e with
  | requestPacket =>
    have hrequest : q.requestPacket = (q', out) := Except.ok.inj hstep
    unfold DropTailTraceQueue.requestPacket at hrequest
    split at hrequest
    all_goals
      cases hrequest
      exact ⟨htracing, count_next hframes rfl rfl (by simp [isEnqueued, Event.isFrame]),
        count_next hdrops rfl rfl (by simp [isDropped, Event.isFrame])⟩
  | arrive m =>
    have hhandle : q.handleMessage m = (q', out) := Except.ok.inj hstep
    unfold DropTailTraceQueue.handleMessage at hhandle
    rw [htracing] at hhandle
    cases m with
    | trace =>
      cases hhandle
      exact ⟨rfl, count_timer hframes rfl rfl, count_timer hdrops rfl rfl⟩
    | frame f =>
      have hbase : q.handleBase (.frame f) = (q', out) := hhandle
      obtain ⟨hsame, hframe, hdrop, hout⟩ := handleBase_frame q f out
      rw [hbase] at hsame hframe hdrop hout
      have hnone : out.filterMap Action.framesForQueue = [] ∧
          out.filterMap Action.dropsForQueue = [] := by
        rcases hout with rfl | rfl <;> exact ⟨rfl, rfl⟩
      exact ⟨hsame.trans htracing, count_next hframes rfl hnone.1 hframe,
        count_next hdrops rfl hnone.2 hdrop⟩

end Counters

/-! ## Conservation -/

theorem sum_toInt_ofNat (ns : List Nat) :
    ((ns.map Int32.ofNat).map (·.toInt)).sum ≤ ns.sum ∧
      (((ns.map Int32.ofNat).map (·.toInt)).sum = ns.sum ↔ ∀ n ∈ ns, n < 2147483648) := by
  induction ns with
  | nil => simp
  | cons n ns ih =>
    obtain ⟨hle, hiff⟩ := ih
    have hn := toInt_ofNat_le n
    rw [forall_mem_cons, ← hiff, ← toInt_ofNat_eq_iff, map_cons, map_cons,
      sum_cons, sum_cons, Nat.cast_add]
    omega

/-- The recorded values and the counters add up to the frames that have arrived exactly if none
came while a request was pending, and no counter has overflowed. -/
theorem trace_conserved_iff {φ : Type} {frameCapacity : Int32} {tr : List (TraceStep φ)}
    {q : DropTailTraceQueue φ} (hrun : Run step (.initial frameCapacity true) tr q) :
    ((recorded Action.framesForQueue tr).map (·.toInt)).sum +
          ((recorded Action.dropsForQueue tr).map (·.toInt)).sum +
        q.framesInInterval.toInt + q.dropsInInterval.toInt = arrived tr ↔
      (∀ st ∈ tr, isForwarded st = false) ∧
        (∀ n ∈ perInterval isEnqueued tr, n < 2147483648) ∧
        ∀ n ∈ perInterval isDropped tr, n < 2147483648 := by
  obtain ⟨-, hframes, hdrops⟩ : Traced tr q := hrun.invariant (traced_initial frameCapacity)
    fun _ _ _ _ _ htraced hstep => traced_step htraced hstep
  obtain ⟨hle, hiff⟩ := sum_toInt_ofNat (perInterval isEnqueued tr)
  obtain ⟨hle', hiff'⟩ := sum_toInt_ofNat (perInterval isDropped tr)
  rw [← hframes, map_cons, sum_cons] at hle hiff
  rw [← hdrops, map_cons, sum_cons] at hle' hiff'
  have henqueued := @sum_perInterval φ isEnqueued
    (fun st h => by simp only [isEnqueued, Bool.and_eq_true] at h; exact h.1.1) tr
  have hdropped := @sum_perInterval φ isDropped
    (fun st h => by simp only [isDropped, Bool.and_eq_true] at h; exact h.1.1) tr
  have hforwarded : tr.countP isForwarded = 0 ↔ ∀ st ∈ tr, isForwarded st = false := by
    simp [countP_eq_zero]
  rw [← hforwarded, ← hiff, ← hiff', arrived_eq, henqueued, hdropped]
  omega

def droppedFrame : List (Event Nat) :=
  [.arrive (.frame 1), .arrive (.frame 2), .requestPacket, .arrive .trace]

theorem trace_conserved_dropped :
    ((recorded Action.framesForQueue (replayTrace step (.initial 1 true) droppedFrame)).map
            (·.toInt)).sum +
          ((recorded Action.dropsForQueue (replayTrace step (.initial 1 true) droppedFrame)).map
            (·.toInt)).sum +
        (replayState step (.initial 1 true) droppedFrame).framesInInterval.toInt +
        (replayState step (.initial 1 true) droppedFrame).dropsInInterval.toInt =
      arrived (replayTrace step (.initial 1 true) droppedFrame) :=
  (trace_conserved_iff (run_of_replays (by decide))).mpr
    ⟨by decide, by decide, by decide⟩

def forwardedFrame : List (Event Nat) := [.requestPacket, .arrive (.frame 1), .arrive .trace]

theorem trace_misses_forwarded :
    replays step (.initial 10 true) forwardedFrame = true ∧
    arrived (replayTrace step (.initial 10 true) forwardedFrame) = 1 ∧
    recorded Action.framesForQueue (replayTrace step (.initial 10 true) forwardedFrame) = [0] ∧
    recorded Action.dropsForQueue (replayTrace step (.initial 10 true) forwardedFrame) = [0] ∧
    (replayState step (.initial 10 true) forwardedFrame).framesInInterval = 0 ∧
    (replayState step (.initial 10 true) forwardedFrame).dropsInInterval = 0 := by
  decide

end WormsAttack.Queue
