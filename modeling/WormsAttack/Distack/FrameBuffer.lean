/-
  The buffer between capture and analysis.

  Source: distack-1.2.3-dev/src/base/network/FrameBuffer.cpp (the constructor, `setMaxFrames`,
  `setMaxBytes`, `next`, `readThreadFunction`), online capture.

  GRANULARITY.  One step is one section under a lock, or one read from the interface.  Any
  number of calls of `next` may be in progress.  Frames are numbered in the order in which they
  are read.
-/
import Mathlib.Algebra.Ring.Nat
import Mathlib.Data.List.Nodup
import WormsAttack.Foundation.Run

namespace WormsAttack.Distack.FrameBuffer

open Foundation List UInt32

structure Frame where
  id : Nat
  size : UInt32
  deriving DecidableEq

inductive Reader
  | idle
  | read (frame : Frame)
  /-- `acceptFrame` is true: about to take the lock of the queue -/
  | accepted (frame : Frame)
  /-- `acceptFrame` is false: about to delete the frame -/
  | rejected (frame : Frame)

structure Buffer where
  maxFrames : UInt32
  maxBytes : UInt32
  currentFrames : UInt32
  currentBytes : UInt32
  droppedFrames : UInt32
  droppedBytes : UInt32
  frameQueue : List Frame
  reader : Reader
  /-- The frames in calls of `next` that have not taken the lock of the counters yet. -/
  taken : List Frame
  framesRead : Nat

namespace Buffer

def withLimits (maxFrames maxBytes : UInt32) : Buffer where
  maxFrames := maxFrames
  maxBytes := maxBytes
  currentFrames := 0
  currentBytes := 0
  droppedFrames := 0
  droppedBytes := 0
  frameQueue := []
  reader := .idle
  taken := []
  framesRead := 0

def new : Buffer := withLimits 0 0

def setMaxFrames (s : Buffer) (frames : UInt32) : Buffer :=
  if 0 < s.maxFrames then { s with maxFrames := frames } else s

def setMaxBytes (s : Buffer) (bytes : UInt32) : Buffer :=
  if 0 < s.maxBytes then { s with maxBytes := bytes } else s

/-- `acceptFrame`, as the reader computes it under the lock of the counters. -/
def acceptFrame (s : Buffer) (frame : Frame) : Bool :=
  (if 0 < s.maxFrames then decide (s.currentFrames + 1 ≤ s.maxFrames) else true) &&
    (if 0 < s.maxBytes then decide (s.currentBytes + frame.size ≤ s.maxBytes) else true)

theorem acceptFrame_iff {s : Buffer} {frame : Frame} :
    s.acceptFrame frame = true ↔
      (0 < s.maxFrames → s.currentFrames + 1 ≤ s.maxFrames) ∧
        (0 < s.maxBytes → s.currentBytes + frame.size ≤ s.maxBytes) := by
  unfold acceptFrame
  split_ifs with hframes hbytes hbytes <;> simp [hframes, hbytes]

end Buffer

inductive Event
  /-- the interface has no frame, or one of the given size -/
  | read (size : Option UInt32)
  | count
  | store
  | next
  | subtract (frame : Frame)

inductive Effect
  | silent
  | read (frame : Frame)
  | dropped (frame : Frame)
  | taken (frame : Frame)
  | returned (frame : Frame)

inductive Stop
  | notThere

def step (s : Buffer) : Event → Except Stop (Buffer × Effect)
  | .read size =>
      match s.reader, size with
      | .idle, none => .ok (s, .silent)
      | .idle, some size =>
          let frame : Frame := ⟨s.framesRead, size⟩
          .ok ({ s with reader := .read frame, framesRead := s.framesRead + 1 }, .read frame)
      | _, _ => .error .notThere
  | .count =>
      match s.reader with
      | .read frame =>
          if s.acceptFrame frame then
            .ok ({ s with currentFrames := s.currentFrames + 1
                          currentBytes := s.currentBytes + frame.size
                          reader := .accepted frame }, .silent)
          else
            .ok ({ s with droppedFrames := s.droppedFrames + 1
                          droppedBytes := s.droppedBytes + frame.size
                          reader := .rejected frame }, .dropped frame)
      | _ => .error .notThere
  | .store =>
      match s.reader with
      | .accepted frame =>
          .ok ({ s with frameQueue := s.frameQueue ++ [frame], reader := .idle }, .silent)
      | .rejected _ => .ok ({ s with reader := .idle }, .silent)
      | _ => .error .notThere
  | .next =>
      match s.frameQueue with
      | [] => .ok (s, .silent)
      | frame :: rest =>
          .ok ({ s with frameQueue := rest, taken := s.taken ++ [frame] }, .taken frame)
  | .subtract frame =>
      if frame ∈ s.taken then
        .ok ({ s with currentFrames := s.currentFrames - 1
                      currentBytes := s.currentBytes - frame.size
                      taken := s.taken.erase frame }, .returned frame)
      else .error .notThere

/-! ## Where the frames are -/

def Reader.pending : Reader → List Frame
  | .accepted frame => [frame]
  | _ => []

def Reader.undecided : Reader → List Frame
  | .read frame => [frame]
  | _ => []

/-- The frames that the counters count. -/
def Buffer.held (s : Buffer) : List Frame :=
  s.taken ++ s.frameQueue ++ s.reader.pending

def bytes (frames : List Frame) : Nat :=
  (frames.map fun frame => frame.size.toNat).sum

@[simp]
theorem bytes_append (frames more : List Frame) :
    bytes (frames ++ more) = bytes frames + bytes more := by
  simp [bytes]

@[simp]
theorem bytes_nil : bytes [] = 0 := rfl

@[simp]
theorem bytes_cons (frame : Frame) (frames : List Frame) :
    bytes (frame :: frames) = frame.size.toNat + bytes frames := by
  simp [bytes]

theorem bytes_perm {frames frames' : List Frame} (h : frames.Perm frames') :
    bytes frames = bytes frames' :=
  (h.map _).sum_nat

@[simp]
def Effect.read? : Effect → Option Frame
  | .read frame => some frame
  | _ => none

@[simp]
def Effect.dropped? : Effect → Option Frame
  | .dropped frame => some frame
  | _ => none

@[simp]
def Effect.taken? : Effect → Option Frame
  | .taken frame => some frame
  | _ => none

@[simp]
def Effect.returned? : Effect → Option Frame
  | .returned frame => some frame
  | _ => none

def history (pick : Effect → Option Frame) : List (Step Buffer Event Effect) → List Frame
  | [] => []
  | st :: tr => history pick tr ++ (pick st.out).toList

def readIn (tr : List (Step Buffer Event Effect)) : List Frame := history Effect.read? tr

def droppedIn (tr : List (Step Buffer Event Effect)) : List Frame := history Effect.dropped? tr

def takenIn (tr : List (Step Buffer Event Effect)) : List Frame := history Effect.taken? tr

def returnedIn (tr : List (Step Buffer Event Effect)) : List Frame := history Effect.returned? tr

/-! ## What a step can do -/

inductive Turn (s : Buffer) : Buffer → Effect → Prop
  | nothing : Turn s s .silent
  | read {size : UInt32} (h : s.reader = .idle) :
      Turn s { s with reader := .read ⟨s.framesRead, size⟩, framesRead := s.framesRead + 1 }
        (.read ⟨s.framesRead, size⟩)
  | accept {frame : Frame} (h : s.reader = .read frame) (haccept : s.acceptFrame frame = true) :
      Turn s { s with currentFrames := s.currentFrames + 1
                      currentBytes := s.currentBytes + frame.size
                      reader := .accepted frame } .silent
  | reject {frame : Frame} (h : s.reader = .read frame) (haccept : s.acceptFrame frame = false) :
      Turn s { s with droppedFrames := s.droppedFrames + 1
                      droppedBytes := s.droppedBytes + frame.size
                      reader := .rejected frame } (.dropped frame)
  | queue {frame : Frame} (h : s.reader = .accepted frame) :
      Turn s { s with frameQueue := s.frameQueue ++ [frame], reader := .idle } .silent
  | delete {frame : Frame} (h : s.reader = .rejected frame) :
      Turn s { s with reader := .idle } .silent
  | take {frame : Frame} {rest : List Frame} (h : s.frameQueue = frame :: rest) :
      Turn s { s with frameQueue := rest, taken := s.taken ++ [frame] } (.taken frame)
  | subtract {frame : Frame} (h : frame ∈ s.taken) :
      Turn s { s with currentFrames := s.currentFrames - 1
                      currentBytes := s.currentBytes - frame.size
                      taken := s.taken.erase frame } (.returned frame)

variable {s s' : Buffer}

theorem step_turn {e : Event} {o : Effect} (h : step s e = .ok (s', o)) : Turn s s' o := by
  unfold step at h
  split at h
  · split at h
    · cases h
      exact .nothing
    · cases h
      exact .read ‹_›
    · cases h
  · split at h
    · split_ifs at h with haccept
      · cases h
        exact .accept ‹_› haccept
      · cases h
        exact .reject ‹_› (Bool.eq_false_iff.mpr haccept)
    · cases h
  · split at h
    · cases h
      exact .queue ‹_›
    · cases h
      exact .delete ‹_›
    · cases h
  · split at h
    · cases h
      exact .nothing
    · cases h
      exact .take ‹_›
  · split_ifs at h with hmem
    cases h
    exact .subtract hmem

/-! ## The counters -/

/-- The counters are the frames between the two locks, as 32-bit numbers. -/
structure Counted (s : Buffer) : Prop where
  frames : s.currentFrames = UInt32.ofNat s.held.length
  bytes : s.currentBytes = UInt32.ofNat (bytes s.held)

theorem counted_withLimits (maxFrames maxBytes : UInt32) :
    Counted (.withLimits maxFrames maxBytes) := ⟨rfl, rfl⟩

theorem Counted.of_perm (h : Counted s) (hperm : s'.held.Perm s.held)
    (hframes : s'.currentFrames = s.currentFrames) (hbytes : s'.currentBytes = s.currentBytes) :
    Counted s' := by
  constructor
  · rw [hframes, h.frames, hperm.length_eq]
  · rw [hbytes, h.bytes, bytes_perm hperm]

theorem Counted.add (h : Counted s) (frame : Frame) (hperm : s'.held.Perm (frame :: s.held))
    (hframes : s'.currentFrames = s.currentFrames + 1)
    (hbytes : s'.currentBytes = s.currentBytes + frame.size) : Counted s' := by
  constructor
  · rw [hframes, h.frames, hperm.length_eq, length_cons, ofNat_add]
    rfl
  · rw [hbytes, h.bytes, bytes_perm hperm, bytes_cons, UInt32.ofNat_add, UInt32.ofNat_toNat,
      UInt32.add_comm]

theorem Counted.sub (h : Counted s) (frame : Frame) (hperm : s.held.Perm (frame :: s'.held))
    (hframes : s'.currentFrames = s.currentFrames - 1)
    (hbytes : s'.currentBytes = s.currentBytes - frame.size) : Counted s' := by
  constructor
  · rw [hframes, h.frames, hperm.length_eq, length_cons, ofNat_add]
    exact UInt32.add_sub_cancel _ _
  · rw [hbytes, h.bytes, bytes_perm hperm, bytes_cons, Nat.add_comm, ofNat_add,
      UInt32.ofNat_toNat, UInt32.add_sub_cancel]

theorem Counted.turn {o : Effect} (h : Counted s) (hturn : Turn s s' o) : Counted s' := by
  cases hturn with
  | nothing => exact h
  | read hreader | reject hreader _ | delete hreader | queue hreader =>
    refine h.of_perm ?_ rfl rfl
    simp [Buffer.held, Reader.pending, hreader]
  | take hqueue =>
    refine h.of_perm ?_ rfl rfl
    simp [Buffer.held, hqueue]
  | @accept frame hreader _ =>
    refine h.add frame ?_ rfl rfl
    simpa [Buffer.held, Reader.pending, hreader] using
      perm_append_singleton frame (s.taken ++ s.frameQueue)
  | @subtract frame hmem =>
    refine h.sub frame ?_ rfl rfl
    exact ((perm_cons_erase hmem).append_right _).append_right _

/-! ## The places of a frame -/

/-- The frames that were read are those that have been decided on, each accepted or
dropped and the accepted ones still in this order, and the undecided one. -/
def Sifted (read accepted dropped undecided : List Frame) : Prop :=
  ∃ decided, read = decided ++ undecided ∧ accepted.Sublist decided ∧
    decided.Perm (accepted ++ dropped)

namespace Sifted

variable {read accepted dropped : List Frame}

theorem next (h : Sifted read accepted dropped []) (frame : Frame) :
    Sifted (read ++ [frame]) accepted dropped [frame] := by
  obtain ⟨decided, hread, hsub, hperm⟩ := h
  rw [append_nil] at hread
  exact ⟨decided, hread ▸ rfl, hsub, hperm⟩

theorem accept {frame : Frame} (h : Sifted read accepted dropped [frame]) :
    Sifted read (accepted ++ [frame]) dropped [] := by
  obtain ⟨decided, hread, hsub, hperm⟩ := h
  refine ⟨decided ++ [frame], by rw [hread, append_nil], hsub.append_right _, ?_⟩
  refine (hperm.append_right [frame]).trans ?_
  rw [append_assoc, append_assoc]
  exact perm_append_comm.append_left accepted

theorem reject {frame : Frame} (h : Sifted read accepted dropped [frame]) :
    Sifted read accepted (dropped ++ [frame]) [] := by
  obtain ⟨decided, hread, hsub, hperm⟩ := h
  refine ⟨decided ++ [frame], by rw [hread, append_nil], ?_, ?_⟩
  · exact hsub.trans (sublist_append_left decided [frame])
  · rw [← append_assoc]
    exact hperm.append_right [frame]

end Sifted

structure Placed (tr : List (Step Buffer Event Effect)) (s : Buffer) : Prop where
  numbered : (readIn tr).map Frame.id = List.range s.framesRead
  sifted : Sifted (readIn tr) (takenIn tr ++ s.frameQueue ++ s.reader.pending) (droppedIn tr)
    s.reader.undecided
  returned : (takenIn tr).Perm (returnedIn tr ++ s.taken)

theorem placed_withLimits (maxFrames maxBytes : UInt32) :
    Placed [] (.withLimits maxFrames maxBytes) where
  numbered := rfl
  sifted := ⟨[], rfl, .refl _, .refl _⟩
  returned := .refl _

section

variable {tr : List (Step Buffer Event Effect)} {s s' : Buffer} {e : Event} {o : Effect}

@[simp]
theorem readIn_cons : readIn (⟨s, e, o⟩ :: tr) = readIn tr ++ o.read?.toList := rfl

@[simp]
theorem droppedIn_cons : droppedIn (⟨s, e, o⟩ :: tr) = droppedIn tr ++ o.dropped?.toList := rfl

@[simp]
theorem takenIn_cons : takenIn (⟨s, e, o⟩ :: tr) = takenIn tr ++ o.taken?.toList := rfl

@[simp]
theorem returnedIn_cons : returnedIn (⟨s, e, o⟩ :: tr) = returnedIn tr ++ o.returned?.toList := rfl

theorem Placed.turn (h : Placed tr s) (hturn : Turn s s' o) : Placed (⟨s, e, o⟩ :: tr) s' := by
  obtain ⟨hnumbered, hsifted, hreturned⟩ := h
  cases hturn with
  | nothing => exact ⟨by simpa using hnumbered, by simpa using hsifted, by simpa using hreturned⟩
  | @read size hreader =>
    rw [hreader] at hsifted
    refine ⟨?_, ?_, by simpa using hreturned⟩
    · simp [hnumbered, range_succ]
    · simpa [Reader.pending, Reader.undecided] using hsifted.next ⟨s.framesRead, size⟩
  | accept hreader _ =>
    rw [hreader] at hsifted
    refine ⟨by simpa using hnumbered, ?_, by simpa using hreturned⟩
    simpa [Reader.pending, Reader.undecided] using hsifted.accept
  | reject hreader _ =>
    rw [hreader] at hsifted
    refine ⟨by simpa using hnumbered, ?_, by simpa using hreturned⟩
    simpa [Reader.pending, Reader.undecided] using hsifted.reject
  | queue hreader | delete hreader =>
    rw [hreader] at hsifted
    refine ⟨by simpa using hnumbered, ?_, by simpa using hreturned⟩
    simpa [Reader.pending, Reader.undecided] using hsifted
  | @take frame rest hqueue =>
    rw [hqueue] at hsifted
    refine ⟨by simpa using hnumbered, by simpa using hsifted, ?_⟩
    simpa using hreturned.append_right [frame]
  | @subtract frame hmem =>
    refine ⟨by simpa using hnumbered, by simpa using hsifted, ?_⟩
    have herase := (perm_cons_erase hmem).append_left (returnedIn tr)
    simpa using hreturned.trans herase

theorem counted_and_placed {maxFrames maxBytes : UInt32}
    (h : Run step (.withLimits maxFrames maxBytes) tr s) : Counted s ∧ Placed tr s := by
  induction h with
  | start => exact ⟨counted_withLimits _ _, placed_withLimits _ _⟩
  | next _ hstep ih =>
    have hturn := step_turn hstep
    exact ⟨ih.1.turn hturn, ih.2.turn hturn⟩

theorem Placed.nodup (h : Placed tr s) : (readIn tr).Nodup :=
  List.Nodup.of_map Frame.id (h.numbered ▸ nodup_range)

theorem Placed.perm (h : Placed tr s) : (readIn tr).Perm
    (returnedIn tr ++ droppedIn tr ++ (s.held ++ s.reader.undecided)) := by
  obtain ⟨decided, hread, _, hperm⟩ := h.sifted
  rw [hread]
  refine (hperm.append_right _).trans ?_
  have htaken : (takenIn tr ++ s.frameQueue ++ s.reader.pending).Perm
      (returnedIn tr ++ s.held) := by
    simpa [Buffer.held] using (h.returned.append_right (s.frameQueue ++ s.reader.pending))
  refine ((htaken.append_right _).append_right _).trans ?_
  rw [append_assoc, append_assoc, append_assoc]
  refine List.Perm.append_left _ ?_
  rw [← append_assoc, ← append_assoc]
  exact perm_append_comm.append_right _

/-- In every interleaving the counters are the frames and bytes between the two locks; frames leave
in order, each once, and each one that was read is returned, dropped, or held. -/
theorem conservation {maxFrames maxBytes : UInt32}
    (hrun : Run step (.withLimits maxFrames maxBytes) tr s)
    (hframes : s.held.length < 2 ^ 32) (hbytes : bytes s.held < 2 ^ 32) :
    s.currentFrames.toNat =
        s.frameQueue.length + s.reader.pending.length + s.taken.length ∧
      s.currentBytes.toNat =
        bytes s.frameQueue + bytes s.reader.pending + bytes s.taken ∧
      (∀ frame ∈ s.taken, 1 ≤ s.currentFrames ∧ frame.size ≤ s.currentBytes) ∧
      (readIn tr).Nodup ∧
      (takenIn tr ++ s.frameQueue ++ s.reader.pending).Sublist (readIn tr) ∧
      (takenIn tr).Perm (returnedIn tr ++ s.taken) ∧
      (readIn tr).Perm (returnedIn tr ++ droppedIn tr ++ (s.held ++ s.reader.undecided)) := by
  obtain ⟨hcounted, hplaced⟩ := counted_and_placed hrun
  have hcurrentFrames : s.currentFrames.toNat = s.held.length := by
    rw [hcounted.frames]
    exact toNat_ofNat_of_lt' hframes
  have hcurrentBytes : s.currentBytes.toNat = bytes s.held := by
    rw [hcounted.bytes]
    exact toNat_ofNat_of_lt' hbytes
  refine ⟨?_, ?_, fun frame hmem => ?_, hplaced.nodup, ?_, hplaced.returned, hplaced.perm⟩
  · rw [hcurrentFrames]
    simp only [Buffer.held, length_append]
    omega
  · rw [hcurrentBytes]
    simp only [Buffer.held, bytes_append]
    omega
  · have hheld := (perm_cons_erase hmem).append_right (s.frameQueue ++ s.reader.pending)
    rw [← append_assoc] at hheld
    have hlength : 1 ≤ s.held.length := by
      change 1 ≤ (s.taken ++ s.frameQueue ++ s.reader.pending).length
      rw [hheld.length_eq]
      simp
    have hsize : frame.size.toNat ≤ bytes s.held := by
      change _ ≤ bytes (s.taken ++ s.frameQueue ++ s.reader.pending)
      rw [bytes_perm hheld]
      simp
    rw [le_iff_toNat_le, le_iff_toNat_le, hcurrentFrames, hcurrentBytes]
    exact ⟨hlength, hsize⟩
  · obtain ⟨decided, hread, hsub, _⟩ := hplaced.sifted
    rw [hread]
    exact hsub.trans (sublist_append_left _ _)

end

def overtaken : List Event :=
  [.read (some 60), .count, .store, .next, .read (some 1500), .count, .store]

theorem conservation_overtaken :
    (replayState step (.withLimits 0 0) overtaken).taken = [⟨0, 60⟩] ∧
      (replayState step (.withLimits 0 0) overtaken).currentBytes.toNat =
        bytes (replayState step (.withLimits 0 0) overtaken).frameQueue +
          bytes (replayState step (.withLimits 0 0) overtaken).reader.pending +
          bytes (replayState step (.withLimits 0 0) overtaken).taken := by
  have hrun : replays step (.withLimits 0 0) overtaken = true := by decide
  exact ⟨by decide, (conservation (run_of_replays hrun) (by decide) (by decide)).2.1⟩

end WormsAttack.Distack.FrameBuffer
