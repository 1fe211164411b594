/-
  Who deletes the messages of an exporter.

  For each packet it counts, `handleMessage` creates an expiry message and a timeout message
  before it looks for the record.

  A record keeps a pointer to its expiry message, which is not cleared when the message is
  cancelled.  It is valid all the same: when an expiry message arrives, the record of its name
  is erased in the same call (`Pointed`).
-/
import WormsAttack.Exporter.Timers

namespace WormsAttack.Exporter

open Foundation Inet Omnet List

variable {ι : Type} [DecidableEq ι]

/-! ## Disposal -/

/-- One duplicate goes to Distack, the message is destroyed once, and each timer message
created on the way is scheduled or destroyed. -/
def Disposed (self : ι) (s : State ι) (m : Message) : Prop :=
  ∃ s' out, handleMessage self s m = .ok (s', out) ∧ out.count .sendDistack = 1 ∧
    out.count .deletePacket = 1 ∧
    ∀ id, Action.create id ∈ out → (∃ t, Action.schedule id t ∈ out) ∨ Action.deleteSelf id ∈ out

/-- The message is the first packet of a flow, and both of its timer messages can be
scheduled. -/
def Opens (s : State ι) (m : Message) : Prop :=
  s.exporter.Active ∧ ∃ d, m.body = .datagram d ∧ (∃ new : Flow ι, newFlow m.name d = .ok new) ∧
    s.table.lookup (flowKey d) = none ∧ 0 ≤ seconds s.exporter.flowTimeout ∧
    0 ≤ seconds s.exporter.idleTimeout

variable {s : State ι} {self : ι}

theorem timeout_lost {s' : State ι} {name : String} {d : IPDatagram} {new f : Flow ι}
    (hnew : newFlow name d = .ok new) (hfound : s.table.lookup (flowKey d) = some f)
    {out : List (Action ι)} (h : countDatagram self s name d = .ok (s', out)) :
    Action.create ⟨self, s.exporter.created + 1⟩ ∈ out ∧
      (∀ t, Action.schedule ⟨self, s.exporter.created + 1⟩ t ∉ out) ∧
      Action.deleteSelf ⟨self, s.exporter.created + 1⟩ ∉ out := by
  obtain ⟨inner, hupdate, rfl⟩ := (countDatagram_eq_ok hnew hfound).mp h
  cases hpointer : f.pointer with
  | none => simp [updateFlow, hpointer, Kernel.cancelEvent, bind, Except.bind] at hupdate
  | some old =>
    have hr := (updateFlow_eq_ok hpointer).mp hupdate
    split at hr
    · obtain ⟨-, hr⟩ := hr
      obtain ⟨-, rfl⟩ := Prod.mk.inj hr
      simp
    · obtain ⟨-, rfl⟩ := Prod.mk.inj hr
      simp

theorem handleMessage_counted {s' : State ι} {m : Message} {d : IPDatagram}
    (hactive : s.exporter.Active) (hbody : m.body = .datagram d) {out : List (Action ι)} :
    handleMessage self s m = .ok (s', out) ↔
      ∃ actions, countDatagram self s m.name d = .ok (s', actions) ∧
        out = .sendDistack :: actions := by
  simp only [handleMessage, hactive, hbody, if_true, bind_eq_ok, Prod.exists, Except.ok.injEq,
    Prod.mk.injEq]
  constructor
  · rintro ⟨s₁, actions, hcount, rfl, rfl⟩
    exact ⟨actions, hcount, rfl⟩
  · rintro ⟨actions, hcount, rfl⟩
    exact ⟨s', actions, hcount, rfl, rfl⟩

theorem disposed_of_opens {m : Message} (h : Opens s m) : Disposed self s m := by
  obtain ⟨hactive, d, hbody, ⟨new, hnew⟩, hmissing, hflow, hidle⟩ := h
  have hopen : ∃ s' timeoutAt expiryAt,
      openFlow { s with exporter := s.exporter.count m.name d } (flowKey d) new
        (UInt32.ofNat d.byteLength) ⟨self, s.exporter.created⟩
        ⟨self, s.exporter.created + 1⟩ =
      .ok (s', [.schedule ⟨self, s.exporter.created + 1⟩ timeoutAt,
        .schedule ⟨self, s.exporter.created⟩ expiryAt]) :=
    ⟨_, _, _, openFlow_eq_ok.mpr ⟨by simpa using hflow, by simpa using hidle, rfl⟩⟩
  obtain ⟨s', timeoutAt, expiryAt, hopen⟩ := hopen
  refine ⟨s', _, (handleMessage_counted hactive hbody).mpr
    ⟨_, (countDatagram_eq_ok hnew hmissing).mpr ⟨_, hopen, rfl⟩, rfl⟩, ?_, ?_, ?_⟩
  · simp
  · simp
  intro id hid
  simp only [cons_append, nil_append, mem_cons, not_mem_nil, reduceCtorEq,
    Action.create.injEq, Action.schedule.injEq, false_or, or_false] at hid ⊢
  rcases hid with rfl | rfl
  · exact ⟨expiryAt, .inr ⟨rfl, rfl⟩⟩
  · exact ⟨timeoutAt, .inl ⟨rfl, rfl⟩⟩

/-- Nothing is lost exactly for the first packet of a flow. -/
theorem disposed_iff (self : ι) (s : State ι) (m : Message) : Disposed self s m ↔ Opens s m := by
  refine ⟨?_, disposed_of_opens⟩
  rintro ⟨s', out, h, -, hdelete, htimers⟩
  -- a message that is not counted is only passed on
  have hlost : out ≠ [.sendDistack] := by
    rintro rfl
    cases hdelete
  by_cases hactive : s.exporter.Active
  · cases hbody : m.body with
    | datagram d =>
      obtain ⟨actions, hcount, rfl⟩ := (handleMessage_counted hactive hbody).mp h
      have hread := hcount
      simp only [countDatagram, bind_eq_ok] at hread
      obtain ⟨new, hnew, -⟩ := hread
      refine ⟨hactive, d, hbody, ⟨new, hnew⟩, ?_⟩
      cases hfound : s.table.lookup (flowKey d) with
      | some f =>
        obtain ⟨hcreate, hschedule, hself⟩ := timeout_lost hnew hfound hcount
        rcases htimers _ (mem_cons_of_mem _ hcreate) with ⟨t, ht⟩ | ht
        · exact absurd ((mem_cons.mp ht).resolve_left (by simp)) (hschedule t)
        · exact absurd ((mem_cons.mp ht).resolve_left (by simp)) hself
      | none =>
        obtain ⟨inner, hopen, -⟩ := (countDatagram_eq_ok hnew hfound).mp hcount
        obtain ⟨hflow, hidle, -⟩ := openFlow_eq_ok.mp hopen
        simp only [count_flowTimeout, count_idleTimeout] at hflow hidle
        exact ⟨rfl, hflow, hidle⟩
    | packet =>
      simp only [handleMessage, hactive, hbody, if_true] at h
      cases h
    | plain | ipBlock =>
      simp only [handleMessage, hactive, hbody, if_true] at h
      cases h
      exact absurd rfl hlost
  · simp only [handleMessage, hactive, if_false] at h
    cases h
    exact absurd rfl hlost

/-- A message that arrives before the timeouts are set is not destroyed; a further packet of
a known flow leaves its timeout message behind. -/
theorem messages_lost :
    handleMessage () initial (udpMessage "dns") = .ok (initial, [.sendDistack]) ∧
    ∃ s s' cancelled expiryAt,
      handleMessage () s (udpMessage "dns") = .ok (s', [.sendDistack, .create ⟨(), 2⟩,
        .create ⟨(), 3⟩, .cancel cancelled, .schedule ⟨(), 2⟩ expiryAt, .deletePacket]) :=
  ⟨rfl, replayState (step ()) initial [.setTimeouts 60 10, .arrival 0 (udpMessage "dns")], _,
    ⟨(), 0⟩, seconds 10, rfl⟩

/-! ## The pointers of the records -/

def CreatedIn (tr : Trace ι) (id : MsgId ι) : Prop := ∃ st ∈ tr, Action.create id ∈ st.out

def DeletedIn (tr : Trace ι) (id : MsgId ι) : Prop := ∃ st ∈ tr, Action.deleteSelf id ∈ st.out

structure Valid (host : ι) (tr : Trace ι) (s : State ι) (k : String) (id : MsgId ι) :
    Prop where
  owner : id.owner = host
  created : CreatedIn tr id
  alive : ¬ DeletedIn tr id
  name : ∀ p ∈ s.kernel.pending, p.id = id → p.name = k

/-- The messages of the past have smaller numbers than those to come, and the pointers are valid.
-/
structure Pointed (host : ι) (tr : Trace ι) (s : State ι) : Prop where
  pending : ∀ p ∈ s.kernel.pending, p.id.serial < s.exporter.created
  deleted : ∀ id, DeletedIn tr id → id.serial < s.exporter.created
  pointer : ∀ k f, s.table.lookup k = some f → ∃ id, f.pointer = some id ∧
    id.serial < s.exporter.created ∧ Valid host tr s k id

section Steps

variable {self : ι} {tr : Trace ι} {s s' : State ι} {e : Event ι} {out : List (Action ι)}
  {id : MsgId ι} {st : Step (State ι) (Event ι) (List (Action ι))}

section

omit [DecidableEq ι]

theorem createdIn_cons : CreatedIn (st :: tr) id ↔ Action.create id ∈ st.out ∨ CreatedIn tr id :=
  exists_mem_cons_iff _ _ _

theorem deletedIn_cons :
    DeletedIn (st :: tr) id ↔ Action.deleteSelf id ∈ st.out ∨ DeletedIn tr id :=
  exists_mem_cons_iff _ _ _

theorem Valid.next {k : String} (h : Valid self tr s k id) (hdelete : Action.deleteSelf id ∉ out)
    (hname : ∀ p ∈ s'.kernel.pending, p.id = id → p.name = k) :
    Valid self (⟨s, e, out⟩ :: tr) s' k id where
  owner := h.owner
  created := createdIn_cons.mpr (.inr h.created)
  alive := fun hdeleted => (deletedIn_cons.mp hdeleted).elim hdelete h.alive
  name := hname

/-- A step that creates nothing keeps the invariant if the records of what it deletes are gone. -/
theorem pointed_kept (hi : Pointed self tr s)
    (hdelete : ∀ id, Action.deleteSelf id ∈ out →
      ∃ p ∈ s.kernel.pending, p.id = id ∧ ∀ f, s'.table.lookup p.name ≠ some f)
    (hpending : ∀ p ∈ s'.kernel.pending, p ∈ s.kernel.pending)
    (htable : ∀ k f, s'.table.lookup k = some f → s.table.lookup k = some f)
    (hcreated : s'.exporter.created = s.exporter.created) :
    Pointed self (⟨s, e, out⟩ :: tr) s' where
  pending := by
    intro p hp
    rw [hcreated]
    exact hi.pending p (hpending p hp)
  deleted := by
    intro id hid
    rw [hcreated]
    rcases deletedIn_cons.mp hid with hnow | hpast
    · obtain ⟨p, hp, rfl, -⟩ := hdelete id hnow
      exact hi.pending p hp
    · exact hi.deleted id hpast
  pointer := by
    intro k f hk
    obtain ⟨id, hpointer, hserial, hvalid⟩ := hi.pointer k f (htable k f hk)
    rw [hcreated]
    refine ⟨id, hpointer, hserial, hvalid.next ?_ fun q hq => hvalid.name q (hpending q hq)⟩
    intro hnow
    obtain ⟨p, hp, hid, hgone⟩ := hdelete id hnow
    rw [hvalid.name p hp hid] at hgone
    exact hgone f hk

/-- A counted packet keeps the invariant: its record points to the new expiry message or to the one
before. -/
theorem pointed_count (hi : Pointed self tr s) {key : String} {f' : Flow ι} {id' : MsgId ι}
    (hdelete : ∀ id, Action.deleteSelf id ∉ out)
    (hcreate : Action.create ⟨self, s.exporter.created⟩ ∈ out)
    (hpending : ∀ p ∈ s'.kernel.pending, p ∈ s.kernel.pending ∨
      (p.name = key ∧ s.exporter.created ≤ p.id.serial ∧ p.id.serial < s.exporter.created + 2))
    (htable : s'.table = s.table.insert key f')
    (hcreated : s'.exporter.created = s.exporter.created + 2) (hpointer' : f'.pointer = some id')
    (hid : id' = ⟨self, s.exporter.created⟩ ∨
      ∃ f, s.table.lookup key = some f ∧ f.pointer = some id') :
    Pointed self (⟨s, e, out⟩ :: tr) s' where
  pending := by
    intro p hp
    rw [hcreated]
    rcases hpending p hp with hold | ⟨-, -, hserial⟩
    · exact Nat.lt_add_right 2 (hi.pending p hold)
    · exact hserial
  deleted := by
    intro id hid
    rw [hcreated]
    exact Nat.lt_add_right 2 (hi.deleted id ((deletedIn_cons.mp hid).resolve_left (hdelete id)))
  pointer := by
    -- a message of the past is not one of those scheduled now
    have hname : ∀ {k : String} {id : MsgId ι}, id.serial < s.exporter.created →
        Valid self tr s k id → ∀ p ∈ s'.kernel.pending, p.id = id → p.name = k := by
      rintro k id hserial hvalid p hp rfl
      rcases hpending p hp with hold | ⟨-, hnew, -⟩
      · exact hvalid.name p hold rfl
      · omega
    have hkept : ∀ {k : String} {f : Flow ι}, s.table.lookup k = some f →
        ∃ id, f.pointer = some id ∧ id.serial < s.exporter.created + 2 ∧
          Valid self (⟨s, e, out⟩ :: tr) s' k id := by
      intro k f hk
      obtain ⟨id, hpointer, hserial, hvalid⟩ := hi.pointer k f hk
      exact ⟨id, hpointer, Nat.lt_add_right 2 hserial,
        hvalid.next (hdelete id) (hname hserial hvalid)⟩
    intro k f hk
    rw [htable] at hk
    rw [hcreated]
    rcases lookup_insert_cases hk with ⟨rfl, rfl⟩ | ⟨-, hk⟩
    · rcases hid with rfl | ⟨f₀, hf₀, hpointer₀⟩
      · refine ⟨_, hpointer', Nat.lt_add_of_pos_right (by decide), rfl,
          createdIn_cons.mpr (.inl hcreate), ?_, ?_⟩
        · intro hdeleted
          have hpast := hi.deleted _ ((deletedIn_cons.mp hdeleted).resolve_left (hdelete _))
          exact Nat.lt_irrefl _ hpast
        · rintro p hp hpid
          rcases hpending p hp with hold | ⟨hkey, -⟩
          · have hpast := hi.pending p hold
            rw [hpid] at hpast
            exact absurd hpast (Nat.lt_irrefl _)
          · exact hkey
      · obtain ⟨id, hpointer, hserial, hvalid⟩ := hkept hf₀
        obtain rfl := Option.some.inj (hpointer₀.symm.trans hpointer)
        exact ⟨_, hpointer', hserial, hvalid⟩
    · exact hkept hk

end

theorem pointed_step (hi : Pointed self tr s) (h : Transition self s e s' out) :
    Pointed self (⟨s, e, out⟩ :: tr) s' := by
  cases h with
  | setTimeouts | ignore =>
    exact pointed_kept hi (by simp) (fun _ hp => hp) (fun _ _ hk => hk) rfl
  | reschedule _ _ _ _ hfound hpointer =>
    refine pointed_count hi (by simp) (by simp) ?_ rfl (count_created _ _ _) rfl (.inl rfl)
    intro p hp
    rcases mem_cons.mp hp with rfl | hp
    · exact .inr ⟨rfl, Nat.le_refl _, Nat.lt_add_of_pos_right (by decide)⟩
    · exact .inl (mem_of_mem_filter hp)
  | runOut _ _ _ _ hfound hpointer =>
    exact pointed_count hi (by simp) (by simp)
      (fun p hp => .inl (mem_of_mem_filter hp)) rfl (count_created _ _ _) hpointer
      (.inr ⟨_, hfound, hpointer⟩)
  | openFlow =>
    refine pointed_count hi (by simp) (by simp) ?_ rfl (count_created _ _ _) rfl (.inl rfl)
    intro p hp
    rcases mem_cons.mp hp with rfl | hp
    · exact .inr ⟨rfl, Nat.le_refl _, Nat.lt_add_of_pos_right (by decide)⟩
    rcases mem_cons.mp hp with rfl | hp
    · exact .inr ⟨rfl, Nat.le_succ _, Nat.lt_succ_self _⟩
    · exact .inl hp
  | expire hpending =>
    refine pointed_kept hi (fun id hid => ⟨_, hpending, ?_, fun f hk => ?_⟩)
      (fun _ hq => mem_of_mem_erase hq) (fun _ _ hk => (lookup_erase_cases hk).2) rfl
    · simpa [eq_comm] using hid
    · exact (lookup_erase_cases hk).1 rfl
  | lapse hpending _ _ hmissing =>
    refine pointed_kept hi (fun id hid => ⟨_, hpending, ?_, fun f hk => ?_⟩)
      (fun _ hq => mem_of_mem_erase hq) (fun _ _ hk => hk) rfl
    · simpa [eq_comm] using hid
    · cases hmissing.symm.trans hk

theorem pointed_run (h : Run (step self) initial tr s) : Pointed self tr s := by
  induction h with
  | start =>
    refine ⟨?_, ?_, ?_⟩
    · intro p hp
      cases hp
    · rintro id ⟨st, hst, -⟩
      cases hst
    · intro k f hk
      cases hk
  | next _ hstep ih => exact pointed_step ih (transition_of_step hstep)

theorem pointer_of_cancel (h : Transition self s e s' out) (hcancel : Action.cancel id ∈ out) :
    ∃ k f, s.table.lookup k = some f ∧ f.pointer = some id := by
  cases h with
  | reschedule _ _ _ _ hfound hpointer | runOut _ _ _ _ hfound hpointer =>
    simp only [mem_cons, not_mem_nil, reduceCtorEq, Action.cancel.injEq, false_or,
      or_false] at hcancel
    exact ⟨_, _, hfound, hcancel ▸ hpointer⟩
  | setTimeouts | ignore | openFlow | expire | lapse => simp at hcancel

end Steps

/-- Each record points to a timer message that has been created and not deleted, and so does every
call of `cancelEvent`. -/
theorem pointers_valid {self : ι} {tr : Trace ι} {s : State ι} (h : Run (step self) initial tr s) :
    (∀ k f, s.table.lookup k = some f →
      ∃ id, f.pointer = some id ∧ id.owner = self ∧ CreatedIn tr id ∧ ¬ DeletedIn tr id) ∧
    ∀ later st earlier, tr = later ++ st :: earlier → ∀ id, Action.cancel id ∈ st.out →
      id.owner = self ∧ CreatedIn earlier id ∧ ¬ DeletedIn earlier id := by
  constructor
  · intro k f hk
    obtain ⟨id, hpointer, -, hvalid⟩ := (pointed_run h).pointer k f hk
    exact ⟨id, hpointer, hvalid.owner, hvalid.created, hvalid.alive⟩
  · rintro later st earlier rfl id hcancel
    obtain ⟨s', hrun, hstep, -⟩ := h.split later
    obtain ⟨k, f, hk, hpointer⟩ := pointer_of_cancel (transition_of_step hstep) hcancel
    obtain ⟨id', hpointer', -, hvalid⟩ := (pointed_run hrun).pointer k f hk
    obtain rfl := Option.some.inj (hpointer.symm.trans hpointer')
    exact ⟨hvalid.owner, hvalid.created, hvalid.alive⟩

theorem pointers_valid_twoPackets :
    ∃ f id, (replayState (step ()) initial ((twoPackets "dns" "dns").take 2)).table.lookup
        "0.0.0.1:0.0.0.2:17" = some f ∧ f.pointer = some id ∧
      CreatedIn (replayTrace (step ()) initial ((twoPackets "dns" "dns").take 2)) id ∧
      ¬ DeletedIn (replayTrace (step ()) initial ((twoPackets "dns" "dns").take 2)) id := by
  have hrun : Run (step ()) initial
      (replayTrace (step ()) initial ((twoPackets "dns" "dns").take 2))
      (replayState (step ()) initial ((twoPackets "dns" "dns").take 2)) :=
    run_of_replays (by decide)
  obtain ⟨id, hpointer, -, hcreated, halive⟩ :=
    (pointers_valid hrun).1 "0.0.0.1:0.0.0.2:17" _ rfl
  exact ⟨_, id, rfl, hpointer, hcreated, halive⟩

end WormsAttack.Exporter
