/-
  What a run of an exporter has counted and exported.
-/
import WormsAttack.Foundation.Ledger
import WormsAttack.Exporter.Transition

namespace WormsAttack.Exporter

open Foundation Inet Omnet

abbrev Trace (ι : Type) : Type := List (Step (State ι) (Event ι) (List (Action ι)))

structure Counted where
  serial : Nat
  time : Int
  key : String
  name : String
  bytes : Nat
  /-- The flow timeout in force when it was counted. -/
  flowTimeout : Int

structure Export (ι : Type) where
  key : String
  flow : Flow ι
  time : Int
  log : List Counted

variable {ι : Type}

def stepTime (st : Step (State ι) (Event ι) (List (Action ι))) : Int :=
  match st.event with
  | .arrival t _ => t
  | .selfMessage p => p.arrival
  | .setTimeouts _ _ => st.pre.kernel.now

def countedAs (x : FlowExporter) (t : Int) (name : String) (d : IPDatagram) : Counted :=
  { serial := x.packetCount, time := t, key := flowKey d, name := name, bytes := d.byteLength,
    flowTimeout := x.flowTimeout }

def counted? (st : Step (State ι) (Event ι) (List (Action ι))) : Option Counted :=
  match st.event with
  | .arrival t ⟨_, name, .datagram d⟩ =>
      if st.pre.exporter.Active then some (countedAs st.pre.exporter t name d) else none
  | _ => none

def exportedIn : List (Action ι) → Option (String × Flow ι)
  | [] => none
  | .exportFlow key f :: _ => some (key, f)
  | _ :: rest => exportedIn rest

/-- The trace as a ledger: counted packets are posted, exported keys closed. -/
def ledger : Trace ι → List (Posting String Counted)
  | [] => []
  | st :: tr =>
      match counted? st, exportedIn st.out with
      | some c, _ => .post c.key c :: ledger tr
      | none, some (key, _) => .close key :: ledger tr
      | none, none => ledger tr

def openLog (k : String) (tr : Trace ι) : List Counted :=
  Ledger.openLog k (ledger tr)

def exports : Trace ι → List (Export ι)
  | [] => []
  | st :: tr =>
      match exportedIn st.out with
      | some (key, f) => ⟨key, f, stepTime st, openLog key tr⟩ :: exports tr
      | none => exports tr

/-! ## How the history grows

One lemma for the steps that count, one for the exporting step, and one for the
steps that leave the history as it was. -/

section Growth

variable {s : State ι} {tr : Trace ι} {m : Message} {d : IPDatagram} {out : List (Action ι)}
  {t : Int}

theorem ledger_count (hactive : s.exporter.Active) (hbody : m.body = .datagram d) :
    ledger (⟨s, .arrival t m, out⟩ :: tr) =
      .post (flowKey d) (countedAs s.exporter t m.name d) :: ledger tr := by
  obtain ⟨id, name, body⟩ := m
  subst hbody
  simp [ledger, counted?, hactive, countedAs]

variable {p : SelfMessage ι}

theorem ledger_expire {f : Flow ι} :
    ledger (⟨s, .selfMessage p, [.exportFlow p.name f, .deleteSelf p.id]⟩ :: tr) =
      .close p.name :: ledger tr := rfl

theorem ledger_lapse : ledger (⟨s, .selfMessage p, [.deleteSelf p.id]⟩ :: tr) = ledger tr := rfl

theorem ledger_setTimeouts {newFlowTimeout newIdleTimeout : Int} :
    ledger (⟨s, .setTimeouts newFlowTimeout newIdleTimeout, []⟩ :: tr) = ledger tr := rfl

theorem ledger_ignore (hcounts : ¬ Counts s.exporter m) :
    ledger (⟨s, .arrival t m, [.sendDistack]⟩ :: tr) = ledger tr := by
  obtain ⟨id, name, body⟩ := m
  have hnone : counted? (⟨s, .arrival t ⟨id, name, body⟩, [.sendDistack]⟩ :
      Step (State ι) (Event ι) (List (Action ι))) = none := by
    unfold counted?
    split
    · rename_i t' name' d heq
      simp only [Event.arrival.injEq, Message.mk.injEq] at heq
      split_ifs with hactive
      · exact absurd ⟨hactive, d, heq.2.2.2⟩ hcounts
      · rfl
    · rfl
  simp [ledger, hnone, exportedIn]

theorem openLog_count_self (hactive : s.exporter.Active) (hbody : m.body = .datagram d) :
    openLog (flowKey d) (⟨s, .arrival t m, out⟩ :: tr) =
      openLog (flowKey d) tr ++ [countedAs s.exporter t m.name d] := by
  unfold openLog
  rw [ledger_count hactive hbody, Ledger.openLog_post_self]

theorem openLog_count_ne (hactive : s.exporter.Active) (hbody : m.body = .datagram d) {k : String}
    (hne : k ≠ flowKey d) : openLog k (⟨s, .arrival t m, out⟩ :: tr) = openLog k tr := by
  unfold openLog
  rw [ledger_count hactive hbody, Ledger.openLog_post_ne hne.symm]

end Growth

/-! ## Looking up after a change of the table -/

variable {f : Flow ι} {key : String} {table : FlowTable ι}

theorem lookup_insert_cases {k : String} {f' : Flow ι}
    (h : (table.insert key f).lookup k = some f') :
    (k = key ∧ f' = f) ∨ (k ≠ key ∧ table.lookup k = some f') := by
  by_cases hk : k = key
  · subst hk
    rw [AList.lookup_insert] at h
    exact .inl ⟨rfl, (Option.some.inj h).symm⟩
  · rw [AList.lookup_insert_ne hk] at h
    exact .inr ⟨hk, h⟩

theorem lookup_erase_cases {k : String}
    (h : (table.erase key).lookup k = some f) : k ≠ key ∧ table.lookup k = some f := by
  by_cases hk : k = key
  · subst hk
    rw [AList.lookup_erase] at h
    cases h
  · rw [AList.lookup_erase_ne hk] at h
    exact ⟨hk, h⟩

/-! ## Posted packets and exports -/

theorem key_of_post_mem_ledger {tr : Trace ι} :
    ∀ k c, Posting.post k c ∈ ledger tr → c.key = k := by
  induction tr with
  | nil => intro k c hmem; cases hmem
  | cons st tr ih =>
    intro k c hmem
    unfold ledger at hmem
    split at hmem
    · rcases List.mem_cons.mp hmem with hhead | htail
      · cases hhead; rfl
      · exact ih k c htail
    · rcases List.mem_cons.mp hmem with hhead | htail
      · cases hhead
      · exact ih k c htail
    · exact ih k c hmem

theorem mem_exports {x : Export ι} : ∀ {tr : Trace ι}, x ∈ exports tr →
    ∃ later st earlier, tr = later ++ st :: earlier ∧
      exportedIn st.out = some (x.key, x.flow) ∧ x.time = stepTime st ∧
      x.log = openLog x.key earlier := by
  intro tr
  induction tr with
  | nil => intro hx; cases hx
  | cons st tr ih =>
    intro hx
    have htail : x ∈ exports tr → ∃ later st' earlier,
        st :: tr = later ++ st' :: earlier ∧ exportedIn st'.out = some (x.key, x.flow) ∧
        x.time = stepTime st' ∧ x.log = openLog x.key earlier := by
      intro hmem
      obtain ⟨later, st', earlier, rfl, hrest⟩ := ih hmem
      exact ⟨st :: later, st', earlier, rfl, hrest⟩
    unfold exports at hx
    split at hx
    · rename_i key f hexported
      rcases List.mem_cons.mp hx with rfl | hmem
      · exact ⟨[], st, tr, rfl, hexported, rfl, rfl⟩
      · exact htail hmem
    · exact htail hx

theorem exporting_step [DecidableEq ι] {self : ι} {s s' : State ι} {e : Event ι}
    {out : List (Action ι)} (h : step self s e = .ok (s', out))
    (hexported : exportedIn out = some (key, f)) :
    ∃ p, e = .selfMessage p ∧ p ∈ s.kernel.pending ∧ p.name = key ∧
      s.table.lookup key = some f := by
  cases transition_of_step h with
  | setTimeouts | ignore | reschedule | runOut | openFlow | lapse => cases hexported
  | @expire p f hpending _ _ hfound =>
    cases hexported
    exact ⟨p, rfl, hpending, rfl, hfound⟩

theorem closedLogs_ledger [DecidableEq ι] {self : ι} {tr : Trace ι} {s : State ι}
    (h : Run (step self) initial tr s) :
    Ledger.closedLogs (ledger tr) = (exports tr).map fun x => (x.key, x.log) := by
  induction h with
  | start => rfl
  | next _ hstep ih =>
    cases transition_of_step hstep with
    | setTimeouts => rw [ledger_setTimeouts]; exact ih
    | ignore _ _ hcounts => rw [ledger_ignore hcounts]; exact ih
    | reschedule _ hactive hbody | runOut _ hactive hbody | openFlow _ hactive hbody =>
      rw [ledger_count hactive hbody]; exact ih
    | expire =>
      rw [ledger_expire, Ledger.closedLogs, ih]
      rfl
    | lapse => rw [ledger_lapse]; exact ih

end WormsAttack.Exporter
