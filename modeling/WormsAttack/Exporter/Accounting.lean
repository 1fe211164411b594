/-
  The counters, the records and the attack tag.
-/
import Mathlib.Algebra.BigOperators.Group.List.Basic
import Mathlib.Data.Nat.ModEq
import WormsAttack.Exporter.History

namespace WormsAttack.Exporter

open Foundation Inet Omnet List UInt32

variable {ι : Type}

/-! ## Records and logs -/

/-- The record `f` is the summary of the packets of `log`, oldest first; its tag is that of the
first. -/
structure Records (f : Flow ι) (log : List Counted) : Prop where
  packets : f.packetCount = UInt32.ofNat log.length
  bytes : f.byteCount = UInt32.ofNat (log.map (·.bytes)).sum
  start : log.head?.map (·.time) = some f.startTime
  finish : log.getLast?.map (·.time) = some f.endTime
  tag : log.head?.map (fun c => isAttackName c.name) = some f.attackTag

variable {f : Flow ι} {s : State ι} {self : ι} {tr : Trace ι} {log : List Counted}

theorem Records.ne_nil (h : Records f log) : log ≠ [] := by
  rintro rfl
  have hstart := h.start
  simp at hstart

theorem Records.merge (h : Records f log) (c : Counted) (pointer : Option (MsgId ι)) :
    Records { f.merge c.time (ofNat c.bytes) with pointer := pointer }
      (log ++ [c]) where
  packets := by
    simp only [Flow.merge, h.packets, length_append, length_singleton, ofNat_add]
    rfl
  bytes := by
    simp only [Flow.merge, h.bytes, map_append, sum_append, map_cons,
      map_nil, sum_cons, sum_nil, Nat.add_zero, ofNat_add]
  start := by
    rw [head?_append_of_ne_nil _ h.ne_nil]
    exact h.start
  finish := by
    rw [getLast?_append]
    rfl
  tag := by
    rw [head?_append_of_ne_nil _ h.ne_nil]
    exact h.tag

theorem newFlow_eq_ok {name : String} {d : IPDatagram} {new : Flow ι}
    (h : newFlow name d = .ok new) :
    new.packetCount = 1 ∧ new.attackTag = isAttackName name := by
  unfold newFlow readTransport at h
  split at h
  · split at h
    · cases h; exact ⟨rfl, rfl⟩
    · cases h
  · split at h
    · split at h
      · cases h; exact ⟨rfl, rfl⟩
      · cases h
    · split at h
      · split at h
        · cases h; exact ⟨rfl, rfl⟩
        · cases h
      · cases h; exact ⟨rfl, rfl⟩

theorem Records.opened {name : String} {d : IPDatagram} {new : Flow ι}
    (h : newFlow name d = .ok new) (x : FlowExporter) (t : Int) (expiry : MsgId ι) :
    Records (new.opened t (ofNat d.byteLength) expiry) [countedAs x t name d] := by
  obtain ⟨hcount, htag⟩ := newFlow_eq_ok h
  exact
    { packets := hcount
      bytes := by simp [Flow.opened, countedAs]
      start := rfl
      finish := rfl
      tag := by simp [Flow.opened, countedAs, htag] }

/-! ## What a step does to the table and the history -/

variable [DecidableEq ι] {out : List (Action ι)}

/-- A step leaves table and history alone, counts one packet into the record of its key, or exports
one record. -/
theorem table_cases {s' : State ι} {e : Event ι} (tr : Trace ι) (h : Transition self s e s' out) :
    (ledger (⟨s, e, out⟩ :: tr) = ledger tr ∧ exports (⟨s, e, out⟩ :: tr) = exports tr ∧
      s'.table = s.table ∧ ∃ f i, s'.exporter = setTimeouts s.exporter f i) ∨
    (∃ t m d f', e = .arrival t m ∧ m.body = .datagram d ∧ ledger (⟨s, e, out⟩ :: tr) =
        .post (flowKey d) (countedAs s.exporter t m.name d) :: ledger tr ∧
      exports (⟨s, e, out⟩ :: tr) = exports tr ∧ s'.exporter = s.exporter.count m.name d ∧
      s'.table = s.table.insert (flowKey d) f' ∧
      ((∃ f pointer, s.table.lookup (flowKey d) = some f ∧
          f' = { f.merge t (ofNat d.byteLength) with pointer := pointer }) ∨
        ∃ new expiry, s.table.lookup (flowKey d) = none ∧ newFlow m.name d = .ok new ∧
          f' = new.opened t (ofNat d.byteLength) expiry)) ∨
    (∃ p f, e = .selfMessage p ∧ ledger (⟨s, e, out⟩ :: tr) = .close p.name :: ledger tr ∧
      exports (⟨s, e, out⟩ :: tr) = ⟨p.name, f, p.arrival, openLog p.name tr⟩ :: exports tr ∧
      s.table.lookup p.name = some f ∧ s'.table = s.table.erase p.name ∧
      s'.exporter = s.exporter) := by
  cases h with
  | setTimeouts f i => exact .inl ⟨ledger_setTimeouts, rfl, rfl, f, i, rfl⟩
  | ignore _ _ hcounts => exact .inl ⟨ledger_ignore hcounts, rfl, rfl, _, _, rfl⟩
  | @reschedule t m d _ f _ _ hactive hbody _ hfound =>
    exact .inr (.inl ⟨t, m, d, _, rfl, hbody, ledger_count hactive hbody, rfl, rfl, rfl,
      .inl ⟨f, _, hfound, rfl⟩⟩)
  | @runOut t m d _ f _ _ hactive hbody _ hfound =>
    exact .inr (.inl ⟨t, m, d, _, rfl, hbody, ledger_count hactive hbody, rfl, rfl, rfl,
      .inl ⟨f, f.pointer, hfound, rfl⟩⟩)
  | @openFlow t m d new _ hactive hbody hnew hmissing =>
    exact .inr (.inl ⟨t, m, d, _, rfl, hbody, ledger_count hactive hbody, rfl, rfl, rfl,
      .inr ⟨new, _, hmissing, hnew, rfl⟩⟩)
  | @expire p f _ _ _ hfound => exact .inr (.inr ⟨p, f, rfl, ledger_expire, rfl, hfound, rfl, rfl⟩)
  | lapse => exact .inl ⟨ledger_lapse, rfl, rfl, _, _, rfl⟩

/-! ## The table refines the ledger -/

structure Tracks (tr : Trace ι) (table : FlowTable ι) : Prop where
  missing : ∀ k, table.lookup k = none → openLog k tr = []
  found : ∀ k f, table.lookup k = some f → Records f (openLog k tr)

variable {table : FlowTable ι}

omit [DecidableEq ι] in
theorem Tracks.insert {tr' : Trace ι} (hi : Tracks tr table) {key : String}
    {c : Counted} (hledger : ledger tr' = .post key c :: ledger tr)
    (hf : Records f (openLog key tr ++ [c])) : Tracks tr' (table.insert key f) := by
  have hother : ∀ k, k ≠ key → openLog k tr' = openLog k tr := by
    intro k hk
    unfold openLog
    rw [hledger, Ledger.openLog_post_ne hk.symm]
  constructor
  · intro k hk
    have hne : k ≠ key := by
      rintro rfl
      rw [AList.lookup_insert] at hk
      cases hk
    rw [AList.lookup_insert_ne hne] at hk
    rw [hother k hne]
    exact hi.missing k hk
  · intro k g hk
    rcases lookup_insert_cases hk with ⟨rfl, rfl⟩ | ⟨hne, hk⟩
    · have hself : openLog k tr' = openLog k tr ++ [c] := by
        unfold openLog
        rw [hledger, Ledger.openLog_post_self]
      exact hself ▸ hf
    · rw [hother k hne]
      exact hi.found k g hk

omit [DecidableEq ι] in
theorem Tracks.erase {tr' : Trace ι} (hi : Tracks tr table) {key : String}
    (hledger : ledger tr' = .close key :: ledger tr) : Tracks tr' (table.erase key) := by
  constructor
  · intro k hk
    unfold openLog
    rw [hledger]
    by_cases hkey : k = key
    · rw [hkey, Ledger.openLog_close_self]
    · rw [Ledger.openLog_close_ne (Ne.symm hkey)]
      rw [AList.lookup_erase_ne hkey] at hk
      exact hi.missing k hk
  · intro k f hk
    obtain ⟨hne, hk⟩ := lookup_erase_cases hk
    unfold openLog
    rw [hledger, Ledger.openLog_close_ne hne.symm]
    exact hi.found k f hk

theorem tracks_step {s' : State ι} {e : Event ι}
    (h : Transition self s e s' out) (hi : Tracks tr s.table) :
    Tracks (⟨s, e, out⟩ :: tr) s'.table := by
  rcases table_cases tr h with ⟨hledger, -, htable, -⟩ |
    ⟨t, m, d, f', -, -, hledger, -, -, htable, hrecord⟩ |
    ⟨p, f, -, hledger, -, -, htable, -⟩
  · exact ⟨fun k hk => by unfold openLog; rw [hledger]; exact hi.missing k (htable ▸ hk),
      fun k f hk => by unfold openLog; rw [hledger]; exact hi.found k f (htable ▸ hk)⟩
  · rw [htable]
    refine hi.insert hledger ?_
    rcases hrecord with ⟨f, pointer, hfound, rfl⟩ | ⟨new, expiry, hmissing, hnew, rfl⟩
    · exact (hi.found _ f hfound).merge (countedAs s.exporter t m.name d) pointer
    · rw [hi.missing _ hmissing]
      exact Records.opened hnew s.exporter t expiry
  · rw [htable]
    exact hi.erase hledger

variable (h : Run (step self) initial tr s)

include h

theorem tracks_run : Tracks tr s.table := by
  refine h.invariant (I := fun tr s => Tracks tr s.table) ⟨fun _ _ => rfl, ?_⟩ ?_
  · intro k f hk
    cases hk
  · intro tr s s' e o hi hstep
    exact tracks_step (transition_of_step hstep) hi

theorem exports_records : ∀ x ∈ exports tr, Records x.flow x.log := by
  intro x hx
  obtain ⟨later, st, earlier, rfl, hexported, -, hlog⟩ := mem_exports hx
  obtain ⟨s', hrun, hstep, -⟩ := h.split later
  obtain ⟨p, -, -, -, hfound⟩ := exporting_step hstep hexported
  rw [hlog]
  exact (tracks_run hrun).found x.key x.flow hfound

/-! ## The counters -/

def FlowExporter.Balanced (x : FlowExporter) : Prop :=
  x.packetCount = x.tcpCount + x.udpCount + x.sctpCount + x.otherCount ∧
    x.packetCount = x.malicious + x.benign

omit h in
theorem FlowExporter.Balanced.count {x : FlowExporter} (h : x.Balanced) (name : String)
    (d : IPDatagram) : (x.count name d).Balanced := by
  obtain ⟨hprotocol, htraffic⟩ := h
  unfold FlowExporter.count tally
  split_ifs <;> constructor <;> simp only <;> omega

omit h in
@[simp] theorem count_packetCount (x : FlowExporter) (name : String) (d : IPDatagram) :
    (x.count name d).packetCount = x.packetCount + 1 := by
  unfold FlowExporter.count tally
  split_ifs <;> rfl

theorem balanced_run : s.exporter.Balanced := by
  refine h.invariant (I := fun _ s => s.exporter.Balanced) ⟨rfl, rfl⟩ ?_
  intro tr s s' e o hi hstep
  rcases table_cases tr (transition_of_step hstep) with ⟨-, -, -, f, i, hexporter⟩ |
    ⟨t, m, d, f', -, -, -, -, hexporter, -⟩ | ⟨p, f, -, -, -, -, -, hexporter⟩
  · rw [hexporter]
    exact hi
  · rw [hexporter]
    exact hi.count m.name d
  · rw [hexporter]
    exact hi

theorem serials_run :
    (Ledger.posted (ledger tr)).map (·.serial) = range s.exporter.packetCount := by
  refine h.invariant (I := fun tr s =>
    (Ledger.posted (ledger tr)).map (·.serial) = range s.exporter.packetCount) rfl ?_
  intro tr s s' e o hi hstep
  rcases table_cases tr (transition_of_step hstep) with ⟨hledger, -, -, f, i, hexporter⟩ |
    ⟨t, m, d, f', -, -, hledger, -, hexporter, -⟩ | ⟨p, f, -, hledger, -, -, -, hexporter⟩
  · rw [hledger, hexporter]
    exact hi
  · rw [hledger, hexporter, count_packetCount, range_succ, ← hi, Ledger.posted, map_append]
    rfl
  · rw [hledger, hexporter]
    exact hi

/-! ## The account of a run -/

def exportedPackets (tr : Trace ι) : Nat :=
  ((exports tr).map fun x => x.flow.packetCount.toNat).sum

def tablePackets (table : FlowTable ι) : Nat :=
  (table.entries.map fun entry => entry.2.packetCount.toNat).sum

def logs (tr : Trace ι) (table : FlowTable ι) : List (List Counted) :=
  (exports tr).map (·.log) ++ table.keys.map fun k => openLog k tr

theorem logs_perm :
    ((logs tr s.table).flatten.map (·.serial)).Perm (range s.exporter.packetCount) := by
  have hcover : ∀ k, Ledger.openLog k (ledger tr) ≠ [] → k ∈ s.table.keys := by
    intro k hk
    apply AList.lookup_isSome.mp
    cases hlookup : s.table.lookup k with
    | none => exact absurd ((tracks_run h).missing k hlookup) hk
    | some f => rfl
  have hperm := Ledger.posted_perm_logs (ledger tr) s.table.keys_nodup hcover
  rw [closedLogs_ledger h, flatMap_map] at hperm
  rw [← serials_run h]
  refine List.Perm.map _ (List.Perm.trans ?_ hperm.symm)
  rw [logs, flatten_append, flatMap_def, flatMap_def]
  exact List.Perm.refl _

theorem counts_eq : (exports tr).map (fun x => x.flow.packetCount.toNat) ++
        s.table.entries.map (fun entry => entry.2.packetCount.toNat) =
      ((logs tr s.table).map length).map (· % 2 ^ 32) := by
  have hrecord : ∀ {f : Flow ι} {log : List Counted}, Records f log →
      f.packetCount.toNat = log.length % 2 ^ 32 := by
    intro f log hf
    rw [hf.packets, toNat_ofNat']
  simp only [logs, map_append, map_map, AList.keys, keys]
  congr 1
  · refine map_congr_left fun x hx => ?_
    exact hrecord (exports_records h x hx)
  · refine map_congr_left fun entry hentry => ?_
    exact hrecord ((tracks_run h).found entry.1 entry.2 (AList.mem_lookup_iff.mpr hentry))

omit h

/-- The counters balance, the records add up to them, and every packet is in exactly one record,
which is the summary of its packets. -/
theorem accounting_exact {self : ι} {tr : Trace ι} {s : State ι}
    (h : Run (step self) initial tr s) :
    s.exporter.Balanced ∧
    s.exporter.packetCount ≡ exportedPackets tr + tablePackets s.table [MOD 2 ^ 32] ∧
    ((∀ log ∈ logs tr s.table, log.length < 2 ^ 32) →
      s.exporter.packetCount = exportedPackets tr + tablePackets s.table) ∧
    (∀ x ∈ exports tr, (∃ later st earlier, tr = later ++ st :: earlier ∧
        exportedIn st.out = some (x.key, x.flow) ∧ x.log = openLog x.key earlier) ∧
      (∀ c ∈ x.log, c.key = x.key) ∧ x.flow.packetCount.toNat = x.log.length % 2 ^ 32 ∧
      x.flow.byteCount.toNat = (x.log.map (·.bytes)).sum % 2 ^ 32 ∧
      x.log.head?.map (·.time) = some x.flow.startTime ∧
      x.log.getLast?.map (·.time) = some x.flow.endTime) ∧
    (∀ k, (s.table.lookup k).isSome ↔ openLog k tr ≠ []) ∧
    ((logs tr s.table).flatten.map (·.serial)).Perm
      (List.range s.exporter.packetCount) := by
  have htotal : s.exporter.packetCount = ((logs tr s.table).map length).sum := by
    have hlength := (logs_perm h).length_eq
    rw [length_map, length_flatten, length_range] at hlength
    exact hlength.symm
  have hcounts : exportedPackets tr + tablePackets s.table =
      (((logs tr s.table).map length).map (· % 2 ^ 32)).sum := by
    rw [← counts_eq h, sum_append]
    rfl
  refine ⟨balanced_run h, ?_, ?_, ?_, ?_, logs_perm h⟩
  · rw [htotal, hcounts]
    exact sum_nat_mod _ _
  · intro hsmall
    rw [htotal, hcounts, map_map]
    congr 1
    refine map_congr_left fun log hlog => ?_
    exact (Nat.mod_eq_of_lt (hsmall log hlog)).symm
  · intro x hx
    have hrecords := exports_records h x hx
    obtain ⟨later, st, earlier, htr, hexported, -, hlog⟩ := mem_exports hx
    refine ⟨⟨later, st, earlier, htr, hexported, hlog⟩, ?_, ?_, ?_, hrecords.start, hrecords.finish⟩
    · rw [hlog]
      exact Ledger.forall_mem_openLog (fun k c hpost => key_of_post_mem_ledger k c hpost)
    · rw [hrecords.packets, toNat_ofNat']
    · rw [hrecords.bytes, toNat_ofNat']
  · intro k
    cases hlookup : s.table.lookup k with
    | none => simp [(tracks_run h).missing k hlookup]
    | some f => simp [((tracks_run h).found k f hlookup).ne_nil]

def udpMessage (name : String) : Message :=
  { id := 0
    name := name
    body := .datagram
      { version := 4, srcAddress := ⟨1⟩, destAddress := ⟨2⟩, transportProtocol := 17
        byteLength := 40, encapsulated := some ⟨.udp ⟨1000, 53⟩, 20⟩ } }

def twoPackets (first second : String) : List (Event Unit) :=
  [.setTimeouts 60 10, .arrival 0 (udpMessage first),
    .arrival (seconds 1) (udpMessage second),
    .selfMessage ⟨⟨(), 2⟩, "0.0.0.1:0.0.0.2:17", seconds 11⟩]

theorem accounting_exact_twoPackets :
    exportedPackets (replayTrace (step ()) initial (twoPackets "dns" "dns")) = 2 ∧
    (replayState (step ()) initial (twoPackets "dns" "dns")).exporter.Balanced :=
  ⟨by decide, (accounting_exact (run_of_replays (by decide))).1⟩

/-! ## The attack tag -/

/-- The tag of an exported record is right exactly when the first packet was an attack packet, or
none was. -/
theorem attackTag_exact_iff {self : ι} {tr : Trace ι} {s : State ι}
    (h : Run (step self) initial tr s) (x : Export ι) (hx : x ∈ exports tr) :
    (x.flow.attackTag = true ↔ ∃ c ∈ x.log, isAttackName c.name = true) ↔
      (∃ c, x.log.head? = some c ∧ isAttackName c.name = true) ∨
        ∀ c ∈ x.log, isAttackName c.name = false := by
  have htag := (exports_records h x hx).tag
  obtain ⟨c, hhead, htag⟩ := Option.map_eq_some_iff.mp htag
  have hmem : c ∈ x.log := mem_of_head? hhead
  rw [← htag]
  constructor
  · intro hiff
    cases hc : isAttackName c.name with
    | true => exact .inl ⟨c, hhead, hc⟩
    | false =>
      refine .inr fun c' hc' => ?_
      cases hname : isAttackName c'.name with
      | false => rfl
      | true => exact absurd (hiff.mpr ⟨c', hc', hname⟩) (by simp [hc])
  · intro hcases
    refine ⟨fun hc => ⟨c, hmem, hc⟩, ?_⟩
    rintro ⟨c', hc', hname⟩
    rcases hcases with ⟨first, hfirst, hattack⟩ | hnone
    · rw [hhead] at hfirst
      cases hfirst
      exact hattack
    · rw [hnone c' hc'] at hname
      cases hname

theorem attackTag_exact_flood :
    ∃ x ∈ exports (replayTrace (step ()) initial (twoPackets "udp_flood" "dns")),
      x.flow.attackTag = true ↔ ∃ c ∈ x.log, isAttackName c.name = true :=
  ⟨_, head_mem (by decide),
    (attackTag_exact_iff (run_of_replays (by decide)) _ (head_mem (by decide))).mpr
      (.inl ⟨_, rfl, by decide⟩)⟩

/-- A flood packet that follows an ordinary packet of its flow is exported in an
untagged record. -/
theorem attackTag_misses_flood :
    Run (step ()) initial (replayTrace (step ()) initial (twoPackets "dns" "udp_flood"))
      (replayState (step ()) initial (twoPackets "dns" "udp_flood")) ∧
    ∃ x ∈ exports (replayTrace (step ()) initial (twoPackets "dns" "udp_flood")),
      ¬ (x.flow.attackTag = true ↔ ∃ c ∈ x.log, isAttackName c.name = true) :=
  ⟨run_of_replays (by decide), by decide⟩

end WormsAttack.Exporter
