/-
  The IDSModule of the resilience patch.

  Source: deliverable/resilience/patch/ReaSE/src/applications/ids/IDSModule.cc and IDSModule.h.

  NUMBERS.  `packet_count` is an `unsigned int` and wraps around.  `packetCount` is a `long` and
  a natural number here.  The share is a `float` in the source and exact here.

  WHAT IS NOT MODELLED.  Other detectors, which would share the table; the member
  `destination_ip` of an entry, which is not read; the texts for the user interface.
-/
import Mathlib.Algebra.Order.BigOperators.Group.List
import Mathlib.Algebra.Order.Field.Basic
import Mathlib.Data.List.AList
import WormsAttack.Foundation.Run
import WormsAttack.Foundation.Tally
import WormsAttack.Inet.Packet

namespace WormsAttack.Ids.Resilience

open Foundation Inet List

inductive Stop
  | badCast
  /-- `strcpy` writes over the end of `victim_ip` -/
  | bufferOverflow

structure IDS where
  packetCount : UInt32 := 1
  seen : Bool := false

abbrev IDSTable := AList fun _ : String => IDS

/-- The members of the module and the variables of its file. -/
structure IDSModule where
  packetCount : Nat
  tableIDS : IDSTable
  /-- the text in the static array -/
  victimIp : String
  report : Bool

inductive Action
  | publish (name : String) (values : List String)
  | sendDistack (m : Message)

inductive Event
  | message (m : Message)
  | setReport (action : String)

def prob (ids : IDS) (packetCount : Nat) : Rat := ids.packetCount.toNat / packetCount

namespace IDSModule

def initial : IDSModule := { packetCount := 0, tableIDS := ∅, victimIp := "", report := false }

/-- The second part of `handleMessage`, for a key whose entry is `ids` after it has been
counted. -/
def checkVictim (x : IDSModule) (key : String) (ids : IDS) :
    Except Stop (IDSModule × List Action) :=
  if prob ids x.packetCount > 7 / 10 then
    if key ≠ x.victimIp then
      if key.length < 10 then .ok ({ x with victimIp := key }, [])
      else .error .bufferOverflow
    else if x.report ∧ ids.seen = false then
      .ok ({ x with tableIDS := x.tableIDS.insert key { ids with seen := true } },
        [.publish "intrusion" [key]])
    else .ok (x, [])
  else .ok (x, [])

def handleDatagram (x : IDSModule) (d : IPDatagram) : Except Stop (IDSModule × List Action) :=
  let x := { x with packetCount := x.packetCount + 1 }
  let key := d.destAddress.str
  match x.tableIDS.lookup key with
  | some ids =>
      let ids := { ids with packetCount := ids.packetCount + 1 }
      { x with tableIDS := x.tableIDS.insert key ids }.checkVictim key ids
  | none => .ok ({ x with tableIDS := x.tableIDS.insert key {} }, [])

def setReport (x : IDSModule) (action : String) : IDSModule :=
  if action = "on" then { x with report := true }
  else if action = "off" then { x with report := false }
  else x

def handleMessage (x : IDSModule) (m : Message) : Except Stop (IDSModule × List Action) :=
  match m.body with
  | .datagram d => do
      let (x, out) ← x.handleDatagram d
      .ok (x, out ++ [.sendDistack m])
  | .packet => .error .badCast
  | _ => .ok (x, [.sendDistack m])

end IDSModule

def step (x : IDSModule) : Event → Except Stop (IDSModule × List Action)
  | .message m => x.handleMessage m
  | .setReport action => .ok (x.setReport action, [])

/-! ## One event -/

def Event.key? : Event → Option String
  | .message { body := .datagram d, .. } => some d.destAddress.str
  | _ => none

def Action.victim? : Action → Option String
  | .publish "intrusion" [key] => some key
  | _ => none

inductive Handled (x x' : IDSModule) (e : Event) (out : List Action) : Prop
  | passes (hkey : e.key? = none) (htable : x'.tableIDS = x.tableIDS)
      (hcount : x'.packetCount = x.packetCount) (hquiet : out.filterMap Action.victim? = [])
  | first {key : String} (hkey : e.key? = some key) (hnew : x.tableIDS.lookup key = none)
      (htable : x'.tableIDS = x.tableIDS.insert key {})
      (hcount : x'.packetCount = x.packetCount + 1) (hquiet : out.filterMap Action.victim? = [])
  | again {key : String} {ids : IDS} (hkey : e.key? = some key)
      (hold : x.tableIDS.lookup key = some ids)
      (htable : x'.tableIDS =
        x.tableIDS.insert key { ids with packetCount := ids.packetCount + 1 })
      (hcount : x'.packetCount = x.packetCount + 1) (hquiet : out.filterMap Action.victim? = [])
  | publishes {key : String} {ids : IDS} (hkey : e.key? = some key)
      (hold : x.tableIDS.lookup key = some ids) (hunseen : ids.seen = false)
      (htable : x'.tableIDS =
        x.tableIDS.insert key { packetCount := ids.packetCount + 1, seen := true })
      (hcount : x'.packetCount = x.packetCount + 1) (hreport : x.report = true)
      (hshare : prob { packetCount := ids.packetCount + 1, seen := true } x'.packetCount > 7 / 10)
      (hout : out.filterMap Action.victim? = [key])

variable {d : IPDatagram} {x' x : IDSModule} {out : List Action}

theorem handleDatagram_handled {m : Message} (hbody : m.body = .datagram d)
    (h : x.handleDatagram d = .ok (x', out)) :
    Handled x x' (.message m) (out ++ [.sendDistack m]) := by
  have hkey : (Event.message m).key? = some d.destAddress.str := by
    obtain ⟨id, name, body⟩ := m
    cases hbody
    rfl
  unfold IDSModule.handleDatagram at h
  dsimp only at h
  split at h
  · rename_i ids hold
    unfold IDSModule.checkVictim at h
    split at h
    · rename_i hshare
      split at h
      · split at h <;> cases h
        exact .again hkey hold rfl rfl rfl
      · split_ifs at h with hreport
        · cases h
          refine .publishes hkey hold hreport.2 ?_ rfl hreport.1 hshare rfl
          exact AList.insert_insert _
        · cases h
          exact .again hkey hold rfl rfl rfl
    · cases h
      exact .again hkey hold rfl rfl rfl
  · rename_i hnew
    cases h
    exact .first hkey hnew rfl rfl rfl

theorem step_handled {e : Event} (h : step x e = .ok (x', out)) : Handled x x' e out := by
  cases e with
  | message m =>
    obtain ⟨id, name, body⟩ := m
    cases body with
    | datagram d =>
      obtain ⟨⟨x₁, out₁⟩, hdatagram, h⟩ := bind_eq_ok.mp h
      cases h
      exact handleDatagram_handled rfl hdatagram
    | packet => cases h
    | plain | ipBlock address block =>
      cases h
      exact .passes rfl rfl rfl rfl
  | setReport action =>
    cases h
    unfold IDSModule.setReport
    split
    · exact .passes rfl rfl rfl rfl
    · split <;> exact .passes rfl rfl rfl rfl

theorem handleDatagram_eq_error_iff {f : Stop} :
    x.handleDatagram d = .error f ↔
      f = .bufferOverflow ∧ ∃ ids, x.tableIDS.lookup d.destAddress.str = some ids ∧
        prob { ids with packetCount := ids.packetCount + 1 } (x.packetCount + 1) > 7 / 10 ∧
        d.destAddress.str ≠ x.victimIp ∧ 10 ≤ d.destAddress.str.length := by
  unfold IDSModule.handleDatagram
  dsimp only
  split
  · rename_i ids hold
    unfold IDSModule.checkVictim
    split
    · rename_i hshare
      split
      · rename_i hne
        split
        · refine iff_of_false ok_ne_error ?_
          rintro ⟨-, -, -, -, -, hlong⟩
          omega
        · rename_i hlong
          constructor
          · intro h
            cases h
            exact ⟨rfl, ids, hold, hshare, hne, Nat.not_lt.mp hlong⟩
          · rintro ⟨rfl, -⟩
            rfl
      · rename_i hsame
        refine iff_of_false (by split <;> exact ok_ne_error) ?_
        rintro ⟨-, -, -, -, hne, -⟩
        exact hsame hne
    · rename_i hshare
      refine iff_of_false ok_ne_error ?_
      rintro ⟨-, ids', hold', hshare', -, -⟩
      cases hold.symm.trans hold'
      exact hshare hshare'
  · rename_i hnew
    refine iff_of_false ok_ne_error ?_
    rintro ⟨-, ids, hold, -⟩
    cases hnew.symm.trans hold

theorem step_datagram_ok (x : IDSModule) {m : Message} (hbody : m.body = .datagram d)
    (hshort : d.destAddress.str.length < 10) : ∃ x' out, step x (.message m) = .ok (x', out) := by
  cases hdatagram : x.handleDatagram d with
  | error f =>
    obtain ⟨-, -, -, -, -, hlong⟩ := handleDatagram_eq_error_iff.mp hdatagram
    omega
  | ok r =>
    refine ⟨r.1, r.2 ++ [.sendDistack m], ?_⟩
    rw [step, IDSModule.handleMessage, hbody]
    exact bind_eq_ok.mpr ⟨r, hdatagram, rfl⟩

theorem Handled.packetCount {e : Event} {key : String} (h : Handled x x' e out)
    (hkey : e.key? = some key) : x'.packetCount = x.packetCount + 1 := by
  cases h with
  | passes hnone _ _ _ => cases hkey.symm.trans hnone
  | first _ _ _ hcount _ | again _ _ _ hcount _ | publishes _ _ _ _ hcount _ _ _ => exact hcount

/-! ## Histories -/

abbrev Trace := List (Step IDSModule Event (List Action))

def received (key : String) : Trace → Nat
  | [] => 0
  | st :: tr => received key tr + if st.event.key? = some key then 1 else 0

def published (tr : Trace) : List String := tr.flatMap fun st => st.out.filterMap Action.victim?

def IDSTable.total (t : IDSTable) : Nat := (t.entries.map fun e => e.2.packetCount.toNat).sum

structure Counted (tr : Trace) (x : IDSModule) : Prop where
  counts : ∀ key ids, x.tableIDS.lookup key = some ids →
    ids.packetCount = UInt32.ofNat (received key tr)
  unknown : ∀ key, x.tableIDS.lookup key = none → received key tr = 0
  sum : (x.tableIDS.keys.map (received · tr)).sum = x.packetCount

structure Latched (tr : Trace) (x : IDSModule) : Prop where
  seen : ∀ key ∈ published tr, ∃ ids, x.tableIDS.lookup key = some ids ∧ ids.seen = true
  once : (published tr).Nodup

section Datagram

variable {tr : Trace} {x x' : IDSModule} {e : Event} {out : List Action} {key : String} {ids : IDS}

theorem sum_received_insert (h : Counted tr x) (hkey : e.key? = some key) :
    ((x.tableIDS.insert key ids).keys.map (received · (⟨x, e, out⟩ :: tr))).sum =
      x.packetCount + 1 := by
  have hstep : ∀ k, received k (⟨x, e, out⟩ :: tr) = received k tr + if key = k then 1 else 0 := by
    simp [received, hkey]
  have hkeys : ((x.tableIDS.keys.map (received · (⟨x, e, out⟩ :: tr))).sum : Nat) =
      x.packetCount + if key ∈ x.tableIDS.keys then 1 else 0 := by
    simp only [hstep]
    rw [sum_map_add, h.sum, Tally.sum_ite_eq x.tableIDS.keys_nodup]
  rw [AList.keys_insert]
  by_cases hmem : key ∈ x.tableIDS.keys
  · rw [if_pos hmem] at hkeys
    rw [← hkeys]
    exact ((perm_cons_erase hmem).symm.map _).sum_eq
  · have hzero : received key tr = 0 := h.unknown key (AList.lookup_eq_none.mpr hmem)
    rw [if_neg hmem] at hkeys
    rw [erase_of_not_mem hmem, map_cons, sum_cons, hkeys, hstep, hzero, if_pos rfl]
    omega

theorem lookup_insert_eq (t : IDSTable) (key k : String) (ids : IDS) :
    (t.insert key ids).lookup k = if k = key then some ids else t.lookup k := by
  split_ifs with heq
  · subst heq
    exact AList.lookup_insert t
  · exact AList.lookup_insert_ne heq

theorem counted_insert (h : Counted tr x) (hkey : e.key? = some key)
    (hcount : ids.packetCount = UInt32.ofNat (received key tr + 1))
    (htable : x'.tableIDS = x.tableIDS.insert key ids)
    (hpackets : x'.packetCount = x.packetCount + 1) : Counted (⟨x, e, out⟩ :: tr) x' := by
  have hown : received key (⟨x, e, out⟩ :: tr) = received key tr + 1 := by simp [received, hkey]
  have hother : ∀ k, k ≠ key → received k (⟨x, e, out⟩ :: tr) = received k tr := by
    intro k hne
    simp [received, hkey, Ne.symm hne]
  refine ⟨?_, ?_, ?_⟩
  · intro k ids' hlookup
    rw [htable, lookup_insert_eq] at hlookup
    split_ifs at hlookup with heq
    · cases hlookup
      rw [heq, hown, hcount]
    · rw [hother k heq]
      exact h.counts k ids' hlookup
  · intro k hnone
    rw [htable, lookup_insert_eq] at hnone
    split at hnone
    · cases hnone
    · rename_i hne
      rw [hother k hne]
      exact h.unknown k hnone
  · rw [htable, hpackets]
    exact sum_received_insert h hkey

theorem counted_handled (h : Counted tr x) (hhandled : Handled x x' e out) :
    Counted (⟨x, e, out⟩ :: tr) x' := by
  cases hhandled with
  | passes hkey htable hcount _ =>
    have hsame : ∀ k, received k (⟨x, e, out⟩ :: tr) = received k tr := by
      simp [received, hkey]
    refine ⟨?_, ?_, ?_⟩
    · simpa only [htable, hsame] using h.counts
    · simpa only [htable, hsame] using h.unknown
    · simpa only [htable, hsame, hcount] using h.sum
  | first hkey hnew htable hcount _ =>
    refine counted_insert h hkey ?_ htable hcount
    rw [h.unknown _ hnew]
    rfl
  | again hkey hold htable hcount _ | publishes hkey hold _ htable hcount _ _ _ =>
    refine counted_insert h hkey ?_ htable hcount
    rw [h.counts _ _ hold]
    exact (UInt32.ofNat_add _ _).symm

theorem latched_insert (h : Latched tr x) (hquiet : out.filterMap Action.victim? = [])
    (hseen : ∀ old, x.tableIDS.lookup key = some old → ids.seen = old.seen)
    (htable : x'.tableIDS = x.tableIDS.insert key ids) : Latched (⟨x, e, out⟩ :: tr) x' := by
  have hsame : published (⟨x, e, out⟩ :: tr) = published tr := by
    rw [published, flatMap_cons, hquiet]
    rfl
  refine ⟨?_, hsame ▸ h.once⟩
  rw [hsame]
  intro k hk
  obtain ⟨old, hold, hyes⟩ := h.seen k hk
  rw [htable, lookup_insert_eq]
  split_ifs with heq
  · subst heq
    exact ⟨ids, rfl, (hseen old hold).trans hyes⟩
  · exact ⟨old, hold, hyes⟩

theorem latched_handled (h : Latched tr x) (hhandled : Handled x x' e out) :
    Latched (⟨x, e, out⟩ :: tr) x' := by
  cases hhandled with
  | passes _ htable _ hquiet =>
    have hsame : published (⟨x, e, out⟩ :: tr) = published tr := by
      rw [published, flatMap_cons, hquiet]
      rfl
    refine ⟨?_, hsame ▸ h.once⟩
    rw [hsame, htable]
    exact h.seen
  | first _ hnew htable _ hquiet =>
    refine latched_insert h hquiet (fun old hold => ?_) htable
    cases hnew.symm.trans hold
  | again _ hold htable _ hquiet =>
    refine latched_insert h hquiet (fun old hold' => ?_) htable
    cases hold.symm.trans hold'
    rfl
  | @publishes key ids _ hold hunseen htable _ _ _ hout =>
    have hcons : published (⟨x, e, out⟩ :: tr) = key :: published tr := by
      rw [published, flatMap_cons, hout]
      rfl
    have hnew : key ∉ published tr := by
      intro hmem
      obtain ⟨old, hold', hyes⟩ := h.seen key hmem
      cases hold.symm.trans hold'
      exact Bool.noConfusion (hunseen.symm.trans hyes)
    refine ⟨?_, by rw [hcons]; exact nodup_cons.mpr ⟨hnew, h.once⟩⟩
    rw [hcons]
    intro k hk
    rw [htable, lookup_insert_eq]
    split_ifs with hne
    · exact ⟨_, rfl, rfl⟩
    · exact h.seen k ((mem_cons.mp hk).resolve_left hne)

end Datagram

/-! ## Runs -/

section Runs

variable {tr : Trace} {x : IDSModule}

theorem counted_run (h : Run step .initial tr x) : Counted tr x := by
  refine h.invariant ?_ fun _ _ _ _ _ hcounted hstep =>
    counted_handled hcounted (step_handled hstep)
  exact ⟨fun key ids hlookup => (nomatch hlookup), fun _ _ => rfl, rfl⟩

theorem latched_run (h : Run step .initial tr x) : Latched tr x := by
  refine h.invariant ?_ fun _ _ _ _ _ hlatched hstep =>
    latched_handled hlatched (step_handled hstep)
  exact ⟨fun key hkey => (not_mem_nil hkey).elim, nodup_nil⟩

theorem total_eq (h : Counted tr x) :
    x.tableIDS.total = (x.tableIDS.keys.map fun key => received key tr % 4294967296).sum := by
  rw [IDSTable.total, AList.keys, keys, map_map]
  refine congrArg sum (map_congr_left fun e he => ?_)
  have hlookup : x.tableIDS.lookup e.1 = some e.2 := AList.mem_lookup_iff.mpr he
  rw [h.counts e.1 e.2 hlookup, UInt32.toNat_ofNat']
  rfl

theorem add_le_sum_map {κ : Type} [DecidableEq κ] {keys : List κ} {k k' : κ} (f : κ → Nat)
    (hk : k ∈ keys) (hk' : k' ∈ keys) (hne : k' ≠ k) : f k + f k' ≤ (keys.map f).sum := by
  rw [((perm_cons_erase hk).map f).sum_eq, map_cons, sum_cons]
  refine Nat.add_le_add_left ?_ _
  exact le_sum_of_mem (mem_map_of_mem ((mem_erase_of_ne hne).mpr hk'))

theorem lt_of_prob {ids : IDS} {packetCount : Nat} (h : prob ids packetCount > 7 / 10) :
    7 * packetCount < 10 * ids.packetCount.toNat := by
  rcases Nat.eq_zero_or_pos packetCount with rfl | hpos
  · rw [gt_iff_lt, prob, Nat.cast_zero, div_zero] at h
    exact absurd h (by decide +kernel)
  · have hpos' : (0 : Rat) < packetCount := Nat.cast_pos.mpr hpos
    rw [gt_iff_lt, prob, div_lt_div_iff₀ (by decide) hpos', mul_comm _ (10 : Rat)] at h
    exact_mod_cast h

theorem prob_unique (h : Counted tr x) {key key' : String} {ids ids' : IDS}
    (hlookup : x.tableIDS.lookup key = some ids) (hlookup' : x.tableIDS.lookup key' = some ids')
    (hshare : prob ids x.packetCount > 7 / 10) (hshare' : prob ids' x.packetCount > 7 / 10) :
    key = key' := by
  by_contra hne
  have hmem {k : String} {v : IDS} (hk : x.tableIDS.lookup k = some v) : k ∈ x.tableIDS.keys := by
    rw [← AList.mem_keys, ← AList.lookup_isSome, hk]
    rfl
  have hle {k : String} {v : IDS} (hk : x.tableIDS.lookup k = some v) :
      v.packetCount.toNat ≤ received k tr := by
    rw [h.counts k v hk, UInt32.toNat_ofNat']
    exact Nat.mod_le _ _
  have hsum := add_le_sum_map (received · tr) (hmem hlookup') (hmem hlookup) hne
  rw [h.sum] at hsum
  have hmore := lt_of_prob hshare
  have hmore' := lt_of_prob hshare'
  have hless := hle hlookup
  have hless' := hle hlookup'
  omega

/-- The counts add up as long as none wraps; at most one destination has more than 7/10, and each
is published once at most. -/
theorem victims_published_once (h : Run step .initial tr x) :
    ((∀ key, received key tr < 4294967296) → x.tableIDS.total = x.packetCount) ∧
      (∀ key key' ids ids', x.tableIDS.lookup key = some ids →
        x.tableIDS.lookup key' = some ids' → prob ids x.packetCount > 7 / 10 →
        prob ids' x.packetCount > 7 / 10 → key = key') ∧
      (published tr).Nodup ∧
      ∀ later st earlier key, tr = later ++ st :: earlier →
        key ∈ st.out.filterMap Action.victim? →
        st.pre.report = true ∧ ∃ x' ids, step st.pre st.event = .ok (x', st.out) ∧
          x'.tableIDS.lookup key = some ids ∧ prob ids x'.packetCount > 7 / 10 := by
  have hcounted := counted_run h
  refine ⟨fun hfew => ?_, fun _ _ _ _ => prob_unique hcounted, (latched_run h).once, ?_⟩
  · rw [total_eq hcounted, ← hcounted.sum]
    exact congrArg sum (map_congr_left fun key _ => Nat.mod_eq_of_lt (hfew key))
  · rintro later st earlier key rfl hkey
    obtain ⟨x', -, hstep, -⟩ := h.split
    cases step_handled hstep with
    | passes _ _ _ hquiet | first _ _ _ _ hquiet | again _ _ _ _ hquiet =>
      rw [hquiet] at hkey
      cases hkey
    | publishes _ _ _ htable _ hreport hshare hout =>
      rw [hout, mem_singleton] at hkey
      subst hkey
      refine ⟨hreport, x', _, hstep, ?_, hshare⟩
      rw [htable]
      exact AList.lookup_insert _

end Runs

theorem received_le_length (key : String) (tr : Trace) : received key tr ≤ tr.length := by
  induction tr with
  | nil => exact le_refl 0
  | cons st tr ih =>
    rw [received, length_cons]
    split <;> omega

def datagramTo (address : IPAddress) : Message :=
  { id := 0
    name := "data"
    body := .datagram
      { version := 4, srcAddress := ⟨1⟩, destAddress := address, transportProtocol := 17
        byteLength := 100, encapsulated := none } }

def fourDatagrams : List Event :=
  .setReport "on" :: List.replicate 4 (.message (datagramTo ⟨2⟩))

theorem victims_published_once_four :
    published (replayTrace step .initial fourDatagrams) = ["0.0.0.2"] ∧
      (replayState step .initial fourDatagrams).tableIDS.total =
        (replayState step .initial fourDatagrams).packetCount := by
  have hrun : replays step .initial fourDatagrams = true := by decide +kernel
  have hlength : (replayTrace step .initial fourDatagrams).length = 5 := by decide +kernel
  refine ⟨by decide +kernel, (victims_published_once (run_of_replays hrun)).1 fun key => ?_⟩
  have hle := received_le_length key (replayTrace step .initial fourDatagrams)
  omega

/-! ## The counts go back to zero -/

theorem exists_run_to (n : Nat) :
    ∃ tr x, Run step .initial tr x ∧ x.packetCount = n ∧
      ∀ key, received key tr = if key = "0.0.0.2" then n else 0 := by
  have hkey : (Event.message (datagramTo ⟨2⟩)).key? = some "0.0.0.2" := by decide +kernel
  induction n with
  | zero => exact ⟨[], _, .start, rfl, fun key => (ite_self 0).symm⟩
  | succ n ih =>
    obtain ⟨tr, x, hrun, hcount, hreceived⟩ := ih
    -- the text of the address fits into the array
    obtain ⟨x', out, hstep⟩ := step_datagram_ok x (m := datagramTo ⟨2⟩) rfl (by decide +kernel)
    refine ⟨_, x', hrun.next hstep, ?_, fun key => ?_⟩
    · rw [(step_handled hstep).packetCount hkey, hcount]
    · rw [received, hkey, hreceived]
      by_cases heq : key = "0.0.0.2"
      · rw [if_pos heq, if_pos (congrArg some heq.symm), if_pos heq]
      · rw [if_neg heq, if_neg fun h => heq (Option.some.inj h).symm, if_neg heq]

theorem counts_wrap :
    ∃ tr x, Run step .initial tr x ∧ x.packetCount = 4294967296 ∧ x.tableIDS.total = 0 := by
  obtain ⟨tr, x, hrun, hcount, hreceived⟩ := exists_run_to 4294967296
  refine ⟨tr, x, hrun, hcount, ?_⟩
  rw [total_eq (counted_run hrun)]
  refine sum_eq_zero fun n hn => ?_
  obtain ⟨key, -, rfl⟩ := mem_map.mp hn
  rw [hreceived]
  split <;> rfl

end WormsAttack.Ids.Resilience
