/-
  The detectors of the hosts.

  Sources: distack-1.2.3-dev/src/modules/attackdetection/ModuleAnalyzerProtocolAnomaly.cpp,
  `frameCall`.

  For an address that is not in the trie detectors are created, but those for the destination
  are inserted under the source as well.

  The detectors are numbered in the order in which they are created; the trie has the numbers,
  as the module's has pointers.
-/
import WormsAttack.Distack.ProtocolAnomaly

namespace WormsAttack.Distack.ProtocolAnomaly

open Foundation PatriciaTrie SubnetCounterTree List Function

structure Hosts where
  hostAnomalies : Memory 4 (List Nat)
  created : List Anomaly

namespace Hosts

def new : Hosts where
  hostAnomalies := (Memory.empty.create defaultAddr []).2
  created := []

/-- What is done for one of the two addresses, of which `node` is what was found. -/
def update (s : Hosts) (group : AnomalyType) (manual : List Char) (ip : IpPacket)
    (incoming : Bool) : Option Nat → Except Stop Hosts
  | some node => do
      let anomalies := (← s.hostAnomalies.read node).data
      .ok { s with created := s.created.mapIdx fun i a =>
        if i ∈ anomalies then ip.layers.foldl (Anomaly.see incoming) a else a }
  | none => do
      let anomalies := instanceAnomalies group manual
      let numbers := List.range' s.created.length anomalies.length
      let (_, hostAnomalies) ← s.hostAnomalies.insert 0 ip.header.sourceip numbers
      .ok { hostAnomalies, created := s.created ++ anomalies }

def frameCall (s : Hosts) (group : AnomalyType) (manual : List Char) (layers : List Layer) :
    Except Stop Hosts :=
  if group = .unknown ∧ manual = [] then .ok s
  else
    match IpPacket.first? layers with
    | none => .ok s
    | some ip => do
        let sourceNode ← s.hostAnomalies.lookupNode 0 ip.header.sourceip
        let destNode ← s.hostAnomalies.lookupNode 0 ip.header.destip
        let s ← s.update group manual ip false sourceNode
        s.update group manual ip true destNode

/-- The frames from the start on, each with the group that is known then. -/
def run (frames : List (AnomalyType × List Layer)) : Except Stop Hosts :=
  frames.foldlM (fun s frame => s.frameCall frame.1 [] frame.2) new

def Owned (s : Hosts) : Prop :=
  ∃ items, s.hostAnomalies.items 0 = .ok items ∧
    ∀ i < s.created.length, ∃! entry, entry ∈ items ∧ i ∈ entry.2

def Bookkept (s : Hosts) (ip : IpPacket) : Prop :=
  s.hostAnomalies.existsKey 0 ip.header.sourceip = .ok true ∧
    s.hostAnomalies.existsKey 0 ip.header.destip = .ok true ∧ s.Owned

/-! ## The entries as a map -/

/-- The address is found; that of the head always is. -/
def Known (c : Contents 4 (List Nat)) (addr : IpAddr) : Prop := addr = defaultAddr ∨ c addr ≠ none

def OwnedBelow (n : Nat) (c : Contents 4 (List Nat)) : Prop :=
  ∀ i < n, ∃! entry : IpAddr × List Nat, c entry.1 = some entry.2 ∧ i ∈ entry.2

/-- The trie is the map `c`, and its entries have numbers of detectors. -/
structure Kept (s : Hosts) (c : Contents 4 (List Nat)) : Prop where
  holds : ∃ t, Holds s.hostAnomalies 0 defaultAddr c t
  lt : ∀ addr numbers, c addr = some numbers → ∀ i ∈ numbers, i < s.created.length

variable {s : Hosts} {c : Contents 4 (List Nat)}

theorem Kept.owned_iff (h : s.Kept c) : s.Owned ↔ OwnedBelow s.created.length c := by
  obtain ⟨t, ht⟩ := h.holds
  obtain ⟨items, hitems, -, hmem⟩ := ht.items
  constructor
  · rintro ⟨items', hitems', howned⟩ i hi
    obtain rfl := Except.ok.inj (hitems.symm.trans hitems')
    simpa only [hmem] using howned i hi
  · intro howned
    refine ⟨items, hitems, fun i hi => ?_⟩
    simpa only [hmem] using howned i hi

theorem Kept.existsKey_iff (h : s.Kept c) (addr : IpAddr) :
    s.hostAnomalies.existsKey 0 addr = .ok true ↔ Known c addr := by
  obtain ⟨t, ht⟩ := h.holds
  exact ht.existsKey_iff addr

theorem Kept.lookupNode (h : s.Kept c) (addr : IpAddr) :
    (Known c addr ∧ ∃ a node, s.hostAnomalies.cells a = some node ∧
      s.hostAnomalies.lookupNode 0 addr = .ok (some a)) ∨
      (¬ Known c addr ∧ s.hostAnomalies.lookupNode 0 addr = .ok none) := by
  obtain ⟨t, ht⟩ := h.holds
  obtain ⟨found, hfound, hiff⟩ := ht.found_iff addr
  have hok := ht.represents.hangs.lookupNode hfound
  by_cases hknown : Known c addr
  · rw [if_pos (hiff.mpr hknown)] at hok
    exact .inl ⟨hknown, _, found, hfound, hok⟩
  · rw [if_neg fun hkey => hknown (hiff.mp hkey)] at hok
    exact .inr ⟨hknown, hok⟩

/-! ## One address -/

section Address

variable (group : AnomalyType) {ip : IpPacket}

theorem Kept.update_found (h : s.Kept c) {a : Nat} {node : Node 4 (List Nat)}
    (hnode : s.hostAnomalies.cells a = some node) (ip : IpPacket) (incoming : Bool) :
    ∃ s', s.update group [] ip incoming (some a) = .ok s' ∧ s'.Kept c ∧
      s'.created.length = s.created.length ∧ s'.hostAnomalies = s.hostAnomalies := by
  have hok : s.update group [] ip incoming (some a) = .ok { s with
      created := s.created.mapIdx fun i a =>
        if i ∈ node.data then ip.layers.foldl (Anomaly.see incoming) a else a } := by
    change (s.hostAnomalies.read a >>= _) = _
    rw [Memory.read_eq hnode]
    rfl
  refine ⟨_, hok, ⟨h.holds, ?_⟩, length_mapIdx, rfl⟩
  rw [length_mapIdx]
  exact h.lt

theorem Kept.update_refused (h : s.Kept c) (hknown : Known c ip.header.sourceip) (incoming : Bool) :
    ∃ s', s.update group [] ip incoming none = .ok s' ∧ s'.Kept c ∧
      s'.created.length = s.created.length + (instanceAnomalies group []).length := by
  obtain ⟨t, ht⟩ := h.holds
  refine ⟨⟨s.hostAnomalies, s.created ++ instanceAnomalies group []⟩, ?_, ⟨h.holds, ?_⟩,
    length_append⟩
  · change (s.hostAnomalies.insert 0 ip.header.sourceip _ >>= _) = _
    rw [ht.insert_of_found hknown]
    rfl
  · intro addr numbers haddr i hi
    rw [length_append]
    exact Nat.lt_add_right _ (h.lt addr numbers haddr i hi)

theorem Kept.update_new (h : s.Kept c) (hnew : ¬ Known c ip.header.sourceip) (incoming : Bool) :
    ∃ s', s.update group [] ip incoming none = .ok s' ∧
      s'.Kept (Function.update c ip.header.sourceip
        (some (range' s.created.length (instanceAnomalies group []).length))) ∧
      s'.created.length = s.created.length + (instanceAnomalies group []).length ∧
      ∀ a node, s.hostAnomalies.cells a = some node →
        ∃ node', s'.hostAnomalies.cells a = some node' := by
  obtain ⟨t, ht⟩ := h.holds
  obtain ⟨hne, hnone⟩ := not_or.mp hnew
  obtain ⟨m, t', hok, hkeyData, ht'⟩ := ht.insert_of_none hne (not_not.mp hnone)
    (range' s.created.length (instanceAnomalies group []).length)
  refine ⟨⟨m, s.created ++ instanceAnomalies group []⟩, ?_, ⟨⟨t', ht'⟩, ?_⟩, length_append, ?_⟩
  · change (s.hostAnomalies.insert 0 ip.header.sourceip _ >>= _) = _
    rw [hok]
    rfl
  · intro addr numbers haddr i hi
    rw [length_append]
    by_cases hsource : addr = ip.header.sourceip
    · rw [hsource, update_self, Option.some.injEq] at haddr
      rw [← haddr, mem_range'_1] at hi
      exact hi.2
    · rw [update_of_ne hsource] at haddr
      exact Nat.lt_add_right _ (h.lt addr numbers haddr i hi)
  · intro a node hnode
    have hsame : keyData m.cells a = some (node.key, node.data) := by
      rw [hkeyData, update_of_ne, keyData_eq hnode]
      rintro rfl
      rw [ht.represents.fresh _ (Nat.le_refl _)] at hnode
      cases hnode
    obtain ⟨node', hnode', -⟩ := Option.map_eq_some_iff.mp hsame
    exact ⟨node', hnode'⟩

end Address

theorem OwnedBelow.update_new {n len : Nat} (h : OwnedBelow n c)
    (hlt : ∀ addr numbers, c addr = some numbers → ∀ i ∈ numbers, i < n) {addr : IpAddr}
    (hnew : c addr = none) :
    OwnedBelow (n + len) (Function.update c addr (some (range' n len))) := by
  -- the old entries have the old numbers, the new one the new numbers
  have hentry : ∀ (entry : IpAddr × List Nat) (i : Nat),
      Function.update c addr (some (range' n len)) entry.1 = some entry.2 ∧ i ∈ entry.2 ↔
        if i < n then c entry.1 = some entry.2 ∧ i ∈ entry.2
        else entry = (addr, range' n len) ∧ i < n + len := by
    rintro ⟨key, numbers⟩ i
    by_cases hkey : key = addr
    · subst hkey
      rw [update_self, hnew, Option.some.injEq, Prod.mk.injEq]
      split_ifs with hi
      · refine iff_of_false ?_ And.left
        rintro ⟨rfl, hmem⟩
        exact absurd (mem_range'_1.mp hmem).1 (Nat.not_le_of_lt hi)
      · constructor
        · rintro ⟨rfl, hmem⟩
          exact ⟨⟨rfl, rfl⟩, (mem_range'_1.mp hmem).2⟩
        · rintro ⟨⟨-, rfl⟩, hlt⟩
          exact ⟨rfl, mem_range'_1.mpr ⟨Nat.le_of_not_lt hi, hlt⟩⟩
    · rw [update_of_ne hkey]
      split_ifs with hi
      · exact Iff.rfl
      · refine iff_of_false (fun hand => hi (hlt key numbers hand.1 i hand.2)) ?_
        exact fun hand => hkey (congrArg Prod.fst hand.1)
  intro i hi
  simp only [hentry]
  split_ifs with hold
  · exact h i hold
  · exact ⟨_, ⟨rfl, hi⟩, fun entry hentry => hentry.1⟩

/-! ## One frame -/

structure Entered (ip : IpPacket) (s s' : Hosts) (c c' : Contents 4 (List Nat)) : Prop where
  kept : s'.Kept c'
  known_iff : ∀ addr, Known c' addr ↔ Known c addr ∨ addr = ip.header.sourceip
  owned : Known c ip.header.destip → OwnedBelow s.created.length c →
    OwnedBelow s'.created.length c'
  lost : ¬ Known c ip.header.destip → ¬ OwnedBelow s'.created.length c'

variable {group : AnomalyType} {ip : IpPacket}

theorem instanceAnomalies_length_pos (h : group ≠ .unknown) :
    0 < (instanceAnomalies group []).length := by
  cases group with
  | unknown => exact absurd rfl h
  | dos | worm | all => decide

theorem Kept.source (h : s.Kept c) (group : AnomalyType) (ip : IpPacket) :
    ∃ node s' c', s.hostAnomalies.lookupNode 0 ip.header.sourceip = .ok node ∧
      s.update group [] ip false node = .ok s' ∧ s'.Kept c' ∧
      (∀ addr, Known c' addr ↔ Known c addr ∨ addr = ip.header.sourceip) ∧
      (OwnedBelow s.created.length c → OwnedBelow s'.created.length c') ∧
      ∀ a node, s.hostAnomalies.cells a = some node →
        ∃ node', s'.hostAnomalies.cells a = some node' := by
  rcases h.lookupNode ip.header.sourceip with ⟨hknown, a, node, hnode, hfound⟩ | ⟨hnew, hfound⟩
  · obtain ⟨s', hok, hkept, hlength, hsame⟩ := h.update_found group hnode ip false
    refine ⟨_, s', c, hfound, hok, hkept, fun addr => ?_, ?_, fun a node ha => ⟨node, ?_⟩⟩
    · rw [or_iff_left_of_imp]
      rintro rfl
      exact hknown
    · rw [hlength]
      exact id
    · rw [hsame, ha]
  · obtain ⟨s', hok, hkept, hlength, hcells⟩ := h.update_new group hnew false
    refine ⟨_, s', _, hfound, hok, hkept, fun addr => ?_, fun howned => ?_, hcells⟩
    · unfold Known
      by_cases haddr : addr = ip.header.sourceip
      · rw [haddr, Function.update_self]
        simp
      · rw [update_of_ne haddr, or_iff_left haddr]
    · rw [hlength]
      exact howned.update_new h.lt (not_not.mp (not_or.mp hnew).2)

theorem Kept.frameCall (h : s.Kept c) (hgroup : group ≠ .unknown) {layers : List Layer}
    (hip : IpPacket.first? layers = some ip) :
    ∃ s' c', s.frameCall group [] layers = .ok s' ∧ Entered ip s s' c c' := by
  obtain ⟨node, s₁, c₁, hfound, hok, h₁, hknown₁, howned₁, hcells⟩ :=
    h.source group ip
  have hframe : s.frameCall group [] layers = (s.hostAnomalies.lookupNode 0 ip.header.destip >>=
      fun destNode => s₁.update group [] ip true destNode) := by
    unfold Hosts.frameCall
    rw [if_neg fun hand => hgroup hand.1, hip]
    change (s.hostAnomalies.lookupNode 0 ip.header.sourceip >>= _) = _
    rw [hfound, ok_bind, hok]
    rfl
  rw [hframe]
  rcases h.lookupNode ip.header.destip with ⟨hknown, a, node, hnode, hdest⟩ | ⟨hnew, hdest⟩
  · obtain ⟨node', hnode'⟩ := hcells a node hnode
    obtain ⟨s', hok', hkept, hlength, -⟩ := h₁.update_found group hnode' ip true
    refine ⟨s', c₁, ?_, hkept, hknown₁, fun _ => ?_, fun hnot => absurd hknown hnot⟩
    · rw [hdest]
      exact hok'
    · rw [hlength]
      exact howned₁
  · -- the source is there now, so the detectors for the destination are in no entry
    have hsource : Known c₁ ip.header.sourceip := (hknown₁ _).mpr (.inr rfl)
    obtain ⟨s', hok', hkept, hlength⟩ := h₁.update_refused group hsource true
    refine ⟨s', c₁, ?_, hkept, hknown₁, fun hknown => absurd hknown hnew, fun _ howned => ?_⟩
    · rw [hdest]
      exact hok'
    · have hpos := instanceAnomalies_length_pos hgroup
      obtain ⟨entry, ⟨hentry, hmem⟩, -⟩ := howned s₁.created.length (by omega)
      exact Nat.lt_irrefl _ (h₁.lt entry.1 entry.2 hentry _ hmem)

/-! ## All frames -/

def sources (frames : List (AnomalyType × List Layer)) : List IpAddr :=
  frames.filterMap fun frame => (IpPacket.first? frame.2).map (·.header.sourceip)

/-- Every destination is that of the head or has been a source before. -/
def DestsSeen (frames : List (AnomalyType × List Layer)) : Prop :=
  ∀ before frame, before ++ [frame] <+: frames → ∀ ip, IpPacket.first? frame.2 = some ip →
    ip.header.destip = defaultAddr ∨ ip.header.destip ∈ sources before

variable {frames : List (AnomalyType × List Layer)} {layers : List Layer}

structure Ran (frames : List (AnomalyType × List Layer)) (s : Hosts)
    (c : Contents 4 (List Nat)) : Prop where
  run : run frames = .ok s
  kept : s.Kept c
  known_iff : ∀ addr, Known c addr ↔ addr = defaultAddr ∨ addr ∈ sources frames
  owned : DestsSeen frames → OwnedBelow s.created.length c

theorem ran_nil : Ran [] new fun _ => none where
  run := rfl
  kept := ⟨⟨_, holds_create defaultAddr []⟩, fun _ _ h => absurd h (Option.some_ne_none _).symm⟩
  known_iff addr := by simp [Known, sources]
  owned _ i hi := absurd hi (Nat.not_lt_zero i)

theorem Ran.frame (h : Ran frames s c) (hgroup : group ≠ .unknown)
    (hip : IpPacket.first? layers = some ip) :
    ∃ s' c', Ran (frames ++ [(group, layers)]) s' c' ∧ Entered ip s s' c c' := by
  obtain ⟨s', c', hok, hentered⟩ := h.kept.frameCall hgroup hip
  refine ⟨s', c', ⟨?_, hentered.kept, fun addr => ?_, fun hseen => ?_⟩, hentered⟩
  · exact foldlM_concat_eq_ok.mpr ⟨s, h.run, hok⟩
  · rw [hentered.known_iff, h.known_iff, sources, sources, filterMap_append]
    simp [hip, or_assoc]
  · obtain ⟨hseen, hlast⟩ := forall_prefix_concat.mp hseen
    apply hentered.owned
    · exact (h.known_iff _).mpr (hlast ip hip)
    · exact h.owned hseen

theorem exists_ran (hknown : ∀ frame ∈ frames, frame.1 ≠ .unknown) : ∃ s c, Ran frames s c := by
  induction frames using reverseRecOn with
  | nil => exact ⟨_, _, ran_nil⟩
  | append_singleton frames frame ih =>
    obtain ⟨hknown, hlast⟩ := forall_mem_append.mp hknown
    obtain ⟨s, c, h⟩ := ih hknown
    have hgroup := hlast frame mem_cons_self
    cases hip : IpPacket.first? frame.2 with
    | some ip =>
      obtain ⟨s', c', h', -⟩ := h.frame hgroup hip
      exact ⟨s', c', h'⟩
    | none =>
      have hframe : s.frameCall frame.1 [] frame.2 = .ok s := by
        unfold Hosts.frameCall
        rw [if_neg fun hand => hgroup hand.1, hip]
      refine ⟨s, c, ⟨?_, h.kept, ?_, fun hseen => h.owned (forall_prefix_concat.mp hseen).1⟩⟩
      · exact foldlM_concat_eq_ok.mpr ⟨s, h.run, hframe⟩
      · simpa [hip, sources] using h.known_iff

/-- After each frame its addresses have entries and each detector is in one, if and only if each
destination was the source of an earlier frame or is the address of the head. -/
theorem bookkept_iff {frames : List (AnomalyType × List Layer)}
    (hknown : ∀ frame ∈ frames, frame.1 ≠ .unknown) :
    (∀ before frame, before ++ [frame] <+: frames → ∀ ip, IpPacket.first? frame.2 = some ip →
        ∃ s, run (before ++ [frame]) = .ok s ∧ s.Bookkept ip) ↔ DestsSeen frames := by
  have hstep : ∀ before frame, before ++ [frame] <+: frames →
      ∀ ip, IpPacket.first? frame.2 = some ip → ∃ s c s' c', Ran before s c ∧
        Ran (before ++ [frame]) s' c' ∧ Entered ip s s' c c' := by
    intro before frame hpre ip hip
    obtain ⟨hbefore, hlast⟩ :=
      forall_mem_append.mp fun f hf => hknown f (hpre.subset hf)
    obtain ⟨s, c, h⟩ := exists_ran hbefore
    obtain ⟨s', c', h', hentered⟩ := h.frame (hlast frame mem_cons_self) hip
    exact ⟨s, c, s', c', h, h', hentered⟩
  constructor
  · intro hall before frame hpre ip hip
    obtain ⟨s, c, s', c', h, h', hentered⟩ := hstep before frame hpre ip hip
    obtain ⟨s'', hrun, hbook⟩ := hall before frame hpre ip hip
    obtain rfl := Except.ok.inj (h'.run.symm.trans hrun)
    rw [← h.known_iff]
    by_contra hnew
    exact hentered.lost hnew (h'.kept.owned_iff.mp hbook.2.2)
  · intro hseen before frame hpre ip hip
    obtain ⟨s, c, s', c', h, h', hentered⟩ := hstep before frame hpre ip hip
    have hdest := (h.known_iff _).mpr (hseen before frame hpre ip hip)
    refine ⟨s', h'.run, ?_, ?_, ?_⟩
    · exact (h'.kept.existsKey_iff _).mpr ((hentered.known_iff _).mpr (.inr rfl))
    · exact (h'.kept.existsKey_iff _).mpr ((hentered.known_iff _).mpr (.inl hdest))
    · apply h'.kept.owned_iff.mpr
      apply h'.owned
      exact fun before' frame' hpre' => hseen before' frame' (hpre'.trans hpre)

def frameOf (sourceip destip : IpAddr) : AnomalyType × List Layer :=
  (.dos, [{ protocol := .ip, sourceip, destip }])

theorem bookkept_iff_answer :
    ∃ s, run ([frameOf #v[10, 0, 0, 1] defaultAddr] ++ [frameOf #v[10, 0, 0, 2] #v[10, 0, 0, 1]])
        = .ok s ∧
      s.Bookkept ⟨{ protocol := .ip, sourceip := #v[10, 0, 0, 2], destip := #v[10, 0, 0, 1] },
        [], rfl⟩ := by
  have hfirst : DestsSeen ([] ++ [frameOf #v[10, 0, 0, 1] defaultAddr]) := by
    refine forall_prefix_concat.mpr ⟨forall_prefix_nil, fun ip hip => ?_⟩
    obtain rfl := Option.some.inj hip
    exact .inl rfl
  have hboth : DestsSeen ([frameOf #v[10, 0, 0, 1] defaultAddr] ++
      [frameOf #v[10, 0, 0, 2] #v[10, 0, 0, 1]]) := by
    refine forall_prefix_concat.mpr ⟨hfirst, fun ip hip => ?_⟩
    obtain rfl := Option.some.inj hip
    exact .inr mem_cons_self
  exact (bookkept_iff (by decide)).mpr hboth _ _ prefix_rfl _ rfl

/-- After a frame between two hosts there are twenty detectors, but only the source has an entry,
with ten of them. -/
theorem destination_not_entered :
    (run [frameOf #v[10, 0, 0, 1] #v[10, 0, 0, 2]] >>= fun s =>
      s.hostAnomalies.existsKey 0 #v[10, 0, 0, 2] >>= fun found =>
      s.hostAnomalies.items 0 >>= fun items => .ok (found, s.created.length, items)) =
      .ok (false, 20, [(#v[10, 0, 0, 1], List.range 10)]) := by
  decide +kernel

end Hosts

end WormsAttack.Distack.ProtocolAnomaly
