/-
  The detectors of protocol anomalies.

  Sources: distack-1.2.3-dev/src/modules/attackdetection/ModuleAnalyzerProtocolAnomaly.h and
  ModuleAnalyzerProtocolAnomaly.cpp, `Helper::split` and `Helper::trim`.

  NUMBERS.  The counters are `unsigned int`, the factors exact rationals.
-/
import Mathlib.Algebra.Order.Ring.Rat
import Mathlib.Tactic.Linarith
import WormsAttack.Distack.Filters

namespace WormsAttack.Distack.ProtocolAnomaly

open List

inductive AnomalyType
  | unknown
  | dos
  | worm
  | all
  deriving DecidableEq

inductive AnomalyKind
  | tcpCount
  | tcpInSynack
  | tcpOutSynack
  | tcpFin
  | tcpRst
  | udpEcho
  | icmpRequestReply
  | icmpReplyRequest
  | icmpPortUnreachable
  | icmpErrorMessage
  | icmpHostUnreachable
  deriving DecidableEq

namespace AnomalyKind

/-- The protocol of the packets that are analyzed; `none` stands for all. -/
def protocol : AnomalyKind → Protocol
  | .tcpCount | .tcpInSynack | .tcpOutSynack | .tcpFin | .tcpRst => .tcp
  | .udpEcho => .udp
  | .icmpRequestReply | .icmpReplyRequest => .icmp
  | .icmpPortUnreachable | .icmpErrorMessage | .icmpHostUnreachable => .none

def acceptLeft : AnomalyKind → Layer → Bool
  | .tcpCount, _ => true
  | .tcpInSynack, pkt => pkt.syn && pkt.ack
  | .tcpOutSynack, pkt => pkt.syn && !pkt.ack
  | .tcpFin, pkt => pkt.fin
  | .tcpRst, pkt => pkt.rst
  | .udpEcho, pkt => pkt.destport == 7
  | .icmpRequestReply, pkt => pkt.type == 0
  | .icmpReplyRequest, pkt => pkt.type == 8
  | .icmpPortUnreachable, pkt => pkt.protocol == .icmp && pkt.type == 3 && pkt.code == 3
  | .icmpErrorMessage, pkt => pkt.protocol == .icmp &&
      (pkt.type == 3 || pkt.type == 11 || pkt.type == 12 || pkt.type == 31)
  | .icmpHostUnreachable, pkt => pkt.protocol == .icmp && (pkt.type == 3 || pkt.code == 1)

def acceptRight : AnomalyKind → Layer → Bool
  | .tcpCount, _ => true
  | .tcpInSynack, pkt => pkt.syn && !pkt.ack
  | .tcpOutSynack, pkt => pkt.syn && pkt.ack
  | .tcpFin, pkt => pkt.fin
  | .tcpRst, _ => true
  | .udpEcho, pkt => pkt.sourceport == 7
  | .icmpRequestReply, pkt => pkt.type == 8
  | .icmpReplyRequest, pkt => pkt.type == 0
  | .icmpPortUnreachable, pkt => pkt.protocol == .udp
  | .icmpErrorMessage, pkt => pkt.protocol == .tcp || pkt.protocol == .udp
  | .icmpHostUnreachable, pkt => pkt.protocol == .tcp || pkt.protocol == .udp

/-- `getLambda`. -/
def lambda : AnomalyKind → Rat
  | .tcpRst => 3 / 2
  | .icmpPortUnreachable => 1 / 2
  | _ => 21 / 20

end AnomalyKind

structure Anomaly where
  kind : AnomalyKind
  anomGroup : AnomalyType
  countLeft : UInt32
  countRight : UInt32
  deriving DecidableEq

/-- The constructors; three of them are given a group. -/
def AnomalyKind.create (kind : AnomalyKind) (group : AnomalyType) : Anomaly where
  kind := kind
  anomGroup :=
    match kind with
    | .tcpRst | .icmpPortUnreachable | .icmpErrorMessage => group
    | .icmpHostUnreachable => .worm
    | _ => .dos
  countLeft := 0
  countRight := 0

namespace Anomaly

def balanced (a : Anomaly) : Bool :=
  if a.countLeft < 100 ∨ a.countRight < 100 then true
  else !decide (a.kind.lambda * a.countRight.toNat < a.countLeft.toNat)

def count (a : Anomaly) (left right : Bool) : Anomaly :=
  { a with
    countLeft := if left then a.countLeft + 1 else a.countLeft
    countRight := if right then a.countRight + 1 else a.countRight }

def analyze (a : Anomaly) (pkt : Layer) (incoming : Bool) : Anomaly :=
  match a.anomGroup with
  | .dos => a.count (incoming && a.kind.acceptLeft pkt) (!incoming && a.kind.acceptRight pkt)
  | .worm => a.count (a.kind.acceptLeft pkt) (a.kind.acceptRight pkt)
  | _ => a

def see (incoming : Bool) (a : Anomaly) (pkt : Layer) : Anomaly :=
  if a.kind.protocol = .none ∨ a.kind.protocol = pkt.protocol then a.analyze pkt incoming else a

end Anomaly

structure IpPacket where
  header : Layer
  payload : List Layer
  isIp : header.protocol = .ip

namespace IpPacket

def layers (p : IpPacket) : List Layer := p.header :: p.payload

def first? : List Layer → Option IpPacket
  | [] => none
  | layer :: layers =>
      if h : layer.protocol = .ip then some ⟨layer, layers, h⟩ else first? layers

end IpPacket

def updateAnomalies (p : IpPacket) (incoming : Bool) (anomalies : List Anomaly) : List Anomaly :=
  p.layers.foldl (fun anomalies pkt => anomalies.map (·.see incoming pkt)) anomalies

/-! ## Creating the detectors -/

def anomalyNameValues : List (String × AnomalyKind) :=
  [("ANOMALY_KIND_TCP_COUNT_ANOMALY", .tcpCount),
    ("ANOMALY_KIND_TCP_IN_SYNACK_ANOMALY", .tcpInSynack),
    ("ANOMALY_KIND_TCP_OUT_SYNACK_ANOMALY", .tcpOutSynack),
    ("ANOMALY_KIND_TCP_FIN_ANOMALY", .tcpFin),
    ("ANOMALY_KIND_TCP_RST_ANOMALY", .tcpRst),
    ("ANOMALY_KIND_UDP_ECHO_ANOMALY", .udpEcho),
    ("ANOMALY_KIND_ICMP_REQUEST_REPLY_ANOMALY", .icmpRequestReply),
    ("ANOMALY_KIND_ICMP_REPLY_REQUEST_ANOMALY", .icmpReplyRequest),
    ("ANOMALY_KIND_ICMP_PORT_UNREACHABLE_ANOMALY", .icmpPortUnreachable),
    ("ANOMALY_KIND_ICMP_ERROR_MESSAGE_ANOMALY", .icmpErrorMessage),
    ("ANOMALY_KIND_ICMP_HOST_UNREACHABLE_ANOMALY", .icmpHostUnreachable)]

def trim (text : List Char) : List Char :=
  let blank : Char → Bool := fun c => c ∈ [' ', '\n', '\r', '\t']
  ((text.dropWhile blank).reverse.dropWhile blank).reverse

/-- `Helper::split`, at commas. -/
def split (text : List Char) : List (List Char) :=
  ((text.splitOn ',').map trim).filter (· ≠ [])

/-- One entry of the configured list: a name, and perhaps a group in parentheses. -/
def instanceAnomaly (content : List Char) : Option Anomaly :=
  let anomName := content.takeWhile (· ≠ '(')
  let anomType := ((content.dropWhile (· ≠ '(')).drop 1).dropLast
  let group : AnomalyType :=
    if anomType = "DDOS".toList then .dos
    else if anomType = "WORM".toList then .worm
    else .all
  (anomalyNameValues.lookup (String.ofList anomName)).map (·.create group)

def instanceAnomalies (group : AnomalyType) (manualAnomalies : List Char) : List Anomaly :=
  if group = .unknown ↔ manualAnomalies = [] then []
  else
    let dos := [.tcpCount, .tcpInSynack, .tcpOutSynack, .tcpFin, .tcpRst, .udpEcho,
      .icmpRequestReply, .icmpReplyRequest, .icmpPortUnreachable, .icmpErrorMessage]
    let worm := [.tcpRst, .icmpPortUnreachable, .icmpErrorMessage, .icmpHostUnreachable]
    (if group = .dos ∨ group = .all then dos.map (AnomalyKind.create · .dos) else []) ++
      (if group = .worm ∨ group = .all then worm.map (AnomalyKind.create · .worm) else []) ++
      (split manualAnomalies).filterMap instanceAnomaly

/-! ## Sequences of packets -/

def updateAll (packets : List (IpPacket × Bool)) (anomalies : List Anomaly) : List Anomaly :=
  packets.foldl (fun anomalies p => updateAnomalies p.1 p.2 anomalies) anomalies

def Anomaly.after (a : Anomaly) (packets : List (IpPacket × Bool)) : Anomaly :=
  packets.foldl (fun a p => p.1.layers.foldl (see p.2) a) a

theorem foldl_map {α β : Type} (f : β → α → β) (xs : List α) (l : List β) :
    xs.foldl (fun l x => l.map (f · x)) l = l.map fun b => xs.foldl f b := by
  induction xs generalizing l with
  | nil => simp
  | cons x xs ih =>
    rw [foldl_cons, ih, map_map]
    rfl

theorem updateAll_eq (packets : List (IpPacket × Bool)) (anomalies : List Anomaly) :
    updateAll packets anomalies = anomalies.map (·.after packets) := by
  unfold updateAll updateAnomalies
  simp only [foldl_map]
  rfl

namespace Anomaly

variable {a : Anomaly} {kind : AnomalyKind} {group : AnomalyType}

theorem after_of_all (h : a.anomGroup = .all) (packets : List (IpPacket × Bool)) :
    a.after packets = a := by
  have hsee : ∀ incoming pkt, a.see incoming pkt = a := by
    intro incoming pkt
    unfold see analyze
    rw [h]
    exact ite_self a
  apply foldl_fixed'
  intro p
  apply foldl_fixed'
  exact hsee p.2

def counted (kind : AnomalyKind) (group : AnomalyType) (x y : Nat) : Anomaly :=
  ⟨kind, group, UInt32.ofNat x, UInt32.ofNat y⟩

theorem count_counted (x y : Nat) (left right : Bool) :
    (counted kind group x y).count left right =
      counted kind group (x + left.toNat) (y + right.toNat) := by
  cases left <;> cases right <;> simp [count, counted, UInt32.ofNat_add]

def packet (pkt : Layer) : IpPacket := ⟨{ protocol := .ip }, [pkt], rfl⟩

theorem see_ip (a : Anomaly) (incoming : Bool) : a.see incoming { protocol := .ip } = a := by
  obtain ⟨kind, group, left, right⟩ := a
  cases kind <;> cases group <;> cases incoming <;> rfl

theorem after_replicate {pkt : Layer} {incoming left right : Bool}
    (hpkt : kind.protocol = .none ∨ kind.protocol = pkt.protocol)
    (hcount : ∀ x y, (counted kind group x y).analyze pkt incoming =
      (counted kind group x y).count left right) (n x y : Nat) :
    (counted kind group x y).after (replicate n (packet pkt, incoming)) =
      counted kind group (x + n * left.toNat) (y + n * right.toNat) := by
  induction n generalizing x y with
  | zero => simp [after]
  | succ n ih =>
    have hstep : (packet pkt).layers.foldl (see incoming) (counted kind group x y) =
        counted kind group (x + left.toNat) (y + right.toNat) := by
      have hsee : (counted kind group x y).see incoming pkt =
          (counted kind group x y).analyze pkt incoming := if_pos hpkt
      rw [packet, IpPacket.layers, foldl_cons, see_ip, foldl_cons, foldl_nil, hsee,
        hcount, count_counted]
    have hnext := ih (x + left.toNat) (y + right.toNat)
    rw [replicate_succ, after, foldl_cons, hstep, ← after, hnext, Nat.succ_mul,
      Nat.succ_mul, Nat.add_assoc, Nat.add_assoc, Nat.add_comm left.toNat, Nat.add_comm right.toNat]

theorem not_balanced (kind : AnomalyKind) (group : AnomalyType) :
    (⟨kind, group, 200, 100⟩ : Anomaly).balanced = false := by
  cases kind <;> cases group <;> decide +kernel

/-- Two hundred packets for the left side, and then packets for the right side only.  If those
for the left side count on both, the right counter has to wrap around. -/
theorem exists_not_balanced {pkt pkt' : Layer} (incoming incoming' : Bool) {right : Bool}
    (hpkt : kind.protocol = .none ∨ kind.protocol = pkt.protocol)
    (hpkt' : kind.protocol = .none ∨ kind.protocol = pkt'.protocol)
    (hleft : ∀ x y, (counted kind group x y).analyze pkt incoming =
      (counted kind group x y).count true right)
    (hright : ∀ x y, (counted kind group x y).analyze pkt' incoming' =
      (counted kind group x y).count false true) :
    ∃ packets, ((counted kind group 0 0).after packets).balanced = false := by
  refine ⟨replicate 200 (packet pkt, incoming) ++
    replicate (if right then 4294967196 else 100) (packet pkt', incoming'), ?_⟩
  have hafter := after_replicate hpkt hleft 200 0 0
  rw [after] at hafter
  rw [after, foldl_append, hafter, ← after, after_replicate hpkt' hright]
  cases right <;> exact not_balanced kind group

def leftLayer (kind : AnomalyKind) : Layer where
  protocol := if kind.protocol = .none then .icmp else kind.protocol
  syn := true
  ack := kind == .tcpInSynack
  fin := true
  rst := true
  destport := 7
  type :=
    match kind with
    | .icmpRequestReply => 0
    | .icmpReplyRequest => 8
    | _ => 3
  code := 3

def rightLayer (kind : AnomalyKind) : Layer where
  protocol := if kind.protocol = .none then .udp else kind.protocol
  syn := true
  ack := kind == .tcpOutSynack
  fin := true
  sourceport := 7
  type := if kind = .icmpRequestReply then 8 else 0

theorem exists_not_balanced_of_ne_all (hknown : (kind.create group).anomGroup ≠ .unknown)
    (hall : (kind.create group).anomGroup ≠ .all) :
    ∃ packets, ((kind.create group).after packets).balanced = false := by
  have hpkt : kind.protocol = .none ∨ kind.protocol = (leftLayer kind).protocol := by
    cases kind <;> decide
  have hpkt' : kind.protocol = .none ∨ kind.protocol = (rightLayer kind).protocol := by
    cases kind <;> decide
  have hnew : kind.create group = counted kind (kind.create group).anomGroup 0 0 := rfl
  rw [hnew]
  cases hgroup : (kind.create group).anomGroup with
  | unknown => exact absurd hgroup hknown
  | all => exact absurd hgroup hall
  | dos =>
    apply exists_not_balanced true false hpkt hpkt'
    · intro x y
      show _ = Anomaly.count _ true false
      cases kind <;> rfl
    · intro x y
      cases kind <;> rfl
  | worm =>
    apply exists_not_balanced true true hpkt hpkt'
    · intro x y
      show _ = Anomaly.count _ true (kind.acceptRight (leftLayer kind))
      cases kind <;> rfl
    · intro x y
      cases kind <;> first | rfl | cases hgroup

/-- The detector of resets in the worm group, after at most `n` packets. -/
structure Ahead (n : Nat) (a : Anomaly) : Prop where
  kind : a.kind = .tcpRst
  anomGroup : a.anomGroup = .worm
  le : a.countLeft.toNat ≤ a.countRight.toNat
  bound : a.countRight.toNat ≤ n

variable {n : Nat}

theorem Ahead.see (h : a.Ahead n) (hn : n + 1 < 2 ^ 32) (incoming : Bool) (pkt : Layer) :
    (a.see incoming pkt).Ahead (n + 1) := by
  obtain ⟨kind, group, left, right⟩ := a
  obtain ⟨rfl, rfl, hle, hbound⟩ := h
  have hright : (right + 1).toNat = right.toNat + 1 := by
    rw [UInt32.toNat_add, UInt32.toNat_one]
    exact Nat.mod_eq_of_lt (by simp only at hbound; omega)
  have hleft : (left + 1).toNat = left.toNat + 1 := by
    rw [UInt32.toNat_add, UInt32.toNat_one]
    exact Nat.mod_eq_of_lt (by simp only at hle hbound; omega)
  unfold Anomaly.see
  split
  · refine ⟨rfl, rfl, ?_, ?_⟩
    · change (if pkt.rst then left + 1 else left).toNat ≤ (right + 1).toNat
      rw [hright]
      split
      · rw [hleft]
        exact Nat.succ_le_succ hle
      · exact Nat.le_succ_of_le hle
    · change (right + 1).toNat ≤ n + 1
      rw [hright]
      exact Nat.succ_le_succ hbound
  · exact ⟨rfl, rfl, hle, Nat.le_succ_of_le hbound⟩

theorem Ahead.foldl_see {layers : List Layer} (h : a.Ahead n) (hn : n + layers.length < 2 ^ 32)
    (incoming : Bool) : (layers.foldl (Anomaly.see incoming) a).Ahead (n + layers.length) := by
  induction layers generalizing a n with
  | nil => exact h
  | cons pkt layers ih =>
    rw [length_cons] at hn ⊢
    rw [Nat.add_comm layers.length, ← Nat.add_assoc]
    exact ih (h.see (by omega) incoming pkt) (by omega)

def layerCount (packets : List (IpPacket × Bool)) : Nat :=
  (packets.map (·.1.layers.length)).sum

theorem Ahead.after {packets : List (IpPacket × Bool)} (h : a.Ahead n)
    (hn : n + layerCount packets < 2 ^ 32) : (a.after packets).Ahead (n + layerCount packets) := by
  induction packets generalizing a n with
  | nil => exact h
  | cons p packets ih =>
    rw [layerCount, map_cons, sum_cons, ← layerCount, ← Nat.add_assoc] at hn ⊢
    exact ih (h.foldl_see (by omega) p.2) hn

theorem Ahead.balanced (h : a.Ahead n) : a.balanced = true := by
  unfold Anomaly.balanced
  split
  · rfl
  · have hle : (a.countLeft.toNat : Rat) ≤ a.countRight.toNat := by exact_mod_cast h.le
    rw [h.kind, AnomalyKind.lambda, Bool.not_eq_true', decide_eq_false_iff_not]
    linarith

end Anomaly

/-! ## Which detectors can report an anomaly -/

theorem exists_create {group : AnomalyType} {manual : List Char} {a : Anomaly}
    (h : a ∈ instanceAnomalies group manual) :
    ∃ kind group', a = AnomalyKind.create kind group' ∧ a.anomGroup ≠ .unknown := by
  have hcreate : ∀ (kind : AnomalyKind) {group' : AnomalyType}, group' ≠ .unknown →
      (kind.create group').anomGroup ≠ .unknown := by
    intro kind group' hgroup
    cases kind <;> simp [AnomalyKind.create, hgroup]
  unfold instanceAnomalies at h
  split at h
  · cases h
  rw [mem_append, mem_append] at h
  rcases h with (h | h) | h
  · obtain ⟨kind, -, rfl⟩ := mem_map.mp (mem_ite_nil_right.mp h).2
    exact ⟨kind, .dos, rfl, hcreate kind (by decide)⟩
  · obtain ⟨kind, -, rfl⟩ := mem_map.mp (mem_ite_nil_right.mp h).2
    exact ⟨kind, .worm, rfl, hcreate kind (by decide)⟩
  · obtain ⟨content, -, hcontent⟩ := mem_filterMap.mp h
    obtain ⟨kind, -, rfl⟩ := Option.map_eq_some_iff.mp hcontent
    refine ⟨kind, _, rfl, hcreate kind ?_⟩
    split
    · decide
    · split <;> decide

/-- A detector gets out of balance if and only if its group is not that of all attacks. -/
theorem exists_not_balanced_iff {group : AnomalyType} {manual : List Char} {i : Nat} {a : Anomaly}
    (h : (instanceAnomalies group manual)[i]? = some a) :
    ((∃ packets a', (updateAll packets (instanceAnomalies group manual))[i]? = some a' ∧
        a'.balanced = false) ↔ a.anomGroup ≠ .all) ∧
      (a.kind = .tcpRst → a.anomGroup = .worm → ∀ packets a', Anomaly.layerCount packets < 2 ^ 32 →
          (updateAll packets (instanceAnomalies group manual))[i]? = some a' →
          a'.balanced = true) := by
  have hafter : ∀ packets, (updateAll packets (instanceAnomalies group manual))[i]? =
      some (a.after packets) := by
    intro packets
    rw [updateAll_eq, getElem?_map, h, Option.map_some]
  obtain ⟨kind, group', rfl, hknown⟩ := exists_create (mem_of_getElem? h)
  simp only [hafter, Option.some.injEq]
  refine ⟨⟨?_, ?_⟩, ?_⟩
  · rintro ⟨packets, -, rfl, hbalanced⟩ hall
    rw [Anomaly.after_of_all hall] at hbalanced
    cases hbalanced
  · intro hall
    obtain ⟨packets, hbalanced⟩ := Anomaly.exists_not_balanced_of_ne_all hknown hall
    exact ⟨packets, _, rfl, hbalanced⟩
  · rintro hkind hgroup packets - hlt rfl
    have hnew : (kind.create group').Ahead 0 := ⟨hkind, hgroup, Nat.le_refl 0, Nat.le_refl 0⟩
    apply (hnew.after _).balanced
    rwa [Nat.zero_add]

theorem exists_not_balanced_iff_worm :
    (∃ packets a', (updateAll packets (instanceAnomalies .worm []))[0]? = some a' ∧
      a'.balanced = false) := by
  have hfirst : (instanceAnomalies .worm [])[0]? = some (AnomalyKind.create .tcpRst .worm) := by
    decide
  exact (exists_not_balanced_iff hfirst).1.mpr (by decide)

def withoutGroup : List Char := "ANOMALY_KIND_TCP_RST_ANOMALY".toList

theorem withoutGroup_always_balanced :
    instanceAnomalies .unknown withoutGroup = [AnomalyKind.create .tcpRst .all] ∧
      ∀ packets, (updateAll packets (instanceAnomalies .unknown withoutGroup)).all
        (·.balanced) = true := by
  have hcreated : instanceAnomalies .unknown withoutGroup = [AnomalyKind.create .tcpRst .all] := by
    decide +kernel
  refine ⟨hcreated, fun packets => ?_⟩
  rw [hcreated, updateAll_eq, map_singleton, Anomaly.after_of_all rfl]
  rfl

end WormsAttack.Distack.ProtocolAnomaly
