/-
  The filter modules of Distack.

  Sources: distack-1.2.3-dev/src/modules/sampling/ModuleFilterSubnet.cpp and
  ModuleFilterProtocol.cpp.

  Both modules apply the inversion to each address and to each layer, before they look whether
  there is one that passes.
-/
import WormsAttack.Distack.Packets
import WormsAttack.Distack.SubnetCounterTree

namespace WormsAttack.Distack

open SubnetCounterTree

/-- A packet of a frame, with the fields that the modules read if it is of the right protocol. -/
structure Layer where
  protocol : Protocol
  sourceip : IpAddr := defaultAddr
  destip : IpAddr := defaultAddr
  syn : Bool := false
  ack : Bool := false
  fin : Bool := false
  rst : Bool := false
  sourceport : UInt16 := 0
  destport : UInt16 := 0
  type : UInt8 := 0
  code : UInt8 := 0

structure FilterSubnet where
  address : IpAddr
  subnetMask : IpAddr
  inverse : Bool

namespace FilterSubnet

/-- The packet that the loop of `frameCall` ends with. -/
def ipPacket (layers : List Layer) : Option Layer :=
  layers.foldl (fun ip layer => if layer.protocol = .ip then some layer else ip) none

def matchesAddr (f : FilterSubnet) (addr : IpAddr) : Bool :=
  (andAddr addr f.subnetMask == andAddr f.address f.subnetMask) ^^ f.inverse

def frameCall (f : FilterSubnet) (layers : List Layer) : Bool :=
  match ipPacket layers with
  | none => f.inverse
  | some ip => f.matchesAddr ip.sourceip || f.matchesAddr ip.destip

def Contains (f : FilterSubnet) (addr : IpAddr) : Prop :=
  andAddr addr f.subnetMask = andAddr f.address f.subnetMask

def Touches (f : FilterSubnet) (ip : Layer) : Prop := f.Contains ip.sourceip ∨ f.Contains ip.destip

def firstIp (layers : List Layer) : Option Layer := layers.find? (·.protocol = .ip)

variable {f : FilterSubnet} {layers : List Layer}

theorem ipPacket_eq_none : ipPacket layers = none ↔ firstIp layers = none := by
  rw [firstIp, List.find?_eq_none]
  induction layers using List.reverseRecOn with
  | nil => simp [ipPacket]
  | append_singleton layers layer ih =>
    rw [ipPacket, List.foldl_concat]
    by_cases hip : layer.protocol = .ip
    · simp [hip]
    · rw [if_neg hip, List.forall_mem_append, List.forall_mem_singleton]
      refine ih.trans (and_iff_left ?_).symm
      simpa using hip

theorem frameCall_iff {ip : Layer} (h : ipPacket layers = some ip) (inverse : Bool) :
    { f with inverse := inverse }.frameCall layers = true ↔
      if inverse then ¬ (f.Contains ip.sourceip ∧ f.Contains ip.destip) else f.Touches ip := by
  rw [frameCall, h]
  cases inverse with
  | false => simp [matchesAddr, Contains, Touches]
  | true =>
    rw [if_pos rfl, not_and_or]
    simp [matchesAddr, Contains]

theorem complement_iff :
    ({ f with inverse := true }.frameCall layers = true ↔
        { f with inverse := false }.frameCall layers = false) ↔
      ∀ ip, ipPacket layers = some ip → (f.Contains ip.sourceip ↔ f.Contains ip.destip) := by
  rw [← Bool.not_eq_true]
  cases h : ipPacket layers with
  | none => simp [frameCall, h]
  | some ip =>
    rw [frameCall_iff h, frameCall_iff h]
    simp only [if_true, Bool.false_eq_true, if_false, Touches, Option.some.injEq, forall_eq']
    tauto

theorem accepts_first_iff :
    ({ f with inverse := false }.frameCall layers = true ↔
        ∃ ip, firstIp layers = some ip ∧ f.Touches ip) ↔
      ∀ first last, firstIp layers = some first → ipPacket layers = some last →
        (f.Touches first ↔ f.Touches last) := by
  cases hfirst : firstIp layers with
  | none =>
    have hnone := ipPacket_eq_none.mpr hfirst
    simp [frameCall, hnone]
  | some first =>
    cases hlast : ipPacket layers with
    | none =>
      rw [ipPacket_eq_none, hfirst] at hlast
      cases hlast
    | some last =>
      rw [frameCall_iff hlast]
      simp only [Bool.false_eq_true, if_false, Option.some.injEq, exists_eq_left']
      constructor
      · rintro h _ _ rfl rfl
        exact h.symm
      · intro h
        exact (h first last rfl rfl).symm

end FilterSubnet

structure FilterProtocol where
  protocol : Protocol
  inverse : Bool

namespace FilterProtocol

def frameCall (f : FilterProtocol) (layers : List Layer) : Bool :=
  layers.any fun packet => (packet.protocol == f.protocol) ^^ f.inverse

theorem complement_iff {f : FilterProtocol} {layers : List Layer} :
    ({ f with inverse := true }.frameCall layers = true ↔
        { f with inverse := false }.frameCall layers = false) ↔
      layers ≠ [] ∧ ((∀ packet ∈ layers, packet.protocol = f.protocol) ∨
        ∀ packet ∈ layers, packet.protocol ≠ f.protocol) := by
  have hinverse : { f with inverse := true }.frameCall layers = true ↔
      ∃ packet ∈ layers, packet.protocol ≠ f.protocol := by
    simp [frameCall]
  have hplain : { f with inverse := false }.frameCall layers = false ↔
      ∀ packet ∈ layers, packet.protocol ≠ f.protocol := by
    simp [frameCall]
  rw [hinverse, hplain]
  cases layers with
  | nil => simp
  | cons packet layers =>
    constructor
    · intro h
      refine ⟨List.cons_ne_nil _ _, ?_⟩
      by_contra hmixed
      obtain ⟨hsome, hnot⟩ := not_or.mp hmixed
      push Not at hsome
      exact hnot (h.mp hsome)
    · rintro ⟨-, hall | hnone⟩
      · refine iff_of_false (fun ⟨p, hp, hne⟩ => hne (hall p hp)) fun h => ?_
        exact h packet List.mem_cons_self (hall packet List.mem_cons_self)
      · exact iff_of_true ⟨packet, List.mem_cons_self, hnone packet List.mem_cons_self⟩ hnone

end FilterProtocol

/-- The inverse filters are complements exactly if the layers agree about the subnet and about the
protocol. -/
theorem inverse_complement_iff (f : FilterSubnet) (g : FilterProtocol) (layers : List Layer) :
    (({ f with inverse := true }.frameCall layers = true ↔
          { f with inverse := false }.frameCall layers = false) ∧
        ({ g with inverse := true }.frameCall layers = true ↔
          { g with inverse := false }.frameCall layers = false) ∧
        ({ f with inverse := false }.frameCall layers = true ↔
          ∃ ip, FilterSubnet.firstIp layers = some ip ∧ f.Touches ip)) ↔
      (∀ ip, FilterSubnet.ipPacket layers = some ip →
          (f.Contains ip.sourceip ↔ f.Contains ip.destip)) ∧
        (layers ≠ [] ∧ ((∀ packet ∈ layers, packet.protocol = g.protocol) ∨
          ∀ packet ∈ layers, packet.protocol ≠ g.protocol)) ∧
        ∀ first last, FilterSubnet.firstIp layers = some first →
          FilterSubnet.ipPacket layers = some last → (f.Touches first ↔ f.Touches last) := by
  rw [FilterSubnet.complement_iff, FilterProtocol.complement_iff, FilterSubnet.accepts_first_iff]

def tenNet : FilterSubnet :=
  ⟨(Vector.replicate 4 0).set! 0 10, (Vector.replicate 4 0).set! 0 255, false⟩

theorem leaving_packet_passes_both :
    tenNet.frameCall [{ protocol := .ip, sourceip := #v[10, 0, 0, 1], destip := #v[9, 0, 0, 1] }] =
        true ∧
      { tenNet with inverse := true }.frameCall
        [{ protocol := .ip, sourceip := #v[10, 0, 0, 1], destip := #v[9, 0, 0, 1] }] = true := by
  decide +kernel

end WormsAttack.Distack
