/-
  Stacks of MPLS labels.

  Source: distack-1.2.3-dev/src/base/protocol: `MplsPacket`.

  The header is copied into an `unsigned int` of a little-endian host, and its bytes are not
  exchanged.  The packet inside is taken for an IP packet, whatever the S bit is.
-/
import WormsAttack.Distack.Checksum

namespace WormsAttack.Distack.Packet

open List

/-! ## The getters -/

def mplsHeader (p : Packet) : Nat :=
  p.byte 0 + p.byte 1 * 256 + p.byte 2 * 65536 + p.byte 3 * 16777216

def getLabel (p : Packet) : Nat := p.mplsHeader / 2048 * 2048 / 1024

def getExperimental (p : Packet) : Nat := p.mplsHeader / 512 % 8

def getStack (p : Packet) : Bool := p.mplsHeader / 256 % 2 == 1

def getTtl (p : Packet) : Nat := p.mplsHeader % 256

/-! ## A stack -/

structure MplsEntry where
  label : Nat
  exp : Nat
  stack : Bool
  ttl : Nat
  label_lt : label < 1048576
  exp_lt : exp < 8
  ttl_lt : ttl < 256

namespace MplsEntry

variable (e : MplsEntry)

def value : Nat := e.label * 4096 + e.exp * 512 + e.stack.toNat * 256 + e.ttl

def bytes : List UInt8 :=
  [.ofNat (e.value / 16777216), .ofNat (e.value / 65536), .ofNat (e.value / 256), .ofNat e.value]

/-- The entry with its bytes in the order of the host. -/
def swapped : Nat :=
  e.label / 4096 + e.label / 16 % 256 * 256 +
    (e.label % 16 * 16 + e.exp * 2 + e.stack.toNat) * 65536 + e.ttl * 16777216

theorem mplsHeader_eq {p : Packet} {rest : List UInt8} (h : p.buffer = e.bytes ++ rest) :
    p.mplsHeader = e.swapped := by
  have := e.label_lt
  have := e.exp_lt
  have := e.ttl_lt
  have := e.stack.toNat_le
  simp only [mplsHeader, byte, h, bytes, value, swapped, cons_append, getD_cons_zero,
    getD_cons_succ, UInt8.toNat_ofNat', Nat.reducePow]
  omega

theorem swapped_bits :
    e.swapped % 256 = e.label / 4096 ∧ e.swapped / 256 % 2 = e.label / 16 % 2 ∧
      e.swapped / 512 % 8 = e.label / 32 % 8 := by
  have := e.label_lt
  unfold swapped
  generalize e.label % 16 * 16 + e.exp * 2 + e.stack.toNat = low
  have hhigh : (e.label / 4096 + e.label / 16 % 256 * 256 + low * 65536 + e.ttl * 16777216) / 256 =
      e.label / 16 % 256 + (low + e.ttl * 256) * 256 := by
    omega
  rw [← Nat.div_div_eq_div_mul _ 256 2, hhigh, ← Nat.div_div_eq_div_mul e.label 16 2]
  omega

end MplsEntry

section

variable {frame : List UInt8} (hlong : 14 ≤ frame.length)
  (htype : (new .ethernet frame).word 12 = 0x8847 ∨ (new .ethernet frame).word 12 = 0x8848)

include hlong htype

theorem parsePacket_ethernet_mpls :
    (new .ethernet frame).parsePacket.nextProtocol = .mpls ∧
      (new .ethernet frame).parsePacket.size = frame.length ∧
      (new .ethernet frame).parsePacket.layersize = 14 := by
  have hparsed : (new .ethernet frame).parsePacket = parseEthernet (new .ethernet frame) := rfl
  have hsize : ¬(new .ethernet frame).size < 14 := Nat.not_lt.mpr hlong
  rw [hparsed, parseEthernet, if_neg hsize]
  refine ⟨?_, rfl, rfl⟩
  rcases htype with htype | htype <;>
  · rw [htype]
    rfl

theorem next_ethernet_mpls :
    (new .ethernet frame).parsePacket.next = new .mpls (frame.drop 14) := by
  obtain ⟨hnext, hsize, hlayer⟩ := parsePacket_ethernet_mpls hlong htype
  rw [next, hnext, hsize, hlayer, parsePacket_buffer]
  exact congrArg _ (take_of_length_le (Nat.le_of_eq length_drop))

end

/-- There is one MPLS layer, however many entries there are, and the getters read the bytes in the
order of the host. -/
theorem mpls_layers_iff {frame packet : List UInt8} (e : MplsEntry) (entries : List MplsEntry)
    (htype : (new .ethernet frame).word 12 = 0x8847 ∨ (new .ethernet frame).word 12 = 0x8848)
    (hframe : frame.drop 14 = (e :: entries).flatMap (·.bytes) ++ packet)
    (hpacket : ValidIpv4 (new .ip packet)) {depth : Nat} (hdepth : frame.length ≤ depth) :
    ∃ layers mpls, parsePackets depth (new .ethernet frame) = some layers ∧
      ((∃ rest, layers.map (·.protocol) =
          .ethernet :: List.replicate (entries.length + 1) .mpls ++ .ip :: rest) ↔ entries = []) ∧
      layers[1]? = some mpls ∧
      (mpls.getLabel = e.label ↔ e.swapped / 2048 * 2 = e.label) ∧
      (mpls.getExperimental = e.exp ↔ e.label / 32 % 8 = e.exp) ∧
      (mpls.getStack = e.stack ↔ e.label / 16 % 2 = e.stack.toNat) ∧
      (mpls.getTtl = e.ttl ↔ e.label / 4096 = e.ttl) := by
  obtain ⟨body, hbody⟩ : ∃ body, body = entries.flatMap (·.bytes) ++ packet := ⟨_, rfl⟩
  have hdrop : frame.drop 14 = e.bytes ++ body := by
    rw [hframe, hbody, flatMap_cons, append_assoc]
  have hlength : frame.length - 14 = 4 + body.length := by
    rw [← length_drop, hdrop, length_append]
    rfl
  have hroom : 20 ≤ body.length := by
    rw [hbody, length_append]
    exact Nat.le_add_left_of_le hpacket.bounds.1
  have hlong : 14 ≤ frame.length := by omega
  -- the MPLS layer behind the Ethernet header, and the IP layer behind the first entry
  obtain ⟨hnext, hsize, hlayer⟩ := parsePacket_ethernet_mpls hlong htype
  have hethernet : Laid (new .ethernet frame).parsePacket := laid_parsePacket (by decide) hlong
  obtain ⟨mpls, rest, hlayers, hchain, _⟩ := hethernet.followed (by rw [hnext]; decide)
    (by rw [hnext, hsize, hlayer, hlength]; exact Nat.le_add_right 4 _) (by rw [hnext]; decide)
    depth (Nat.le_trans (Nat.le_of_eq hsize) hdepth)
  rw [next_ethernet_mpls hlong htype, hdrop] at hchain
  have hsize' : (new .mpls (e.bytes ++ body)).parsePacket.size = 4 + body.length :=
    length_append
  have hmpls : Laid (new .mpls (e.bytes ++ body)).parsePacket :=
    laid_parsePacket (by decide) (Nat.le_trans (Nat.le_add_right 4 _) (Nat.le_of_eq hsize'.symm))
  obtain ⟨ip, rest', hchain', _, hip⟩ := hmpls.followed Protocol.noConfusion
    (by rw [hsize']; exact Nat.le_sub_of_add_le' (Nat.add_le_add_left hroom 4)) (Nat.zero_lt_succ _)
    (depth - 1) (by omega)
  obtain ⟨rfl, rfl⟩ := cons.inj (Option.some.inj (hchain.symm.trans hchain'))
  have hprotocol : ip.protocol = .ip := by
    rcases hip with rfl | ⟨_, rfl⟩ <;> exact parsePacket_protocol
  have hheader := e.mplsHeader_eq (p := (new .mpls (e.bytes ++ body)).parsePacket)
    (show _ = e.bytes ++ body from rfl)
  refine ⟨_, _, hlayers, ?_, rfl, ?_, ?_, ?_, ?_⟩
  · simp only [map_cons, hprotocol, parsePacket_protocol]
    cases entries with
    | nil => exact ⟨fun _ => rfl, fun _ => ⟨_, rfl⟩⟩
    | cons e' entries =>
      constructor
      · rintro ⟨r, hr⟩
        cases hr
      · rintro ⟨⟩
  · rw [getLabel, hheader]
    omega
  · rw [getExperimental, hheader, e.swapped_bits.2.2]
  · rw [getStack, hheader, e.swapped_bits.2.1]
    cases e.stack <;> simp
  · rw [getTtl, hheader, e.swapped_bits.1]

def labelled (stack : Bool) : MplsEntry := ⟨16, 0, stack, 64, by decide, by decide, by decide⟩

def tunnel (entries : List MplsEntry) : List UInt8 :=
  List.replicate 12 0 ++ [0x88, 0x47] ++ (entries.flatMap (·.bytes) ++ datagram)

theorem mpls_layers_labelled :
    ∃ layers rest, parsePackets 47 (new .ethernet (tunnel [labelled true])) = some layers ∧
      layers.map (·.protocol) = .ethernet :: .mpls :: .ip :: rest := by
  obtain ⟨layers, _, hlayers, hprotocols, _⟩ := mpls_layers_iff (labelled true) []
    (show (new .ethernet (tunnel [labelled true])).word 12 = _ ∨ _ from .inl rfl)
    (show _ = [labelled true].flatMap (·.bytes) ++ datagram from rfl)
    ⟨by decide, by decide, by decide, by decide, by decide, by decide⟩ (show _ ≤ 47 by decide)
  obtain ⟨rest, hrest⟩ := hprotocols.mpr rfl
  exact ⟨layers, rest, hlayers, hrest⟩

theorem tunnel_two_labels :
    let layers := parsePackets 51 (new .ethernet (tunnel [labelled false, labelled true]))
    layers.map (·.map (·.protocol)) = some [.ethernet, .mpls, .ip] ∧
      (layers.bind (·[1]?)).map (fun p => (p.getLabel, p.getTtl)) = some (1048576, 0) := by
  decide

end WormsAttack.Distack.Packet
