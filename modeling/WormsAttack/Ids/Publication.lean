/-
  When the detector publishes an address.
-/
import WormsAttack.Ids.Handlers

namespace WormsAttack.Ids

open Foundation Inet Omnet

abbrev Trace : Type := List (Step IDSModule Message (List Action))

/-! ## What has been handled -/

def reportsUnreachable (d : IPDatagram) : Bool :=
  d.transportProtocol == ipProtIcmp && isUnreachable d.encapsulated

def unreachableTo (m : Message) : Option IPAddress :=
  match m.body with
  | .datagram d => if reportsUnreachable d then some d.destAddress else none
  | _ => none

def otherFrom (m : Message) : Option IPAddress :=
  match m.body with
  | .datagram d => if reportsUnreachable d then none else some d.srcAddress
  | _ => none

def ghosts (a : IPAddress) (ms : List Message) : Nat :=
  ms.countP fun m => unreachableTo m = some a

/-- One more than the number of other datagrams from `a`. -/
def reals (a : IPAddress) (ms : List Message) : Nat :=
  1 + ms.countP fun m => otherFrom m = some a

def share (a : IPAddress) (ms : List Message) : Rat :=
  (ghosts a ms : Rat) / ((ghosts a ms + reals a ms : Nat) : Rat)

/-- After the messages `ms`, newest first, the message `m` is an unreachable datagram
to `a`, and once it is counted the share of `a` exceeds the limit. -/
def Crosses (limit : Rat) (a : IPAddress) (m : Message) (ms : List Message) : Prop :=
  unreachableTo m = some a ∧ limit < share a (m :: ms)

def Crossed (limit : Rat) (a : IPAddress) : List Message → Prop
  | [] => False
  | m :: ms => Crosses limit a m ms ∨ Crossed limit a ms

instance (limit : Rat) (a : IPAddress) (m : Message) (ms : List Message) :
    Decidable (Crosses limit a m ms) :=
  inferInstanceAs (Decidable (_ ∧ _))

instance Crossed.decidable (limit : Rat) (a : IPAddress) :
    ∀ ms, Decidable (Crossed limit a ms)
  | [] => isFalse id
  | m :: ms =>
      have := Crossed.decidable limit a ms
      inferInstanceAs (Decidable (Crosses limit a m ms ∨ Crossed limit a ms))

def Carries (m : Message) : Prop :=
  match m.body with
  | .datagram d =>
      d.transportProtocol = ipProtIcmp →
        ∃ p ∈ d.encapsulated, p.byteLength ≤ d.byteLength
  | _ => True

/-- An ICMP datagram is no shorter than the packet it carries.  The fragments of a datagram
are: each of them carries the whole packet. -/
def Fits (m : Message) : Prop :=
  match m.body with
  | .datagram d =>
      d.transportProtocol = ipProtIcmp → ∀ p ∈ d.encapsulated, p.byteLength ≤ d.byteLength
  | _ => True

theorem Carries.fits {m : Message} (h : Carries m) : Fits m := by
  obtain ⟨id, name, body⟩ := m
  cases body with
  | datagram d =>
    intro hicmp p hp
    obtain ⟨q, hq, hlength⟩ := h hicmp
    obtain rfl := Option.mem_unique hp hq
    exact hlength
  | plain | packet | ipBlock => trivial

instance (m : Message) : Decidable (Carries m) :=
  match m with
  | ⟨_, _, .datagram _⟩ => inferInstanceAs (Decidable (_ → ∃ p ∈ _, _))
  | ⟨_, _, .plain⟩ => isTrue trivial
  | ⟨_, _, .packet⟩ => isTrue trivial
  | ⟨_, _, .ipBlock _ _⟩ => isTrue trivial

/-! ## What one message does -/

theorem encapsulate_decapsulate {d bare : IPDatagram} {encap : Option Payload}
    (h : decapsulate d = .ok (encap, bare)) :
    encap = d.encapsulated ∧ encapsulate bare encap = d := by
  unfold decapsulate at h
  split at h
  · rename_i hnone
    cases h
    exact ⟨hnone.symm, rfl⟩
  · rename_i p hsome
    obtain ⟨hlength, h⟩ := guard_eq_ok.mp h
    cases h
    refine ⟨hsome.symm, ?_⟩
    simp only [encapsulate, Nat.sub_add_cancel hlength, ← hsome]

/-- An unreachable datagram is counted for its destination, any other datagram for its source. -/
inductive Handled (x : IDSModule) (m : Message) : IDSModule → List Action → Prop
  | ghost {a : IPAddress} (hto : unreachableTo m = some a) (hfrom : otherFrom m = none) :
      Handled x m (x.countGhost a).1 ((x.countGhost a).2 ++ [.sendDistack m])
  | real {a : IPAddress} (hto : unreachableTo m = none) (hfrom : otherFrom m = some a) :
      Handled x m (x.incReal a) [.sendDistack m]
  | pass (hto : unreachableTo m = none) (hfrom : otherFrom m = none) :
      Handled x m x [.sendDistack m]

theorem handled_of_step {x x' : IDSModule} {m : Message} {out : List Action}
    (hfits : Fits m) (h : handleMessage x m = .ok (x', out)) : Handled x m x' out := by
  obtain ⟨id, name, body⟩ := m
  cases body with
  | plain | ipBlock address block => cases h; exact .pass rfl rfl
  | packet => cases h
  | datagram d =>
    simp only [handleMessage, handleDatagram] at h
    split_ifs at h with hprotocol
    · have hother : reportsUnreachable d = false := by simp [reportsUnreachable, hprotocol]
      cases h
      exact .real (by simp [unreachableTo, hother]) (by simp [otherFrom, hother])
    · have hicmp : d.transportProtocol = ipProtIcmp := not_not.mp hprotocol
      have hdecapsulate : ∃ encap bare, decapsulate d = .ok (encap, bare) := by
        unfold decapsulate
        split
        · exact ⟨_, _, rfl⟩
        · rename_i p hp
          exact ⟨_, _, if_pos (hfits hicmp p hp)⟩
      obtain ⟨encap, bare, hdecapsulate⟩ := hdecapsulate
      obtain ⟨hencap, hrestored⟩ := encapsulate_decapsulate hdecapsulate
      simp only [hdecapsulate, hrestored] at h
      cases hunreachable : isUnreachable encap with
      | true =>
        have hreports : reportsUnreachable d = true := by
          simp [reportsUnreachable, hicmp, ← hencap, hunreachable]
        simp only [hunreachable, if_true] at h
        cases h
        exact .ghost (by simp [unreachableTo, hreports]) (by simp [otherFrom, hreports])
      | false =>
        have hreports : reportsUnreachable d = false := by
          simp [reportsUnreachable, ← hencap, hunreachable]
        simp only [hunreachable, Bool.false_eq_true, if_false] at h
        cases h
        exact .real (by simp [unreachableTo, hreports]) (by simp [otherFrom, hreports])

structure Counts (limit : Rat) (ms : List Message) (x : IDSModule) : Prop where
  dropRatio : x.dropRatio = limit
  ghost : ∀ a : IPAddress, (x.ratioTable a.addr).ghostConn = ghosts a ms
  real : ∀ a : IPAddress, (x.ratioTable a.addr).realConn = reals a ms
  blocked : ∀ a : IPAddress, (x.ratioTable a.addr).blocked = true ↔ Crossed limit a ms

section Message

variable {limit : Rat} {ms : List Message} {x x' : IDSModule} {m : Message}
  {out : List Action} {a b : IPAddress}

theorem update_ne (table : UInt32 → Ratio) (ratio : Ratio) (hne : b ≠ a) :
    Function.update table a.addr ratio b.addr = table b.addr := by
  apply Function.update_of_ne
  intro haddr
  exact hne (congrArg IPAddress.mk haddr)

theorem ghosts_cons (a : IPAddress) (m : Message) (ms : List Message) :
    ghosts a (m :: ms) = ghosts a ms + if unreachableTo m = some a then 1 else 0 := by
  simp [ghosts, List.countP_cons]

variable (hi : Counts limit ms x)

include hi

omit hi

end Message

theorem publish_shape {x x' : IDSModule} {m : Message} {out : List Action}
    (h : handleMessage x m = .ok (x', out)) {name : String} {values : List String}
    (hmem : Action.publish name values ∈ out) :
    ∃ a : IPAddress, name = "intrusion" ∧ values = [a.str] := by
  have hghost : ∀ (x : IDSModule) (a : IPAddress), Action.publish name values ∈ (x.countGhost a).2 →
      name = "intrusion" ∧ values = [a.str] := by
    intro x a hpublish
    simp only [IDSModule.countGhost] at hpublish
    split at hpublish
    · simpa using hpublish
    · cases hpublish
  unfold handleMessage at h
  split at h
  · rename_i d hbody
    simp only [handleDatagram] at h
    split at h
    · cases h
      simp at hmem
    · split at h
      · cases h
        simp at hmem
      · split at h
        · cases h
          exact ⟨d.destAddress, hghost x d.destAddress (by simpa using hmem)⟩
        · cases h
          simp at hmem
  · cases h
  · cases h
    simp at hmem

/-! ## Runs -/

section

variable {limit : Rat} {tr : Trace} {x : IDSModule} (h : Run handleMessage (initial limit) tr x)
  (hcarries : ∀ st ∈ tr, Carries st.event)

include h hcarries

end

def unreachableMessage (id : Nat) : Message :=
  { id := id
    name := "unreachable"
    body := .datagram
      { version := 4, srcAddress := ⟨9⟩, destAddress := ⟨5⟩, transportProtocol := ipProtIcmp
        byteLength := 56, encapsulated := some ⟨.icmp ⟨icmpDestinationUnreachable⟩, 36⟩ } }

end WormsAttack.Ids
