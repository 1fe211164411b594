/-
  The vector of UDP sockets and the loop that removes one.

  Source: ReaSE/src/transport/contract/UDPSocketVector.cc and UDPSocketVector.h.

  Both forms of `addSocket` assert that the peer is not there, so no two entries have the same
  peer.
-/
import Mathlib.Data.List.Nodup
import WormsAttack.Udp.Handlers

namespace WormsAttack.Udp

/-- `UDPSocketVectorInfo`; the socket is its id. -/
structure SocketInfo (α : Type) where
  sockId : Int
  remoteAddr : α
  remotePort : Int

namespace SocketInfo

variable {α : Type}

def remote (info : SocketInfo α) : α × Int := (info.remoteAddr, info.remotePort)

end SocketInfo

/-- No two entries have the same peer. -/
structure UDPSocketVector (α : Type) where
  entries : List (SocketInfo α)
  unique : (entries.map SocketInfo.remote).Nodup

namespace UDPSocketVector

variable {α : Type}

def new : UDPSocketVector α := { entries := [], unique := List.nodup_nil }

section Peers

variable [DecidableEq α]

/-- The search for a peer that `findSocketFor` and `addSocket` begin with. -/
def search (v : UDPSocketVector α) (addr : α) (port : Int) : Option (SocketInfo α) :=
  v.entries.find? fun info => info.remoteAddr = addr ∧ info.remotePort = port

theorem not_mem_of_search {v : UDPSocketVector α} {addr : α} {port : Int}
    (h : v.search addr port = none) : (addr, port) ∉ v.entries.map SocketInfo.remote := by
  intro hmem
  obtain ⟨info, hinfo, hremote⟩ := List.mem_map.mp hmem
  have hnot := List.find?_eq_none.mp h info hinfo
  obtain ⟨haddr, hport⟩ := Prod.mk.inj hremote
  exact hnot (decide_eq_true ⟨haddr, hport⟩)

def push (v : UDPSocketVector α) (sockId : Int) (addr : α) (port : Int)
    (h : v.search addr port = none) : UDPSocketVector α :=
  { entries := v.entries ++ [{ sockId := sockId, remoteAddr := addr, remotePort := port }]
    unique := by
      have hnew := not_mem_of_search h
      rw [List.map_append]
      refine List.nodup_append.mpr ⟨v.unique, List.nodup_singleton _, fun a ha b hb heq => ?_⟩
      obtain rfl := List.mem_singleton.mp hb
      have hpeer : a = (addr, port) := heq
      exact hnew (hpeer ▸ ha) }

/-- `addSocket` with a `TargetInfo`. -/
def addSocketTarget (v : UDPSocketVector α) (sockId : Int) (address : α) (port : Int) :
    Except Stop (UDPSocketVector α) :=
  match h : v.search address port with
  | none => .ok (v.push sockId address port h)
  | some _ => .error .assertion

def noControlInfo : Stop :=
  .error "UDPSocketVector: findSocketFor(): no UDPControl info in message (not from UDP?)"

/-- `addSocket` with a message, whose control info has the source address and port. -/
def addSocket (v : UDPSocketVector α) (sockId : Int) (ctrl : Option (α × Int)) :
    Except Stop (UDPSocketVector α) :=
  match ctrl with
  | none => .error noControlInfo
  | some (srcAddr, srcPort) => v.addSocketTarget sockId srcAddr srcPort

/-- `findSocketFor`; `none` is a null pointer. -/
def findSocketFor (v : UDPSocketVector α) (ctrl : Option (α × Int)) :
    Except Stop (Option Int) :=
  match ctrl with
  | none => .error noControlInfo
  | some (srcAddr, srcPort) => .ok ((v.search srcAddr srcPort).map SocketInfo.sockId)

end Peers

/-- The loop of `removeSocket` at iterator `i`, for at most `rounds` rounds. The source does not
advance the iterator. -/
def removeLoop (sockId : Int) :
    (rounds i : Nat) → List (SocketInfo α) → Option (List (SocketInfo α))
  | 0, _, _ => none
  | rounds + 1, i, entries =>
      match entries[i]? with
      | none => some entries
      | some info =>
          if info.sockId = sockId then some (entries.eraseIdx i)
          else removeLoop sockId rounds i entries

variable {rest : List (SocketInfo α)} {sockId : Int}

theorem sublist_of_removeLoop {entries : List (SocketInfo α)} {i : Nat} :
    ∀ {rounds : Nat}, removeLoop sockId rounds i entries = some rest → rest.Sublist entries := by
  intro rounds
  induction rounds with
  | zero => intro h; cases h
  | succ rounds ih =>
    intro h
    rw [removeLoop] at h
    split at h
    · cases h
      exact List.Sublist.refl _
    · split at h
      · cases h
        exact List.eraseIdx_sublist _ _
      · exact ih h

def removeSocket (v : UDPSocketVector α) (sockId : Int) (rounds : Nat) :
    Option (UDPSocketVector α) :=
  match h : removeLoop sockId rounds 0 v.entries with
  | none => none
  | some entries =>
      some
        { entries := entries
          unique := ((sublist_of_removeLoop h).map SocketInfo.remote).nodup v.unique }

theorem removeSocket_eq_some {v rest : UDPSocketVector α} {rounds : Nat} :
    v.removeSocket sockId rounds = some rest ↔
      removeLoop sockId rounds 0 v.entries = some rest.entries := by
  unfold removeSocket
  split
  · rename_i h
    simp [h]
  · rename_i entries h
    constructor
    · intro heq
      cases heq
      exact h
    · intro hloop
      cases h.symm.trans hloop
      rfl

theorem removeLoop_stays {info : SocketInfo α} (h : info.sockId ≠ sockId) (rounds : Nat) :
    removeLoop sockId rounds 0 (info :: rest) = none := by
  induction rounds with
  | zero => rfl
  | succ rounds ih =>
    rw [removeLoop]
    simp [h, ih]

theorem removeLoop_ends_iff {entries : List (SocketInfo α)} :
    (∃ rounds, removeLoop sockId rounds 0 entries = some rest) ↔
      entries = [] ∧ rest = [] ∨ ∃ info, entries = info :: rest ∧ info.sockId = sockId := by
  constructor
  · rintro ⟨rounds, h⟩
    cases entries with
    | nil =>
      cases rounds with
      | zero => cases h
      | succ rounds =>
        cases h
        exact .inl ⟨rfl, rfl⟩
    | cons info tail =>
      by_cases hid : info.sockId = sockId
      · cases rounds with
        | zero => cases h
        | succ rounds =>
          rw [removeLoop] at h
          simp only [List.getElem?_cons_zero, hid, if_true, Option.some.injEq] at h
          exact .inr ⟨info, by rw [← h]; rfl, hid⟩
      · rw [removeLoop_stays hid] at h
        cases h
  · rintro (⟨rfl, rfl⟩ | ⟨info, rfl, hid⟩)
    · exact ⟨1, rfl⟩
    · exact ⟨1, by simp [removeLoop, hid]⟩

/-- `removeSocket` removes the entries of the socket exactly if there is no entry at all, or the
first entry has the id and no other one has. -/
theorem removeSocket_removes_iff (v : UDPSocketVector α) (sockId : Int) :
    (∃ rounds rest, v.removeSocket sockId rounds = some rest ∧
        rest.entries = v.entries.filter (·.sockId ≠ sockId) ∧
        v.entries.length ≤ rest.entries.length + 1) ↔
      v.entries = [] ∨
        ∃ first others, v.entries = first :: others ∧ first.sockId = sockId ∧
          ∀ info ∈ others, info.sockId ≠ sockId := by
  constructor
  · rintro ⟨rounds, rest, hremove, hfilter, -⟩
    have hends := removeLoop_ends_iff.mp ⟨rounds, removeSocket_eq_some.mp hremove⟩
    rcases hends with ⟨hnil, -⟩ | ⟨first, hentries, hid⟩
    · exact .inl hnil
    · refine .inr ⟨first, rest.entries, hentries, hid, fun info hinfo => ?_⟩
      rw [hfilter] at hinfo
      exact of_decide_eq_true (List.mem_filter.mp hinfo).2
  · intro h
    -- what is left is the tail of the vector
    have htail : (∃ rounds, removeLoop sockId rounds 0 v.entries = some v.entries.tail) ∧
        v.entries.tail = v.entries.filter (·.sockId ≠ sockId) := by
      rcases h with hnil | ⟨first, others, hentries, hid, hothers⟩
      · rw [hnil]
        exact ⟨⟨1, rfl⟩, rfl⟩
      · rw [hentries]
        refine ⟨removeLoop_ends_iff.mpr (.inr ⟨first, rfl, hid⟩), ?_⟩
        have hall : others.filter (·.sockId ≠ sockId) = others :=
          List.filter_eq_self.mpr fun info hinfo => decide_eq_true (hothers info hinfo)
        rw [List.filter_cons_of_neg (by simp [hid]), hall]
        rfl
    obtain ⟨⟨rounds, hloop⟩, hfilter⟩ := htail
    refine ⟨rounds, ⟨v.entries.tail, (v.unique.sublist ((List.tail_sublist _).map _))⟩,
      removeSocket_eq_some.mpr hloop, hfilter, ?_⟩
    rw [List.length_tail]
    omega

def twoSockets : UDPSocketVector Nat :=
  { entries := [⟨1, 10, 53⟩, ⟨2, 11, 53⟩], unique := by decide }

def oneSocket : UDPSocketVector Nat :=
  { entries := [⟨1, 10, 53⟩, ⟨1, 11, 53⟩], unique := by decide }

theorem second_socket_stays :
    ((new : UDPSocketVector Nat).addSocketTarget 1 10 53 >>= (·.addSocketTarget 2 11 53)).map
        entries = .ok twoSockets.entries ∧
    (∀ rounds, twoSockets.removeSocket 2 rounds = none) ∧
    (oneSocket.removeSocket 1 1).map entries = some [⟨1, 11, 53⟩] := by
  refine ⟨rfl, fun rounds => ?_, rfl⟩
  rw [Option.eq_none_iff_forall_ne_some]
  intro rest hremove
  have hloop := removeSocket_eq_some.mp hremove
  rw [twoSockets, removeLoop_stays (by decide)] at hloop
  cases hloop

end UDPSocketVector

end WormsAttack.Udp
