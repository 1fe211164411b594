/-
  When the limits of the frame buffer are enforced.
-/
import WormsAttack.Distack.FrameBuffer

namespace WormsAttack.Distack.FrameBuffer

open Foundation List UInt32 Buffer

/-- All frames that the interface has delivered are of size `largest` or smaller. -/
def Offers (largest : UInt32) (tr : List (Step Buffer Event Effect)) : Prop :=
  ∀ st ∈ tr, ∀ size, st.event = .read (some size) → size ≤ largest

/-- The limits are those that were asked for, and the additions of the reader do not wrap around.
-/
def Enforceable (maxFrames maxBytes f b largest : UInt32) : Prop :=
  0 < maxFrames ∧ f.toNat + 1 < 2 ^ 32 ∧
    if 0 < maxBytes then min b.toNat ((f.toNat - 1) * largest.toNat) + largest.toNat < 2 ^ 32
    else f.toNat * largest.toNat ≤ b.toNat

def Buffer.configured (maxFrames maxBytes f b : UInt32) : Buffer :=
  ((Buffer.withLimits maxFrames maxBytes).setMaxFrames f).setMaxBytes b

theorem configured_eq (maxFrames maxBytes f b : UInt32) :
    configured maxFrames maxBytes f b =
      .withLimits (if 0 < maxFrames then f else 0) (if 0 < maxBytes then b else 0) := by
  have hzero : ∀ n : UInt32, ¬ 0 < n → n = 0 := by
    intro n hn
    exact UInt32.toNat_inj.mp (Nat.eq_zero_of_not_pos fun h => hn (UInt32.lt_iff_toNat_lt.mpr h))
  by_cases hframes : 0 < maxFrames
  · by_cases hbytes : 0 < maxBytes
    · simp [configured, setMaxFrames, setMaxBytes, withLimits, hframes, hbytes]
    · obtain rfl := hzero _ hbytes
      simp [configured, setMaxFrames, setMaxBytes, withLimits, hframes]
  · obtain rfl := hzero _ hframes
    by_cases hbytes : 0 < maxBytes
    · simp [configured, setMaxFrames, setMaxBytes, withLimits, hbytes]
    · obtain rfl := hzero _ hbytes
      simp [configured, setMaxFrames, setMaxBytes, withLimits]

/-! ## Limits that are enforced -/

theorem bytes_le_length_mul {frames : List Frame} {largest : UInt32}
    (h : ∀ frame ∈ frames, frame.size ≤ largest) :
    bytes frames ≤ frames.length * largest.toNat := by
  induction frames with
  | nil => simp
  | cons frame frames ih =>
    obtain ⟨hfirst, hrest⟩ := forall_mem_cons.mp h
    have hle := le_iff_toNat_le.mp hfirst
    have := ih hrest
    rw [bytes_cons, length_cons, Nat.add_one_mul]
    omega

/-- What the reader keeps when it can: the frames that are counted stay within `f` frames
and `b` bytes. -/
structure Within (f b largest : UInt32) (s : Buffer) : Prop where
  frames : s.held.length ≤ f.toNat
  bytes : bytes s.held ≤ b.toNat
  sizes : ∀ frame ∈ s.held ++ s.reader.undecided, frame.size ≤ largest

section

variable {maxBytes f b largest : UInt32} {s s' : Buffer} {o : Effect}

theorem Within.of_subperm (h : Within f b largest s) (hsub : ∃ gone, s.held.Perm (gone ++ s'.held))
    (hsizes : ∀ frame ∈ s'.reader.undecided, frame.size ≤ largest) :
    Within f b largest s' := by
  obtain ⟨gone, hperm⟩ := hsub
  have hlength := hperm.length_eq
  have hbytes := bytes_perm hperm
  rw [length_append] at hlength
  rw [bytes_append] at hbytes
  refine ⟨by have := h.frames; omega, by have := h.bytes; omega, fun frame hmem => ?_⟩
  rcases mem_append.mp hmem with hmem | hmem
  · exact h.sizes frame
      (mem_append_left _ (hperm.mem_iff.mpr (mem_append_right gone hmem)))
  · exact hsizes frame hmem

variable (hcounted : Counted s) (h : Within f b largest s) (hframes : s.maxFrames = f)
  (hf : 0 < f) (hbytes : s.maxBytes = if 0 < maxBytes then b else 0) (hb : 0 < b)
  (hmax : f.toNat + 1 < 2 ^ 32)
  (hroom : if 0 < maxBytes then min b.toNat ((f.toNat - 1) * largest.toNat) + largest.toNat < 2 ^ 32
    else f.toNat * largest.toNat ≤ b.toNat)

include hcounted h hframes hf hbytes hb hmax hroom

theorem Within.accepted {frame : Frame} (hsize : frame.size ≤ largest)
    (haccept : s.acceptFrame frame = true) :
    s.held.length + 1 ≤ f.toNat ∧ FrameBuffer.bytes s.held + frame.size.toNat ≤ b.toNat := by
  have hlargest := le_iff_toNat_le.mp hsize
  have hcurrentFrames : s.currentFrames.toNat = s.held.length := by
    rw [hcounted.frames]
    exact toNat_ofNat_of_lt' (Nat.lt_of_le_of_lt h.frames f.toNat_lt)
  have hcurrentBytes : s.currentBytes.toNat = FrameBuffer.bytes s.held := by
    rw [hcounted.bytes]
    exact toNat_ofNat_of_lt' (Nat.lt_of_le_of_lt h.bytes b.toNat_lt)
  obtain ⟨hfits, hfits'⟩ := acceptFrame_iff.mp haccept
  rw [hframes] at hfits
  have hlength : s.held.length + 1 ≤ f.toNat := by
    have hfits := le_iff_toNat_le.mp (hfits hf)
    rw [UInt32.toNat_add, hcurrentFrames] at hfits
    have := h.frames
    rwa [Nat.mod_eq_of_lt (by simpa using (by omega : s.held.length + 1 < 2 ^ 32))] at hfits
  refine ⟨hlength, ?_⟩
  have hheld : FrameBuffer.bytes s.held ≤ (f.toNat - 1) * largest.toNat := by
    refine Nat.le_trans (bytes_le_length_mul fun frame hmem => ?_)
      (Nat.mul_le_mul_right _ (Nat.le_sub_one_of_lt hlength))
    exact h.sizes frame (mem_append_left _ hmem)
  by_cases hlimited : 0 < maxBytes
  · rw [if_pos hlimited] at hroom hbytes
    rw [hbytes] at hfits'
    have hfits' := le_iff_toNat_le.mp (hfits' hb)
    rw [UInt32.toNat_add, hcurrentBytes] at hfits'
    have hmin : FrameBuffer.bytes s.held ≤ min b.toNat ((f.toNat - 1) * largest.toNat) :=
      Nat.le_min.mpr ⟨h.bytes, hheld⟩
    rwa [Nat.mod_eq_of_lt (by omega)] at hfits'
  · rw [if_neg hlimited] at hroom
    have hsplit : f.toNat * largest.toNat = (f.toNat - 1) * largest.toNat + largest.toNat := by
      rw [← Nat.succ_mul, Nat.succ_eq_add_one, Nat.sub_add_cancel (by omega)]
    omega

theorem Within.turn (hoffers : ∀ frame, o = .read frame → frame.size ≤ largest)
    (hturn : Turn s s' o) : Within f b largest s' := by
  cases hturn with
  | nothing => exact h
  | read hreader =>
    refine h.of_subperm ⟨[], ?_⟩ fun frame hmem => ?_
    · simp [held, Reader.pending, hreader]
    · exact hoffers frame (mem_singleton.mp hmem ▸ rfl)
  | @accept frame hreader haccept =>
    have hsize : frame.size ≤ largest :=
      h.sizes frame (mem_append_right _ (by simp [hreader, Reader.undecided]))
    obtain ⟨hlength, hfits⟩ :=
      h.accepted hcounted hframes hf hbytes hb hmax hroom hsize haccept
    have hheld : s.held = s.taken ++ s.frameQueue := by
      simp [held, hreader, Reader.pending]
    rw [hheld] at hlength hfits
    refine ⟨?_, ?_, fun other hmem => ?_⟩
    · simpa [held, Reader.pending, Nat.add_assoc] using hlength
    · simpa [held, Reader.pending, Nat.add_assoc] using hfits
    · simp only [held, Reader.pending, Reader.undecided, append_nil] at hmem
      rcases mem_append.mp hmem with hmem | hmem
      · exact h.sizes other (mem_append_left _ (hheld ▸ hmem))
      · exact mem_singleton.mp hmem ▸ hsize
  | reject hreader _ | queue hreader | delete hreader =>
    refine h.of_subperm ⟨[], ?_⟩ fun _ hmem => absurd hmem not_mem_nil
    simp [held, Reader.pending, hreader]
  | take hqueue =>
    refine h.of_subperm ⟨[], ?_⟩ fun frame hmem => h.sizes frame (mem_append_right _ hmem)
    simp [held, hqueue]
  | @subtract frame hmem =>
    refine h.of_subperm ⟨[frame], ?_⟩ fun frame hmem => h.sizes frame (mem_append_right _ hmem)
    exact ((perm_cons_erase hmem).append_right _).append_right _

end

theorem limits_of_turn {s s' : Buffer} {o : Effect} (h : Turn s s' o) :
    s'.maxFrames = s.maxFrames ∧ s'.maxBytes = s.maxBytes := by
  cases h <;> exact ⟨rfl, rfl⟩

theorem read_of_step {s s' : Buffer} {e : Event} {frame : Frame}
    (h : step s e = .ok (s', .read frame)) : e = .read (some frame.size) := by
  unfold step at h
  split at h
  · split at h
    · cases h
    · cases h
      rfl
    · cases h
  · split at h
    · split_ifs at h <;> cases h
    · cases h
  · split at h <;> cases h
  · split at h <;> cases h
  · split_ifs at h
    cases h

theorem within_of_run {maxFrames maxBytes f b largest : UInt32} (hf : 0 < f) (hb : 0 < b)
    (henforceable : Enforceable maxFrames maxBytes f b largest)
    {tr : List (Step Buffer Event Effect)} {s : Buffer}
    (hrun : Run step (.configured maxFrames maxBytes f b) tr s) (hoffers : Offers largest tr) :
    Within f b largest s ∧ s.maxFrames = f ∧ s.maxBytes = if 0 < maxBytes then b else 0 := by
  obtain ⟨hframes, hmax, hroom⟩ := henforceable
  rw [configured_eq, if_pos hframes] at hrun
  induction hrun with
  | start =>
    refine ⟨⟨Nat.zero_le _, Nat.zero_le _, nofun⟩, rfl, rfl⟩
  | @next tr s s' e o hrun hstep ih =>
    obtain ⟨hfirst, hrest⟩ := forall_mem_cons.mp hoffers
    obtain ⟨hwithin, hlimits, hlimits'⟩ := ih hrest
    have hturn := step_turn hstep
    refine ⟨?_, (limits_of_turn hturn).1.trans hlimits, (limits_of_turn hturn).2.trans hlimits'⟩
    refine hwithin.turn (counted_and_placed hrun).1 hlimits hf hlimits' hb hmax hroom ?_ hturn
    rintro frame rfl
    exact hfirst frame.size (read_of_step hstep)

/-! ## Limits that are exceeded

A buffer is filled with frames of given sizes while nobody takes any out. -/

def total (sizes : List UInt32) : Nat := (sizes.map UInt32.toNat).sum

@[simp]
theorem total_append (sizes more : List UInt32) :
    total (sizes ++ more) = total sizes + total more := by
  simp [total]

theorem total_append_ofNat (sizes : List UInt32) {n : Nat} (h : n < 2 ^ 32) :
    total (sizes ++ [.ofNat n]) = total sizes + n := by
  have hlast : total [ofNat n] = n := by
    exact toNat_ofNat_of_lt' h
  rw [total_append, hlast]

theorem total_replicate (n : Nat) (size : UInt32) :
    total (replicate n size) = n * size.toNat := by
  simp [total]

def framesOf (sizes : List UInt32) : List Frame :=
  sizes.zipIdx.map fun entry => ⟨entry.2, entry.1⟩

theorem length_framesOf (sizes : List UInt32) : (framesOf sizes).length = sizes.length := by
  simp [framesOf]

theorem bytes_framesOf (sizes : List UInt32) : bytes (framesOf sizes) = total sizes := by
  have hsizes : (framesOf sizes).map (fun frame => frame.size.toNat) = sizes.map toNat := by
    simp only [framesOf, map_map]
    exact (map_map (l := sizes.zipIdx) (g := toNat) (f := Prod.fst)).symm.trans
      (congrArg (map toNat) (zipIdx_map_fst 0 sizes))
  simp only [bytes, total, hsizes]

theorem framesOf_append (sizes : List UInt32) (size : UInt32) :
    framesOf (sizes ++ [size]) = framesOf sizes ++ [⟨sizes.length, size⟩] := by
  simp [framesOf, zipIdx_append]

theorem ofNat_succ (n : Nat) : ofNat (n + 1) = .ofNat n + 1 :=
  ofNat_add n 1

theorem ofNat_total_append (sizes : List UInt32) (size : UInt32) :
    UInt32.ofNat (total (sizes ++ [size])) = .ofNat (total sizes) + size := by
  have hsize : total [size] = size.toNat := by simp [total]
  rw [total_append, hsize, UInt32.ofNat_add, UInt32.ofNat_toNat]

def filled (maxFrames maxBytes : UInt32) (sizes : List UInt32) : Buffer :=
  { Buffer.withLimits maxFrames maxBytes with
    currentFrames := .ofNat sizes.length
    currentBytes := .ofNat (total sizes)
    frameQueue := framesOf sizes
    framesRead := sizes.length }

section

variable {maxFrames maxBytes largest : UInt32} {sizes : List UInt32}

theorem reaches_next {size : UInt32}
    (haccept : (filled maxFrames maxBytes sizes).acceptFrame ⟨sizes.length, size⟩ = true) :
    ∃ tr, Run step (filled maxFrames maxBytes sizes) tr
        (filled maxFrames maxBytes (sizes ++ [size])) ∧
      ∀ st ∈ tr, ∀ other, st.event = .read (some other) → other = size := by
  let frame : Frame := ⟨sizes.length, size⟩
  let read : Buffer :=
    { filled maxFrames maxBytes sizes with reader := .read frame, framesRead := sizes.length + 1 }
  let counted : Buffer :=
    { read with currentFrames := .ofNat sizes.length + 1
                currentBytes := .ofNat (total sizes) + size
                reader := .accepted frame }
  have hread : step (filled maxFrames maxBytes sizes) (.read (some size)) =
      .ok (read, .read frame) := rfl
  have hcount : step read .count = .ok (counted, .silent) := if_pos haccept
  have hstore : step counted .store =
      .ok (filled maxFrames maxBytes (sizes ++ [size]), .silent) := by
    have hlength : (sizes ++ [size]).length = sizes.length + 1 := length_append
    simp only [step, counted, read, filled, hlength, ofNat_succ, ofNat_total_append,
      framesOf_append, withLimits, frame]
  refine ⟨_, ((Run.start.next hread).next hcount).next hstore, ?_⟩
  intro st hst other hevent
  simp only [mem_cons, not_mem_nil, or_false] at hst
  rcases hst with rfl | rfl | rfl
  · cases hevent
  · cases hevent
  · cases hevent
    rfl

theorem reaches_filled (hsizes : ∀ size ∈ sizes, size ≤ largest)
    (haccept : ∀ pre size, pre ++ [size] <+: sizes →
      (filled maxFrames maxBytes pre).acceptFrame ⟨pre.length, size⟩ = true) :
    ∃ tr, Run step (.withLimits maxFrames maxBytes) tr (filled maxFrames maxBytes sizes) ∧
      Offers largest tr := by
  induction sizes using reverseRecOn with
  | nil => exact ⟨[], .start, fun _ hst => absurd hst not_mem_nil⟩
  | append_singleton sizes size ih =>
    obtain ⟨tr, hrun, hoffers⟩ := ih (fun other hmem => hsizes other (mem_append_left _ hmem))
      fun pre other hpre => haccept pre other (hpre.trans (prefix_append _ _))
    obtain ⟨more, hmore, hread⟩ := reaches_next (haccept sizes size (prefix_refl _))
    refine ⟨more ++ tr, hrun.append hmore, fun st hst other hevent => ?_⟩
    rcases mem_append.mp hst with hst | hst
    · rw [hread st hst other hevent]
      exact hsizes size (mem_append_right _ (mem_singleton_self size))
    · exact hoffers st hst other hevent

/-- The test of the frames goes through when there is no limit, or room, or the limit is
the largest number. -/
def passesFrames (maxFrames : UInt32) (n : Nat) : Prop :=
  maxFrames = 0 ∨ n + 1 ≤ maxFrames.toNat ∨ maxFrames.toNat + 1 = 2 ^ 32

/-- The test of the bytes goes through when there is no limit, or the sum, after it has
wrapped around, is within the limit. -/
def passesBytes (maxBytes : UInt32) (n : Nat) : Prop :=
  maxBytes = 0 ∨ n % 2 ^ 32 ≤ maxBytes.toNat

theorem acceptFrame_filled {size : UInt32} (hframes : passesFrames maxFrames sizes.length)
    (hbytes : passesBytes maxBytes (total sizes + size.toNat)) :
    (filled maxFrames maxBytes sizes).acceptFrame ⟨sizes.length, size⟩ = true := by
  refine acceptFrame_iff.mpr ⟨fun hlimit => ?_, fun hlimit => ?_⟩
  · have hlimit : 0 < maxFrames := hlimit
    have hlt := maxFrames.toNat_lt
    change ofNat sizes.length + 1 ≤ maxFrames
    rw [← ofNat_succ, le_iff_toNat_le, toNat_ofNat']
    rcases hframes with rfl | hroom | hmax
    · exact absurd hlimit (by decide)
    · rwa [Nat.mod_eq_of_lt (by omega)]
    · omega
  · have hlimit : 0 < maxBytes := hlimit
    change ofNat (total sizes) + size ≤ maxBytes
    have hsum : ofNat (total sizes) + size = .ofNat (total sizes + size.toNat) := by
      rw [UInt32.ofNat_add, UInt32.ofNat_toNat]
    rw [hsum, le_iff_toNat_le, toNat_ofNat']
    rcases hbytes with rfl | hfits
    · exact absurd hlimit (by decide)
    · exact hfits

end

theorem reaches_sizes (maxFrames maxBytes largest : UInt32) (sizes : List UInt32)
    (hsizes : ∀ size ∈ sizes, size ≤ largest) (hpasses : ∀ pre size, pre ++ [size] <+: sizes →
      passesFrames maxFrames pre.length ∧ passesBytes maxBytes (total pre + size.toNat)) :
    ∃ tr s, Run step (.withLimits maxFrames maxBytes) tr s ∧ Offers largest tr ∧
      s.frameQueue.length = sizes.length ∧ bytes s.frameQueue = total sizes := by
  obtain ⟨tr, hrun, hoffers⟩ := reaches_filled hsizes fun pre size hpre =>
    acceptFrame_filled (hpasses pre size hpre).1 (hpasses pre size hpre).2
  exact ⟨tr, _, hrun, hoffers, length_framesOf sizes, bytes_framesOf sizes⟩

theorem prefix_replicate {pre : List UInt32} {size other : UInt32} {n : Nat}
    (h : pre ++ [size] <+: replicate n other) :
    size = other ∧ pre = replicate pre.length other ∧ pre.length + 1 ≤ n := by
  obtain ⟨hlength, heq⟩ := prefix_replicate_iff.mp h
  rw [length_append, length_singleton] at hlength heq
  rw [replicate_succ'] at heq
  obtain ⟨hpre, hsize⟩ := append_inj heq (by simp)
  exact ⟨(cons.inj hsize).1, hpre, hlength⟩

theorem exceeds_frames (maxFrames maxBytes largest : UInt32)
    (hframes : maxFrames = 0 ∨ maxFrames.toNat + 1 = 2 ^ 32) (n : Nat) :
    ∃ tr s, Run step (.withLimits maxFrames maxBytes) tr s ∧ Offers largest tr ∧
      s.frameQueue.length = n := by
  obtain ⟨tr, s, hrun, hoffers, hlength, _⟩ :=
    reaches_sizes maxFrames maxBytes largest (replicate n 0)
      (fun size hmem => by
        rw [eq_of_mem_replicate hmem]
        exact UInt32.zero_le)
      (fun pre size hpre => by
        obtain ⟨rfl, hzeros, _⟩ := prefix_replicate hpre
        have htotal : total pre = 0 := by
          rw [hzeros, total_replicate]
          rfl
        refine ⟨hframes.imp_right .inr, .inr ?_⟩
        rw [htotal]
        exact Nat.zero_le _)
  exact ⟨tr, s, hrun, hoffers, hlength.trans length_replicate⟩

theorem exceeds_bytes (f largest : UInt32) :
    ∃ tr s, Run step (.withLimits f 0) tr s ∧ Offers largest tr ∧
      bytes s.frameQueue = f.toNat * largest.toNat := by
  obtain ⟨tr, s, hrun, hoffers, _, hbytes⟩ :=
    reaches_sizes f 0 largest (replicate f.toNat largest)
      (fun size hmem => by
        rw [eq_of_mem_replicate hmem]
        exact UInt32.le_refl _)
      (fun pre size hpre => ⟨.inr (.inl (prefix_replicate hpre).2.2), .inl rfl⟩)
  exact ⟨tr, s, hrun, hoffers, hbytes.trans (total_replicate _ _)⟩

/-- Any number up to `n` times the largest size is the sum of at most `n` sizes. -/
theorem exists_total (largest : UInt32) {n : Nat} : ∀ {sum : Nat}, sum ≤ n * largest.toNat →
    ∃ sizes : List UInt32, sizes.length ≤ n ∧ total sizes = sum ∧
      ∀ size ∈ sizes, size ≤ largest := by
  induction n with
  | zero =>
    intro sum hsum
    rw [Nat.zero_mul] at hsum
    exact ⟨[], Nat.le_refl _, (Nat.le_zero.mp hsum).symm, nofun⟩
  | succ n ih =>
    intro sum hsum
    rw [Nat.add_one_mul] at hsum
    by_cases hsmall : sum ≤ n * largest.toNat
    · obtain ⟨sizes, hlength, htotal, hsizes⟩ := ih hsmall
      exact ⟨sizes, Nat.le_succ_of_le hlength, htotal, hsizes⟩
    · -- all but one of the frames have the largest size
      have hrest : sum - n * largest.toNat ≤ largest.toNat := by omega
      obtain ⟨sizes, hlength, htotal, hsizes⟩ := ih (Nat.le_refl (n * largest.toNat))
      refine ⟨sizes ++ [.ofNat (sum - n * largest.toNat)], by simpa using hlength, ?_, ?_⟩
      · rw [total_append_ofNat sizes (Nat.lt_of_le_of_lt hrest largest.toNat_lt), htotal]
        omega
      · intro size hmem
        rcases mem_append.mp hmem with hmem | hmem
        · exact hsizes size hmem
        · rw [mem_singleton.mp hmem]
          exact (ofNat_le_iff (Nat.lt_of_le_of_lt hrest largest.toNat_lt)).mpr hrest

/-- A frame that makes the sum of the bytes wrap around to zero. -/
theorem exceeds_wrapped (f b largest : UInt32) (hf : 0 < f)
    (hwraps : 2 ^ 32 ≤ min b.toNat ((f.toNat - 1) * largest.toNat) + largest.toNat) :
    ∃ tr s, Run step (.withLimits f b) tr s ∧ Offers largest tr ∧
      bytes s.frameQueue = 2 ^ 32 := by
  have hf : 0 < f.toNat := lt_iff_toNat_lt.mp hf
  have hlargest := largest.toNat_lt
  have hb := b.toNat_lt
  obtain ⟨sizes, hlength, htotal, hsizes⟩ := exists_total largest
    (Nat.min_le_right b.toNat ((f.toNat - 1) * largest.toNat))
  have hle : total sizes ≤ b.toNat := htotal ▸ Nat.min_le_left _ _
  have hlast : 2 ^ 32 - total sizes < 2 ^ 32 := by omega
  obtain ⟨tr, s, hrun, hoffers, _, hbytes⟩ :=
    reaches_sizes f b largest (sizes ++ [.ofNat (2 ^ 32 - total sizes)])
      (fun size hmem => by
        rcases mem_append.mp hmem with hmem | hmem
        · exact hsizes size hmem
        · rw [mem_singleton.mp hmem]
          exact (ofNat_le_iff hlast).mpr (by omega))
      (fun pre size hpre => by
        have hroom : pre.length + 1 ≤ f.toNat := by
          have := hpre.length_le
          simp only [length_append, length_singleton] at this
          omega
        refine ⟨.inr (.inl hroom), .inr ?_⟩
        have htotal' : total pre + size.toNat = total (pre ++ [size]) := by
          simp [total]
        rw [htotal']
        rcases prefix_concat_iff.mp hpre with heq | hpre
        · rw [heq, total_append_ofNat sizes hlast, Nat.add_sub_cancel' (by omega), Nat.mod_self]
          exact Nat.zero_le _
        · obtain ⟨rest, hrest⟩ := hpre
          have hsum : total (pre ++ [size]) ≤ total sizes := by
            rw [← hrest, total_append _ rest]
            exact Nat.le_add_right _ _
          exact Nat.le_trans (Nat.mod_le _ _) (Nat.le_trans hsum hle))
  refine ⟨tr, s, hrun, hoffers, ?_⟩
  rw [hbytes, total_append_ofNat sizes hlast]
  omega

/-- The queue stays within `f` frames and `b` bytes in every interleaving exactly when the limits
are enforceable. -/
theorem limits_enforced_iff (maxFrames maxBytes f b largest : UInt32) (hf : 0 < f) (hb : 0 < b) :
    (∀ tr s, Run step (.configured maxFrames maxBytes f b) tr s → Offers largest tr →
        s.frameQueue.length ≤ f.toNat ∧ bytes s.frameQueue ≤ b.toNat) ↔
      Enforceable maxFrames maxBytes f b largest := by
  constructor
  · intro hall
    rw [configured_eq] at hall
    have hframes : 0 < maxFrames := by
      by_contra hframes
      rw [if_neg hframes] at hall
      obtain ⟨tr, s, hrun, hoffers, hlength⟩ :=
        exceeds_frames 0 (if 0 < maxBytes then b else 0) largest (.inl rfl) (f.toNat + 1)
      have := (hall tr s hrun hoffers).1
      omega
    rw [if_pos hframes] at hall
    refine ⟨hframes, ?_, ?_⟩
    · by_contra hmax
      have hlt := f.toNat_lt
      obtain ⟨tr, s, hrun, hoffers, hlength⟩ :=
        exceeds_frames f (if 0 < maxBytes then b else 0) largest (.inr (by omega)) (f.toNat + 1)
      have := (hall tr s hrun hoffers).1
      omega
    · by_cases hbytes : 0 < maxBytes
      · rw [if_pos hbytes] at hall ⊢
        by_contra hwraps
        obtain ⟨tr, s, hrun, hoffers, htotal⟩ := exceeds_wrapped f b largest hf (by omega)
        have := (hall tr s hrun hoffers).2
        have := b.toNat_lt
        omega
      · rw [if_neg hbytes] at hall ⊢
        obtain ⟨tr, s, hrun, hoffers, htotal⟩ := exceeds_bytes f largest
        exact htotal ▸ (hall tr s hrun hoffers).2
  · intro henforceable tr s hrun hoffers
    obtain ⟨hwithin, _⟩ := within_of_run hf hb henforceable hrun hoffers
    have hlength := hwithin.frames
    have hbytes := hwithin.bytes
    simp only [held, length_append, bytes_append] at hlength hbytes
    omega

theorem limits_enforced_iff_ethernet :
    Enforceable 1 1 10 15000 1514 ∧
      ((∀ tr s, Run step (.configured 1 1 10 15000) tr s → Offers 1514 tr →
          s.frameQueue.length ≤ UInt32.toNat 10 ∧ bytes s.frameQueue ≤ UInt32.toNat 15000) ↔
        Enforceable 1 1 10 15000 1514) :=
  ⟨⟨by decide, by decide, by decide⟩, limits_enforced_iff 1 1 10 15000 1514 (by decide) (by decide)⟩

/-- The limits of a new buffer stay at zero, and the queue grows beyond one frame and
beyond 1000 bytes. -/
theorem limits_not_enforced :
    ∃ tr s, Run step ((Buffer.new.setMaxFrames 1).setMaxBytes 1000) tr s ∧
      s.frameQueue.length = 2 ∧ bytes s.frameQueue = 1200 := by
  have hrun : replays step ((new.setMaxFrames 1).setMaxBytes 1000)
      [.read (some 600), .count, .store, .read (some 600), .count, .store] = true := by decide
  exact ⟨_, _, run_of_replays hrun, by decide, by decide⟩

end WormsAttack.Distack.FrameBuffer
