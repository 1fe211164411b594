/-
  How an event travels from the simulation to the policy server.

  Sources: ReaSE/src/applications/ponder/EventPublisher.cc (`publish`) and
  deliverable/ponder2/src/net/ponder2/managedobject/Ponder2Broker.java
  (`Ponder2BrokerThread.run`).

  The publisher writes the event name and the arguments, each followed by a semicolon.  The
  broker reads one line and splits it at semicolons.  Nothing is escaped, and the tokenizer
  drops empty tokens.

  BYTES AND CHARACTERS.  The broker decodes the bytes with the platform's charset, of which the
  model assumes only that it agrees with ASCII on the bytes below 128.
-/
import WormsAttack.Foundation.Tokens
import WormsAttack.Ids.Publication

namespace WormsAttack.Ponder

open Foundation Inet List

inductive Fault
  /-- `strcpy` writes beyond `data[1024]` -/
  | overflow
  /-- `readLine` returned null, and the tokenizer dereferences it -/
  | nullPointer
  | noSuchElement

/-! ## The publisher -/

def bytes (s : String) : List UInt8 := s.toByteArray.data.toList

def outputLine (event : String) (args : List String) : String :=
  args.foldl (fun line arg => line ++ arg ++ ";") (event ++ ";")

/-- `publish`: the bytes that are sent.  `strcpy` and `strlen` stop at a zero byte. -/
def publish (event : String) (args : List String) : Except Fault (List UInt8) :=
  let data := (bytes (outputLine event args)).takeWhile (· ≠ 0)
  if data.length < 1024 then .ok data else .error .overflow

/-! ## The broker -/

structure Charset where
  decode : List UInt8 → List Char
  ascii : ∀ bs : List UInt8, (∀ b ∈ bs, b.toNat < 128) →
    decode bs = bs.map fun b => Char.ofNat b.toNat

def latin1 : Charset where
  decode bs := bs.map fun b => Char.ofNat b.toNat
  ascii _ _ := rfl

def isLineEnd (c : Char) : Bool := c == '\r' || c == '\n'

/-- `readLine`: the text before the first line end; null if there is no text. -/
def readLine (text : List Char) : Option (List Char) :=
  if text.isEmpty then none else some (text.takeWhile (!isLineEnd ·))

/-- `run`: the event that is raised, with its arguments. -/
def Ponder2BrokerThread.run (charset : Charset) (stream : List UInt8) :
    Except Fault (String × List String) :=
  match readLine (charset.decode stream) with
  | none => .error .nullPointer
  | some inputLine =>
      match nextToken (· == ';') inputLine with
      | none => .error .noSuchElement
      | some (eventName, rest) =>
          .ok (String.ofList eventName, (tokens (· == ';') rest).map String.ofList)

/-- What the broker raises when the whole line is delivered before the connection is closed. -/
def transmit (charset : Charset) (event : String) (args : List String) :
    Except Fault (String × List String) := do
  let stream ← publish event args
  Ponder2BrokerThread.run charset stream

/-! ## ASCII -/

def IsText (s : String) : Prop := ∀ c ∈ s.toList, 0 < c.toNat ∧ c.toNat < 128

instance (s : String) : Decidable (IsText s) := List.decidableBAll _ s.toList

variable {s event : String} {args : List String}

theorem bytes_text (h : IsText s) : bytes s = s.toList.map fun c => UInt8.ofNat c.toNat := by
  have hencode : bytes s = s.toList.flatMap String.utf8EncodeChar := by
    rw [bytes, ← String.utf8Encode_toList, utf8Encode]
    simp
  rw [hencode, map_eq_flatMap]
  refine flatMap_congr fun c hc => ?_
  have hle : c.val.toNat ≤ 127 := Nat.le_of_lt_succ (h c hc).2
  rw [String.utf8EncodeChar]
  simp only [hle, if_true]
  rfl

theorem toNat_ofNat_ascii {n : Nat} (h : n < 128) : (UInt8.ofNat n).toNat = n := by
  rw [UInt8.toNat_ofNat']
  omega

theorem takeWhile_bytes (h : IsText s) : (bytes s).takeWhile (· ≠ 0) = bytes s := by
  rw [bytes_text h, takeWhile_eq_self_iff]
  intro b hb
  obtain ⟨c, hc, rfl⟩ := mem_map.mp hb
  have hpos := (h c hc).1
  have hcode := toNat_ofNat_ascii (h c hc).2
  simp only [ne_eq, decide_not, Bool.not_eq_true', decide_eq_false_iff_not]
  intro hzero
  rw [hzero] at hcode
  simp at hcode
  omega

theorem decode_bytes (charset : Charset) (h : IsText s) : charset.decode (bytes s) = s.toList := by
  have hascii : ∀ b ∈ bytes s, b.toNat < 128 := by
    intro b hb
    rw [bytes_text h] at hb
    obtain ⟨c, hc, rfl⟩ := mem_map.mp hb
    rw [toNat_ofNat_ascii (h c hc).2]
    exact (h c hc).2
  rw [charset.ascii _ hascii, bytes_text h, map_map]
  refine (map_congr_left fun c hc => ?_).trans (map_id _)
  simp [toNat_ofNat_ascii (h c hc).2]

/-! ## The line -/

theorem toList_outputLine (event : String) (args : List String) :
    (outputLine event args).toList =
      ((event :: args).map String.toList).flatMap (· ++ [';']) := by
  have hfold : ∀ (args : List String) (line : String),
      (args.foldl (fun line arg => line ++ arg ++ ";") line).toList =
        line.toList ++ (args.map String.toList).flatMap (· ++ [';']) := by
    intro args
    induction args with
    | nil => simp
    | cons arg args ih =>
      intro line
      rw [foldl_cons, ih]
      simp
  rw [outputLine, hfold]
  simp

theorem isText_outputLine (h : ∀ s ∈ event :: args, IsText s) : IsText (outputLine event args) := by
  intro c hc
  rw [toList_outputLine, flatMap_map, mem_flatMap] at hc
  obtain ⟨s, hs, hc⟩ := hc
  rcases mem_append.mp hc with hc | hc
  · exact h s hs c hc
  · cases mem_singleton.mp hc
    decide

def Plain (s : String) : Prop := ∀ c ∈ s.toList, c ≠ ';' ∧ c ≠ '\r' ∧ c ≠ '\n'

instance (s : String) : Decidable (Plain s) := List.decidableBAll _ s.toList

theorem map_ofList_eq_iff {words : List (List Char)} {ss : List String} :
    words.map String.ofList = ss ↔ words = ss.map String.toList := by
  constructor
  · rintro rfl
    simp
  · rintro rfl
    simp

section

variable (charset : Charset) (htext : ∀ s ∈ event :: args, IsText s)
  (hlength : (bytes (outputLine event args)).length < 1024)

include htext hlength

theorem transmit_eq_ok_iff {eventName : String} {params : List String} :
    transmit charset event args = .ok (eventName, params) ↔
      tokens (· == ';') ((outputLine event args).toList.takeWhile (!isLineEnd ·)) =
        (eventName :: params).map String.toList := by
  have hline := isText_outputLine htext
  have hpublish : publish event args = .ok (bytes (outputLine event args)) := by
    simp only [publish, takeWhile_bytes hline, hlength, if_true]
  have hread : readLine (charset.decode (bytes (outputLine event args))) =
      some ((outputLine event args).toList.takeWhile (!isLineEnd ·)) := by
    rw [decode_bytes charset hline, readLine, if_neg]
    rw [toList_outputLine]
    simp
  rw [transmit, hpublish]
  change Ponder2BrokerThread.run charset _ = _ ↔ _
  rw [Ponder2BrokerThread.run, hread, tokens_eq]
  cases hnext : nextToken (· == ';') ((outputLine event args).toList.takeWhile (!isLineEnd ·)) with
  | none => simp [hnext]
  | some found =>
    simp only [hnext, Except.ok.injEq, Prod.mk.injEq, map_cons, cons.injEq]
    refine and_congr ?_ map_ofList_eq_iff
    rw [← String.toList_inj, String.toList_ofList]

theorem plain_of_arrives (h : transmit charset event args = .ok (event, args)) :
    ∀ s ∈ event :: args, s ≠ "" ∧ Plain s := by
  have htokens := (transmit_eq_ok_iff charset htext hlength).mp h
  intro s hs
  have hmem := mem_map_of_mem (f := String.toList) hs
  rw [← htokens] at hmem
  obtain ⟨hne, hchars⟩ := mem_tokens hmem
  refine ⟨fun hempty => hne (by simp [hempty]), fun c hc => ?_⟩
  obtain ⟨hline, hdelim⟩ := hchars c hc
  have hend := mem_takeWhile_imp hline
  simpa [isLineEnd] using And.intro hdelim hend

theorem arrives_of_plain (h : ∀ s ∈ event :: args, s ≠ "" ∧ Plain s) :
    transmit charset event args = .ok (event, args) := by
  have hline : (outputLine event args).toList.takeWhile (!isLineEnd ·) =
      (outputLine event args).toList := by
    rw [takeWhile_eq_self_iff, toList_outputLine]
    intro c hc
    rw [flatMap_map, mem_flatMap] at hc
    obtain ⟨s, hs, hc⟩ := hc
    rcases mem_append.mp hc with hc | hc
    · simpa [isLineEnd] using ((h s hs).2 c hc).2
    · cases mem_singleton.mp hc
      rfl
  rw [transmit_eq_ok_iff charset htext hlength, hline, toList_outputLine]
  refine tokens_terminated rfl fun word hword => ?_
  obtain ⟨s, hs, rfl⟩ := mem_map.mp hword
  obtain ⟨hne, hplain⟩ := h s hs
  refine ⟨fun hnil => hne (String.toList_eq_nil_iff.mp hnil), fun c hc => ?_⟩
  simpa using (hplain c hc).1

end

/-- The broker raises the event that was published if and only if all strings are non-empty and
hold neither a semicolon nor a line end. -/
theorem event_arrives_iff (charset : Charset) {event : String} {args : List String}
    (htext : ∀ s ∈ event :: args, IsText s)
    (hlength : (bytes (outputLine event args)).length < 1024) :
    transmit charset event args = .ok (event, args) ↔
      event ≠ "" ∧ (∀ arg ∈ args, arg ≠ "") ∧ ∀ s ∈ event :: args, Plain s := by
  constructor
  · intro h
    have hall := plain_of_arrives charset htext hlength h
    exact ⟨(hall event mem_cons_self).1,
      fun arg harg => (hall arg (mem_cons_of_mem _ harg)).1, fun s hs => (hall s hs).2⟩
  · rintro ⟨hevent, hargs, hplain⟩
    refine arrives_of_plain charset htext hlength fun s hs => ⟨?_, hplain s hs⟩
    rcases mem_cons.mp hs with rfl | hs
    · exact hevent
    · exact hargs s hs

theorem event_arrives_intrusion :
    transmit latin1 "intrusion" ["0.0.0.5"] = .ok ("intrusion", ["0.0.0.5"]) :=
  (event_arrives_iff latin1 (by decide +kernel) (by decide +kernel)).mpr (by decide +kernel)

/-! ## The detector's events -/

theorem str_plain (a : IPAddress) : IsText a.str ∧ a.str ≠ "" ∧ Plain a.str := by
  have hall := IPAddress.forall_mem_str (p := fun c => decide
    ((0 < c.toNat ∧ c.toNat < 128) ∧ c ≠ ';' ∧ c ≠ '\r' ∧ c ≠ '\n')) (by decide) (by decide) a
  refine ⟨fun c hc => (of_decide_eq_true (hall c hc)).1, ?_,
    fun c hc => (of_decide_eq_true (hall c hc)).2⟩
  intro hempty
  have hnone : IPAddress.parse "" = none := by decide
  cases hnone.symm.trans (hempty ▸ a.parse_str)

theorem published_arrives (charset : Charset) {x x' : Ids.IDSModule} {m : Message}
    {out : List Ids.Action} (h : Ids.handleMessage x m = .ok (x', out)) {name : String}
    {values : List String} (hmem : Ids.Action.publish name values ∈ out) :
    transmit charset name values = .ok (name, values) := by
  obtain ⟨a, rfl, rfl⟩ := Ids.publish_shape h hmem
  have hboth : ∀ s ∈ ["intrusion", a.str], IsText s ∧ s ≠ "" ∧ Plain s :=
    forall_mem_cons.mpr ⟨by decide, forall_mem_singleton.mpr (str_plain a)⟩
  have htext : ∀ s ∈ ["intrusion", a.str], IsText s := fun s hs => (hboth s hs).1
  refine arrives_of_plain charset htext ?_ fun s hs => (hboth s hs).2
  rw [bytes_text (isText_outputLine htext), length_map, toList_outputLine]
  have hlength : "intrusion".toList.length + a.str.toList.length ≤ 24 :=
    Nat.add_le_add_left a.length_str_le 9
  simp only [map_cons, map_nil, flatMap_cons, flatMap_nil, length_append, length_singleton,
    length_nil]
  omega

theorem published_arrives_probe :
    transmit latin1 "intrusion" ["0.0.0.5"] = .ok ("intrusion", ["0.0.0.5"]) :=
  published_arrives latin1
    (x := replayState Ids.handleMessage (Ids.initial (6 / 10)) [Ids.unreachableMessage 1])
    (m := Ids.unreachableMessage 2) rfl (by decide +kernel)

end WormsAttack.Ponder
