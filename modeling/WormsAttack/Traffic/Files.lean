/-
  The file of the traffic profiles, printed and read again.

  Sources: ReaSE/simulations/traffic_profiles.parameters, which shows the format, and
  ReaSE/src/base/TrafficProfileManager.cc (`initialize`).

  `printFile` prints profiles in the format of the shipped file, and `readFile` is the loop of
  `initialize`.  The two do not agree on two names: the file says `RequestsPerSession` and
  `Hoplimit`, the loop looks for `RequestPerSession` and `HopLimit`.

  A label that is read has no `<`, no line break and no character with the value 0 in it,
  whatever the file is.

  NUMBERS.  An `int` is an `Int32`.  A `double` is printed with a point and any digits behind
  it; it is read as the exact value of what is printed.
-/
import Mathlib.Data.List.Find
import Mathlib.Data.List.Forall2
import Mathlib.Data.List.TakeWhile
import WormsAttack.Foundation.Numerals
import WormsAttack.Foundation.Run
import WormsAttack.Traffic.Profiles

namespace WormsAttack.Traffic

open Foundation

/-! ## The format -/

structure Entry where
  profileID : Int32
  label : List Char
  requestLength : Int32
  requestsPerSession : Int32
  replyLength : Int32
  replyPerRequest : Int32
  timeBetweenRequests : Decimal
  timeToRespond : Decimal
  timeBetweenSessions : Decimal
  probability : Decimal
  WANprob : Decimal
  hopLimit : Int32

def fieldLine (tag : String) (value : List Char) : List Char :=
  '\t' :: '<' :: (tag.toList ++ ['>']) ++ '<' :: (value ++ ['>'])

def Entry.numbers (e : Entry) : List (String × List Char) :=
  [("RequestLength", intNumeral e.requestLength.toInt),
    ("RequestsPerSession", intNumeral e.requestsPerSession.toInt),
    ("ReplyLength", intNumeral e.replyLength.toInt),
    ("ReplyPerRequest", intNumeral e.replyPerRequest.toInt),
    ("TimeBetweenRequests", e.timeBetweenRequests.numeral),
    ("TimeToRespond", e.timeToRespond.numeral),
    ("TimeBetweenSessions", e.timeBetweenSessions.numeral),
    ("Ratio", e.probability.numeral),
    ("WANRatio", e.WANprob.numeral),
    ("Hoplimit", intNumeral e.hopLimit.toInt)]

def Entry.fields (e : Entry) : List (String × List Char) :=
  ("Id", intNumeral e.profileID.toInt) :: ("Label", e.label) :: e.numbers

/-- The shipped file has a carriage return on a line of its own between two profiles. -/
def Entry.lines (e : Entry) : List (List Char) :=
  "<Profile>".toList :: (e.fields.map fun f => fieldLine f.1 f.2) ++ ["</Profile>".toList, ['\r']]

def printFile (es : List Entry) : List Char := ['\n'].intercalate (es.flatMap Entry.lines ++ [[]])

def cString (line : List Char) : List Char := line.takeWhile (· ≠ '\x00')

/-- The loop of `initialize`, for files in which there may be characters with the value 0. -/
def readFile (ports : Nat → Nat) (text : List Char) : Except Stop (List TrafficProfile) := do
  let r ← ((lines 255 text).map cString).foldlM (readLine ports) { profiles := [], current := none }
  .ok r.profiles

structure Entry.Reads (e : Entry) (t : TrafficProfile) : Prop where
  profileID : t.profileID = e.profileID.toInt
  label : t.label = e.label
  requestLength : t.requestLength = e.requestLength.toInt
  requestsPerSession : t.requestsPerSession = e.requestsPerSession.toInt
  replyLength : t.replyLength = e.replyLength.toInt
  replyPerRequest : t.replyPerRequest = e.replyPerRequest.toInt
  timeBetweenRequests : t.timeBetweenRequests = .finite e.timeBetweenRequests.value
  timeToRespond : t.timeToRespond = .finite e.timeToRespond.value
  timeBetweenSessions : t.timeBetweenSessions = .finite e.timeBetweenSessions.value
  probability : t.probability = .finite e.probability.value
  WANprob : t.WANprob = .finite e.WANprob.value
  hopLimit : t.hopLimit = e.hopLimit.toInt

/-! ## Tags -/

/-- The word in angle brackets is at the beginning of a text that an angle bracket closes. -/
def opens (word : String) (text : List Char) : Bool := word.toList.tail.isPrefixOf (text ++ ['>'])

/-- A word that begins with an angle bracket, and does not look like a number behind it. -/
def isTag (word : String) : Bool :=
  match word.toList with
  | '<' :: c :: name => decide ('<' ∉ c :: name) && !isNumeral c && c != '>'
  | _ => false

variable {word : String} {text value : List Char} {tag : String} {e : Entry}

theorem isTag_iff :
    isTag word = true ↔ ∃ c name, word.toList = '<' :: c :: name ∧ '<' ∉ c :: name ∧
      isNumeral c = false ∧ c ≠ '>' := by
  unfold isTag
  split
  · rename_i c name hword
    simp [hword, and_assoc]
  · rename_i hno
    refine iff_of_false Bool.false_ne_true ?_
    rintro ⟨c, name, hword, -⟩
    exact hno c name hword

theorem isTag_tags : ∀ p ∈ tags, isTag p.1 = true := by
  decide

theorem strstr_iff : strstr word text = true ↔ word.toList <:+: text := after?_isSome

/-- A tag is found in a line where a bracket opens: at the name of the field or at its value. -/
theorem strstr_fieldLine (hword : isTag word = true) (htag : '<' ∉ tag.toList)
    (hvalue : '<' ∉ value) :
    strstr word (fieldLine tag value) = (opens word tag.toList || opens word value) := by
  obtain ⟨c, name, hlist, hsep, -, -⟩ := isTag_iff.mp hword
  have htag' : '<' ∉ tag.toList ++ ['>'] := by simp [htag]
  have hvalue' : '<' ∉ value ++ ['>'] := by simp [hvalue]
  have hlast : ¬ '<' :: c :: name <:+: value ++ ['>'] :=
    fun h => hvalue' (h.subset List.mem_cons_self)
  have hline : fieldLine tag value =
      ['\t'] ++ '<' :: ((tag.toList ++ ['>']) ++ '<' :: (value ++ ['>'])) := rfl
  rw [Bool.eq_iff_iff, strstr_iff, hlist, hline, sep_infix_append (by decide),
    prefix_append_sep hsep, sep_infix_append htag', or_iff_left hlast, Bool.or_eq_true, opens,
    opens, hlist, List.tail_cons, List.isPrefixOf_iff_prefix, List.isPrefixOf_iff_prefix]

theorem opens_numeral (hword : isTag word = true) (hvalue : ∀ c ∈ value, isNumeral c = true) :
    opens word value = false := by
  obtain ⟨c, name, hlist, -, hc, hne⟩ := isTag_iff.mp hword
  rw [Bool.eq_false_iff, opens, hlist, List.tail_cons, Ne, List.isPrefixOf_iff_prefix]
  intro h
  rcases List.mem_append.mp (h.subset List.mem_cons_self) with hmem | hmem
  · exact Bool.noConfusion (hc.symm.trans (hvalue c hmem))
  · exact hne (List.mem_singleton.mp hmem)

theorem getOffset_fieldLine (hvalue : '<' ∉ value) :
    getOffset (fieldLine tag value) = some value := by
  have hvalue' : '<' ∉ value ++ ['>'] := by simp [hvalue]
  rw [getOffset, fieldLine, afterLast_append hvalue', Option.map_some,
    beforeLast_append List.not_mem_nil, Option.getD_some]

theorem notMem_fieldLine {c : Char} (hc : c ∉ ['\t', '<', '>']) (htag : c ∉ tag.toList)
    (hvalue : c ∉ value) : c ∉ fieldLine tag value := by
  simp only [List.mem_cons, List.not_mem_nil, or_false, not_or] at hc
  simp [fieldLine, hc, htag, hvalue]

theorem strstr_comment (htag : '#' ∉ tag.toList) (hvalue : '#' ∉ value) :
    strstr "#" (fieldLine tag value) = false := by
  rw [Bool.eq_false_iff, Ne, strstr_iff]
  intro h
  exact notMem_fieldLine (by decide) htag hvalue (h.subset List.mem_cons_self)

/-! ## A line of the file -/

/-- A name of a field that is neither a comment nor the name of a profile. -/
def isFieldName (tag : String) : Bool :=
  decide ('<' ∉ tag.toList) && decide ('#' ∉ tag.toList) && !opens "<Profile>" tag.toList &&
    !opens "</Profile>" tag.toList

theorem notMem_of_isNumeral {d : Char} (hd : isNumeral d = false)
    (hvalue : ∀ c ∈ value, isNumeral c = true) : d ∉ value :=
  fun h => Bool.noConfusion (hd.symm.trans (hvalue d h))

section Lines

variable {ports : Nat → Nat} {profiles : List TrafficProfile} {t : TrafficProfile} {tag : String}
  {value : List Char}

theorem readLine_numeral (htag : isFieldName tag = true)
    (hvalue : ∀ c ∈ value, isNumeral c = true) :
    readLine ports ⟨profiles, some t⟩ (fieldLine tag value) =
      match tags.find? (opens ·.1 tag.toList) with
      | some (_, set) =>
          match set t value with
          | none => .error .undefined
          | some t => .ok ⟨profiles, some t⟩
      | none => .ok ⟨profiles, some t⟩ := by
  have hbracket := notMem_of_isNumeral (d := '<') rfl hvalue
  have hcomment := notMem_of_isNumeral (d := '#') rfl hvalue
  simp only [isFieldName, Bool.and_eq_true, decide_eq_true_eq, Bool.not_eq_true'] at htag
  obtain ⟨⟨⟨hplain, hhash⟩, hbegin⟩, hend⟩ := htag
  have hfind : ∀ word, isTag word = true →
      strstr word (fieldLine tag value) = opens word tag.toList := by
    intro word hword
    rw [strstr_fieldLine hword hplain hbracket, opens_numeral hword hvalue, Bool.or_false]
  unfold readLine
  rw [strstr_comment hhash hcomment, hfind "<Profile>" (by decide), hbegin,
    hfind "</Profile>" (by decide), hend,
    List.find?_congr fun p hp => hfind p.1 (isTag_tags p hp), getOffset_fieldLine hbracket]
  rfl

theorem readLine_known {tag word : String} (htag : isFieldName tag = true)
    {set : TrafficProfile → List Char → Option TrafficProfile}
    (hfind : tags.find? (opens ·.1 tag.toList) = some (word, set)) {value : List Char}
    (hvalue : ∀ c ∈ value, isNumeral c = true) {t' : TrafficProfile}
    (hset : set t value = some t') :
    readLine ports ⟨profiles, some t⟩ (fieldLine tag value) = .ok ⟨profiles, some t'⟩ := by
  rw [readLine_numeral htag hvalue, hfind]
  dsimp only
  rw [hset]

theorem readLine_unknown (htag : isFieldName tag = true)
    (hfind : tags.find? (opens ·.1 tag.toList) = none) (hvalue : ∀ c ∈ value, isNumeral c = true) :
    readLine ports ⟨profiles, some t⟩ (fieldLine tag value) = .ok ⟨profiles, some t⟩ := by
  rw [readLine_numeral htag hvalue, hfind]

theorem atoi_of_opens {label : List Char} (h : opens "<Id>" label = true) :
    atoi label = some 0 := by
  rw [opens, List.isPrefixOf_iff_prefix] at h
  cases label with
  | nil => exact absurd h (by decide)
  | cons c label =>
    obtain rfl : 'I' = c := (List.cons_prefix_cons.mp h).1
    rfl

/-- What the line of the label does to the profile: a label may look like another tag. -/
def labelled (t : TrafficProfile) (label : List Char) : TrafficProfile :=
  if opens "<Profile>" label then .new
  else if opens "<Id>" label then { t with profileID := 0 }
  else { t with label := label }

theorem readLine_label {label : List Char} (hbracket : '<' ∉ label) (hcomment : '#' ∉ label) :
    readLine ports ⟨profiles, some t⟩ (fieldLine "Label" label) =
      .ok ⟨profiles, some (labelled t label)⟩ := by
  have hfind : ∀ word, isTag word = true → strstr word (fieldLine "Label" label) =
      (opens word "Label".toList || opens word label) :=
    fun word hword => strstr_fieldLine hword (by decide) hbracket
  have hbegin : strstr "<Profile>" (fieldLine "Label" label) = opens "<Profile>" label :=
    hfind _ (by decide)
  have hid : strstr "<Id>" (fieldLine "Label" label) = opens "<Id>" label := hfind _ (by decide)
  have hlabel : strstr "<Label>" (fieldLine "Label" label) = true := hfind _ (by decide)
  unfold readLine labelled
  rw [strstr_comment (by decide) hcomment, hbegin]
  cases hprofile : opens "<Profile>" label with
  | true => rfl
  | false =>
    rw [tags, List.find?_cons, hid, List.find?_cons, hlabel, getOffset_fieldLine hbracket]
    cases hopens : opens "<Id>" label with
    | true =>
      dsimp only
      rw [atoi_of_opens hopens]
      rfl
    | false => rfl

end Lines

/-! ## A profile of the file -/

theorem atoi_int32 (n : Int32) : atoi (intNumeral n.toInt) = some n.toInt :=
  atoi_intNumeral n.le_toInt (Int.le_of_lt_add_one n.toInt_lt)

def Entry.measured (e : Entry) (t : TrafficProfile) : TrafficProfile :=
  { t with
    requestLength := e.requestLength.toInt
    replyLength := e.replyLength.toInt
    replyPerRequest := e.replyPerRequest.toInt
    timeBetweenRequests := .finite e.timeBetweenRequests.value
    timeToRespond := .finite e.timeToRespond.value
    timeBetweenSessions := .finite e.timeBetweenSessions.value
    probability := .finite e.probability.value
    WANprob := .finite e.WANprob.value }

def Entry.kept (e : Entry) : Bool :=
  !opens "<Profile>" e.label && !opens "<Id>" e.label && decide (e.label ≠ "unspec".toList) &&
    decide (e.profileID ≠ -1)

def Entry.profile (e : Entry) : TrafficProfile :=
  e.measured { TrafficProfile.new with profileID := e.profileID.toInt, label := e.label }

def Entry.IsRead (e : Entry) (t : TrafficProfile) : Prop :=
  t = { e.profile with ownPort := t.ownPort }

section Blocks

variable (ports : Nat → Nat) (profiles : List TrafficProfile) (t : TrafficProfile) (e : Entry)

theorem foldlM_of_ok {σ α φ : Type} {body : σ → α → Except φ σ} {a : α} {x y : σ}
    (h : body x a = .ok y) (as : List α) : (a :: as).foldlM body x = as.foldlM body y := by
  rw [List.foldlM_cons, h]
  rfl

theorem read_numbers (after : List (List Char)) :
    ((e.numbers.map fun f => fieldLine f.1 f.2) ++ after).foldlM (readLine ports)
        ⟨profiles, some t⟩ =
      after.foldlM (readLine ports) ⟨profiles, some (e.measured t)⟩ := by
  have hint : ∀ n : Int32, ∀ c ∈ intNumeral n.toInt, isNumeral c = true :=
    fun n => isNumeral_intNumeral n.toInt
  have hset : ∀ (n : Int32) (f : Int → TrafficProfile),
      (atoi (intNumeral n.toInt)).map f = some (f n.toInt) :=
    fun n f => by rw [atoi_int32]; rfl
  rw [Entry.numbers]
  simp only [List.map_cons, List.map_nil, List.cons_append, List.nil_append]
  refine (foldlM_of_ok (readLine_known rfl rfl (hint _) (hset _ _)) _).trans ?_
  refine (foldlM_of_ok (readLine_unknown rfl rfl (hint _)) _).trans ?_
  refine (foldlM_of_ok (readLine_known rfl rfl (hint _) (hset _ _)) _).trans ?_
  refine (foldlM_of_ok (readLine_known rfl rfl (hint _) (hset _ _)) _).trans ?_
  iterate 5
    refine (foldlM_of_ok (readLine_known rfl rfl (isNumeral_numeral _) rfl) _).trans ?_
  refine (foldlM_of_ok (readLine_unknown rfl rfl (hint _)) _).trans ?_
  simp only [atof_numeral]
  rfl

theorem readLine_return {r : Reader} (h : r.current = none) : readLine ports r ['\r'] = .ok r := by
  obtain ⟨profiles, current⟩ := r
  cases h
  rfl

theorem current_close (r : Reader) : (r.close ports t).current = none := by
  unfold Reader.close
  split
  · rfl
  · split <;> rfl

theorem read_lines (hbracket : '<' ∉ e.label) (hcomment : '#' ∉ e.label) :
    e.lines.foldlM (readLine ports) ⟨profiles, none⟩ =
      .ok (Reader.close ports ⟨profiles, none⟩ (e.measured
        (labelled { TrafficProfile.new with profileID := e.profileID.toInt } e.label))) := by
  have hid : (atoi (intNumeral e.profileID.toInt)).map
      (fun n => { TrafficProfile.new with profileID := n }) =
        some { TrafficProfile.new with profileID := e.profileID.toInt } := by
    rw [atoi_int32]
    rfl
  rw [Entry.lines, Entry.fields]
  simp only [List.map_cons, List.cons_append]
  refine (foldlM_of_ok rfl _).trans ?_
  refine (foldlM_of_ok (readLine_known rfl rfl (isNumeral_intNumeral _) hid) _).trans ?_
  refine (foldlM_of_ok (readLine_label hbracket hcomment) _).trans ?_
  refine (read_numbers ports profiles _ e _).trans ?_
  refine (foldlM_of_ok (readLine_return ports (current_close ports _ _)) _).trans ?_
  rfl

variable {t} in
theorem close_of_unspecified (h : t.label = "unspec".toList ∨ t.profileID = -1) :
    Reader.close ports ⟨profiles, none⟩ t = ⟨profiles, none⟩ := by
  unfold Reader.close
  split
  · rfl
  · rename_i hlabel
    exact if_pos (h.resolve_left hlabel)

variable {e} in
theorem close_of_not_kept (h : e.kept = false) :
    Reader.close ports ⟨profiles, none⟩ (e.measured
      (labelled { TrafficProfile.new with profileID := e.profileID.toInt } e.label)) =
        ⟨profiles, none⟩ := by
  apply close_of_unspecified
  unfold labelled
  cases hprofile : opens "<Profile>" e.label with
  | true => exact .inl rfl
  | false =>
    cases hid : opens "<Id>" e.label with
    | true => exact .inl rfl
    | false =>
      simp only [Entry.kept, hprofile, hid, Bool.not_false, Bool.true_and, Bool.and_eq_false_iff,
        decide_eq_false_iff_not, not_not] at h
      exact h.imp id (congrArg Int32.toInt)

variable {e} in
theorem close_of_kept (h : e.kept = true) :
    ∃ t, e.IsRead t ∧ Reader.close ports ⟨profiles, none⟩ (e.measured
      (labelled { TrafficProfile.new with profileID := e.profileID.toInt } e.label)) =
        ⟨profiles ++ [t], none⟩ := by
  simp only [Entry.kept, Bool.and_eq_true, Bool.not_eq_true', decide_eq_true_eq] at h
  obtain ⟨⟨⟨hprofile, hid⟩, hlabel⟩, hnumber⟩ := h
  have hnumber' : e.profileID.toInt ≠ -1 := fun heq => hnumber (Int32.toInt_inj.mp heq)
  unfold labelled
  rw [hprofile, hid]
  refine ⟨_, ?_, (if_neg hlabel).trans (if_neg hnumber')⟩
  exact rfl

variable {e} in
theorem read_entry (hbracket : '<' ∉ e.label) (hcomment : '#' ∉ e.label) :
    ∃ added, e.lines.foldlM (readLine ports) ⟨profiles, none⟩ = .ok ⟨profiles ++ added, none⟩ ∧
      List.Forall₂ Entry.IsRead ([e].filter Entry.kept) added := by
  rw [read_lines ports profiles e hbracket hcomment]
  cases hkept : e.kept with
  | false =>
    refine ⟨[], ?_, ?_⟩
    · rw [close_of_not_kept ports profiles hkept, List.append_nil]
    · rw [List.filter_cons_of_neg (by simp [hkept])]
      exact .nil
  | true =>
    obtain ⟨t, hread, hclose⟩ := close_of_kept ports profiles hkept
    refine ⟨[t], by rw [hclose], ?_⟩
    rw [List.filter_cons_of_pos hkept]
    exact .cons hread .nil

theorem read_entries {es : List Entry} (hbracket : ∀ e ∈ es, '<' ∉ e.label)
    (hcomment : ∀ e ∈ es, '#' ∉ e.label) :
    ∃ added, (es.flatMap Entry.lines).foldlM (readLine ports) ⟨profiles, none⟩ =
      .ok ⟨profiles ++ added, none⟩ ∧ List.Forall₂ Entry.IsRead (es.filter Entry.kept) added := by
  induction es generalizing profiles with
  | nil => exact ⟨[], by rw [List.append_nil]; rfl, .nil⟩
  | cons e es ih =>
    obtain ⟨hbracket, hbrackets⟩ := List.forall_mem_cons.mp hbracket
    obtain ⟨hcomment, hcomments⟩ := List.forall_mem_cons.mp hcomment
    obtain ⟨first, hfirst, hread⟩ := read_entry ports profiles hbracket hcomment
    obtain ⟨rest, hrest, hreads⟩ := ih (profiles ++ first) hbrackets hcomments
    refine ⟨first ++ rest, ?_, ?_⟩
    · rw [List.flatMap_cons, List.foldlM_append, hfirst, ← List.append_assoc]
      exact hrest
    · rw [← List.singleton_append, List.filter_append]
      exact List.rel_append hread hreads

end Blocks

/-! ## The file -/

theorem numbers_isNumeral (e : Entry) : ∀ f ∈ e.numbers, ∀ c ∈ f.2, isNumeral c = true := by
  have hint : ∀ n : Int32, ∀ c ∈ intNumeral n.toInt, isNumeral c = true :=
    fun n => isNumeral_intNumeral n.toInt
  simp only [Entry.numbers, List.forall_mem_cons]
  exact ⟨hint _, hint _, hint _, hint _, isNumeral_numeral _, isNumeral_numeral _,
    isNumeral_numeral _, isNumeral_numeral _, isNumeral_numeral _, hint _, by simp⟩

theorem fields_tags (e : Entry) : ∀ f ∈ e.fields, '\n' ∉ f.1.toList ∧ '\x00' ∉ f.1.toList := by
  have htags : e.fields.map (·.1) = ["Id", "Label", "RequestLength", "RequestsPerSession",
    "ReplyLength", "ReplyPerRequest", "TimeBetweenRequests", "TimeToRespond",
    "TimeBetweenSessions", "Ratio", "WANRatio", "Hoplimit"] := rfl
  have hplain : ∀ tag ∈ e.fields.map (·.1), '\n' ∉ tag.toList ∧ '\x00' ∉ tag.toList := by
    rw [htags]
    decide
  exact fun f hf => hplain f.1 (List.mem_map_of_mem hf)

theorem notMem_lines {c : Char} (hc : c ∈ ['\n', '\x00']) (hlabel : c ∉ e.label) :
    ∀ line ∈ e.lines, c ∉ line := by
  have hcases : c = '\n' ∨ c = '\x00' := by simpa using hc
  have hother : isNumeral c = false ∧ c ∉ ['\t', '<', '>'] ∧ c ∉ "<Profile>".toList ∧
      c ∉ "</Profile>".toList ∧ c ∉ ['\r'] := by
    rcases hcases with rfl | rfl <;> decide
  obtain ⟨hnumeral, hbracket, hbegin, hend, hreturn⟩ := hother
  have htag : ∀ f ∈ e.fields, c ∉ f.1.toList := by
    intro f hf
    rcases hcases with rfl | rfl
    · exact (fields_tags e f hf).1
    · exact (fields_tags e f hf).2
  have hvalue : ∀ f ∈ e.fields, c ∉ f.2 :=
    List.forall_mem_cons.mpr ⟨notMem_of_isNumeral hnumeral (isNumeral_intNumeral _),
      List.forall_mem_cons.mpr ⟨hlabel,
        fun f hf => notMem_of_isNumeral hnumeral (numbers_isNumeral e f hf)⟩⟩
  intro line hline
  simp only [Entry.lines, List.mem_cons, List.mem_append, List.cons_append, List.mem_map,
    List.not_mem_nil, or_false] at hline
  rcases hline with rfl | ⟨f, hf, rfl⟩ | rfl | rfl
  · exact hbegin
  · exact notMem_fieldLine hbracket (htag f hf) (hvalue f hf)
  · exact hend
  · exact hreturn

theorem cString_eq {line : List Char} (h : '\x00' ∉ line) : cString line = line :=
  List.takeWhile_eq_self_iff.mpr fun _ hc => decide_eq_true fun heq => h (heq ▸ hc)

theorem readFile_eq_readProfiles (ports : Nat → Nat) (h : ∀ line ∈ lines 255 text, '\x00' ∉ line) :
    readFile ports text = readProfiles ports text := by
  have hsame : (lines 255 text).map cString = lines 255 text := by
    rw [List.map_congr_left fun line hline => cString_eq (h line hline), List.map_id']
  rw [readFile, readProfiles, hsame]

def Plain (label : List Char) : Prop := ∀ c ∈ ['<', '\n', '\x00'], c ∉ label

theorem readFile_printFile (ports : Nat → Nat) {es : List Entry}
    (hplain : ∀ e ∈ es, Plain e.label) (hcomment : ∀ e ∈ es, '#' ∉ e.label)
    (hshort : ∀ line ∈ (printFile es).splitOn '\n', line.length < 255) :
    ∃ profiles, readFile ports (printFile es) = .ok profiles ∧
      List.Forall₂ Entry.IsRead (es.filter Entry.kept) profiles := by
  have hline : ∀ c ∈ ['\n', '\x00'], ∀ line ∈ es.flatMap Entry.lines ++ [[]], c ∉ line := by
    intro c hc line hline
    rcases List.mem_append.mp hline with hline | hline
    · obtain ⟨e, he, hline⟩ := List.mem_flatMap.mp hline
      exact notMem_lines hc (hplain e he c (List.mem_cons_of_mem '<' hc)) line hline
    · rw [List.mem_singleton.mp hline]
      exact List.not_mem_nil
  have hlines : lines 255 (printFile es) = es.flatMap Entry.lines ++ [[]] := by
    rw [lines_eq_splitOn hshort, printFile]
    exact List.splitOn_intercalate '\n' (hline '\n' (by decide)) (by simp)
  obtain ⟨profiles, hread, hprofiles⟩ := read_entries ports []
    (fun e he => hplain e he '<' (by decide)) hcomment
  refine ⟨profiles, ?_, hprofiles⟩
  rw [readFile_eq_readProfiles ports (by rw [hlines]; exact hline _ (by decide)), readProfiles,
    hlines, List.foldlM_append, hread]
  rfl

/-! ## Labels that are read -/

theorem plain_iff {label : List Char} :
    Plain label ↔ '<' ∉ label ∧ '\n' ∉ label ∧ '\x00' ∉ label := by
  simp [Plain]

theorem plain_new : Plain TrafficProfile.new.label :=
  plain_iff.mpr (by decide)

theorem label_of_tags : ∀ p ∈ tags, ∀ t value t', p.2 t value = some t' →
    t'.label = t.label ∨ t'.label = value := by
  simp only [tags, List.forall_mem_cons]
  refine ⟨?_, ?label, ?_, ?_, ?_, ?_, ?_, ?_, ?_, ?_, ?_, ?_, ?_, by simp⟩ <;> intro t value t' h
  case label =>
    cases h
    exact .inr rfl
  all_goals
    first
    | obtain ⟨n, -, rfl⟩ := Option.map_eq_some_iff.mp h
      exact .inl rfl
    | cases h
      exact .inl rfl

theorem plain_getOffset {buf : List Char} (hbuf : ∀ c ∈ ['\n', '\x00'], c ∉ buf)
    (h : getOffset buf = some value) : Plain value := by
  obtain ⟨rest, hrest, rfl⟩ := Option.map_eq_some_iff.mp h
  obtain ⟨hbracket, hsuffix⟩ := afterLast_eq_some hrest
  have hsubset : (beforeLast '>' rest).getD rest ⊆ rest := by
    cases hbefore : beforeLast '>' rest with
    | none => exact List.Subset.refl rest
    | some value => exact (beforeLast_eq_some hbefore).subset
  refine List.forall_mem_cons.mpr ⟨fun hmem => hbracket (hsubset hmem), ?_⟩
  exact fun c hc hmem => hbuf c hc (hsuffix.subset (hsubset hmem))

structure Reader.Plain (r : Reader) : Prop where
  profiles : ∀ t ∈ r.profiles, Traffic.Plain t.label
  current : ∀ t ∈ r.current, Traffic.Plain t.label

theorem plain_close {r : Reader} (hr : r.Plain) {t : TrafficProfile} (ht : Plain t.label)
    (ports : Nat → Nat) : (r.close ports t).Plain := by
  have hnone : Reader.Plain ⟨r.profiles, none⟩ := ⟨hr.profiles, by simp⟩
  unfold Reader.close
  split
  · exact hnone
  split
  · exact hnone
  refine ⟨?_, by simp⟩
  intro u hu
  rcases List.mem_append.mp hu with hu | hu
  · exact hr.profiles u hu
  · rw [List.mem_singleton.mp hu]
    exact ht

theorem plain_readLine {ports : Nat → Nat} {buf : List Char}
    (hbuf : ∀ c ∈ ['\n', '\x00'], c ∉ buf) (r r' : Reader) (hr : r.Plain)
    (h : readLine ports r buf = .ok r') : r'.Plain := by
  unfold readLine at h
  split at h
  · cases h
    exact hr
  split at h
  · cases h
    exact ⟨hr.profiles, by rintro t ⟨⟩; exact plain_new⟩
  split at h
  · cases h
    exact hr
  rename_i t hcurrent
  have ht : Plain t.label := hr.current t hcurrent
  split at h
  · rename_i word set hfind
    split at h
    · cases h
    rename_i value hvalue
    split at h
    · cases h
    rename_i t' hset
    cases h
    refine ⟨hr.profiles, ?_⟩
    rintro u ⟨⟩
    rcases label_of_tags _ (List.mem_of_find?_eq_some hfind) t value t' hset with hlabel | hlabel
    · exact hlabel ▸ ht
    · exact hlabel ▸ plain_getOffset hbuf hvalue
  · cases h
    split
    · exact plain_close hr ht ports
    · exact hr

/-- The run: every label that is read is plain, whatever the file is. -/
theorem plain_of_readFile {ports : Nat → Nat} {profiles : List TrafficProfile}
    (h : readFile ports text = .ok profiles) : ∀ t ∈ profiles, Plain t.label := by
  have hline : ∀ buf ∈ (lines 255 text).map cString, ∀ c ∈ ['\n', '\x00'], c ∉ buf := by
    intro buf hbuf
    obtain ⟨line, hline, rfl⟩ := List.mem_map.mp hbuf
    have hnewline := newline_notMem_linesFrom List.not_mem_nil line hline
    refine List.forall_mem_cons.mpr ⟨fun hmem => hnewline (List.takeWhile_subset _ hmem), ?_⟩
    refine List.forall_mem_singleton.mpr fun hmem => ?_
    exact absurd (List.mem_takeWhile_imp hmem) (by decide)
  obtain ⟨r, hr, hprofiles⟩ := bind_eq_ok.mp h
  cases hprofiles
  have hplain : Reader.Plain r :=
    foldlM_invariant (fun buf hbuf => plain_readLine (hline buf hbuf)) ⟨by simp, by simp⟩ hr
  exact hplain.profiles

/-! ## The round trip -/

structure Entry.Readable (e : Entry) : Prop where
  requestsPerSession : e.requestsPerSession = 1
  hopLimit : e.hopLimit = 255
  profileID : e.profileID ≠ -1
  label : e.label ≠ "unspec".toList
  plain : Plain e.label
  noTag : ∀ tag ∈ ["Profile>", "Id>"], ¬ tag.toList <+: e.label ++ ['>']

theorem kept_iff :
    e.kept = true ↔ e.profileID ≠ -1 ∧ e.label ≠ "unspec".toList ∧
      ∀ tag ∈ ["Profile>", "Id>"], ¬ tag.toList <+: e.label ++ ['>'] := by
  have hprofile : opens "<Profile>" e.label = true ↔ "Profile>".toList <+: e.label ++ ['>'] :=
    List.isPrefixOf_iff_prefix
  have hid : opens "<Id>" e.label = true ↔ "Id>".toList <+: e.label ++ ['>'] :=
    List.isPrefixOf_iff_prefix
  simp only [Entry.kept, Bool.and_eq_true, Bool.not_eq_true', decide_eq_true_eq,
    List.forall_mem_cons, ← hprofile, ← hid, Bool.not_eq_true]
  constructor
  · rintro ⟨⟨⟨hprofile, hid⟩, hlabel⟩, hnumber⟩
    exact ⟨hnumber, hlabel, hprofile, hid, by simp⟩
  · rintro ⟨hnumber, hlabel, hprofile, hid, -⟩
    exact ⟨⟨⟨hprofile, hid⟩, hlabel⟩, hnumber⟩

theorem reads_iff {t : TrafficProfile} (h : e.IsRead t) :
    e.Reads t ↔ e.requestsPerSession = 1 ∧ e.hopLimit = 255 := by
  have hrequests : t.requestsPerSession = 1 := by rw [h]; rfl
  have hlimit : t.hopLimit = 255 := by rw [h]; rfl
  constructor
  · intro hreads
    exact ⟨Int32.toInt_inj.mp (hreads.requestsPerSession.symm.trans hrequests),
      Int32.toInt_inj.mp (hreads.hopLimit.symm.trans hlimit)⟩
  · rintro ⟨hone, hmax⟩
    rw [h]
    exact
      { profileID := rfl
        label := rfl
        requestLength := rfl
        requestsPerSession := by rw [hone]; rfl
        replyLength := rfl
        replyPerRequest := rfl
        timeBetweenRequests := rfl
        timeToRespond := rfl
        timeBetweenSessions := rfl
        probability := rfl
        WANprob := rfl
        hopLimit := by rw [hmax]; rfl }

theorem exists_of_forall₂ {α β : Type} {R : α → β → Prop} {as : List α} {bs : List β}
    (h : List.Forall₂ R as bs) : ∀ a ∈ as, ∃ b ∈ bs, R a b := by
  induction h with
  | nil => simp
  | cons hab _ ih =>
    refine List.forall_mem_cons.mpr ⟨⟨_, List.mem_cons_self, hab⟩, fun a ha => ?_⟩
    obtain ⟨b, hb, hR⟩ := ih a ha
    exact ⟨b, List.mem_cons_of_mem _ hb, hR⟩

/-- What is printed is read again exactly when the two misspelt fields have the values of the
constructor, the profile has an id and a label, and the label does not look like markup. -/
theorem printed_profiles_read_iff (ports : Nat → Nat) {es : List Entry}
    (hcomment : ∀ e ∈ es, '#' ∉ e.label)
    (hshort : ∀ line ∈ (printFile es).splitOn '\n', line.length < 255) :
    (∃ profiles, readFile ports (printFile es) = .ok profiles ∧
      List.Forall₂ Entry.Reads es profiles) ↔ ∀ e ∈ es, e.Readable := by
  constructor
  · rintro ⟨profiles, hread, hreads⟩
    -- a label that has been read is plain, and all labels have been read
    have hplain : ∀ e ∈ es, Plain e.label := by
      intro e he
      obtain ⟨t, ht, hreads⟩ := exists_of_forall₂ hreads e he
      rw [← hreads.label]
      exact plain_of_readFile hread t ht
    obtain ⟨profiles', hread', hkept⟩ := readFile_printFile ports hplain hcomment hshort
    obtain rfl : profiles = profiles' := Except.ok.inj (hread.symm.trans hread')
    -- nothing has been dropped, since as many profiles have been read as there are
    have hall : ∀ e ∈ es, e.kept = true :=
      List.length_filter_eq_length_iff.mp (hkept.length_eq.trans hreads.length_eq.symm)
    rw [List.filter_eq_self.mpr hall] at hkept
    have hvalues : List.Forall₂ (fun e _ => e.requestsPerSession = 1 ∧ e.hopLimit = 255) es
        profiles := List.Forall₂.mp (fun e t h => (reads_iff h).mp) hkept hreads
    intro e he
    obtain ⟨hnumber, hlabel, hnoTag⟩ := kept_iff.mp (hall e he)
    obtain ⟨-, -, hone, hmax⟩ := exists_of_forall₂ hvalues e he
    exact ⟨hone, hmax, hnumber, hlabel, hplain e he, hnoTag⟩
  · intro hreadable
    obtain ⟨profiles, hread, hkept⟩ := readFile_printFile ports
      (fun e he => (hreadable e he).plain) hcomment hshort
    have hall : ∀ e ∈ es, e.kept = true := fun e he =>
      kept_iff.mpr ⟨(hreadable e he).profileID, (hreadable e he).label, (hreadable e he).noTag⟩
    rw [List.filter_eq_self.mpr hall] at hkept
    have hboth := (List.forall₂_and_left es profiles).mpr ⟨hreadable, hkept⟩
    refine ⟨profiles, hread, hboth.imp fun e t h => ?_⟩
    exact (reads_iff h.2).mpr ⟨h.1.requestsPerSession, h.1.hopLimit⟩

def pingEntry : Entry :=
  { profileID := 21
    label := "Ping".toList
    requestLength := 64
    requestsPerSession := 1
    replyLength := 64
    replyPerRequest := 4
    timeBetweenRequests := ⟨false, 1, [0]⟩
    timeToRespond := ⟨false, 0, [2]⟩
    timeBetweenSessions := ⟨false, 1, [0]⟩
    probability := ⟨false, 4, [3]⟩
    WANprob := ⟨false, 50, [0]⟩
    hopLimit := 255 }

theorem printed_profiles_read_iff_ping :
    ∃ profiles, readFile (fun _ => 0) (printFile [pingEntry]) = .ok profiles ∧
      List.Forall₂ Entry.Reads [pingEntry] profiles := by
  refine (printed_profiles_read_iff (fun _ => 0) (by decide) (by decide +kernel)).mpr ?_
  refine List.forall_mem_singleton.mpr ?_
  exact
    { requestsPerSession := rfl
      hopLimit := rfl
      profileID := by decide
      label := by decide
      plain := plain_iff.mpr (by decide)
      noTag := by decide }

def webEntry : Entry :=
  { profileID := 3
    label := "Web Traffic".toList
    requestLength := 200
    requestsPerSession := 10
    replyLength := 1000
    replyPerRequest := 300
    timeBetweenRequests := ⟨false, 2, [0]⟩
    timeToRespond := ⟨false, 0, [5]⟩
    timeBetweenSessions := ⟨false, 3, [0]⟩
    probability := ⟨false, 72, [0]⟩
    WANprob := ⟨false, 73, [0]⟩
    hopLimit := 255 }

theorem web_requests_not_read :
    '#' ∉ webEntry.label ∧
      (∀ line ∈ (printFile [webEntry]).splitOn '\n', line.length < 255) ∧
      webEntry.requestsPerSession = 10 ∧
      (readFile (fun _ => 0) (printFile [webEntry])).map (·.map (·.requestsPerSession)) =
        .ok [1] := by
  refine ⟨by decide, by decide +kernel, rfl, ?_⟩
  decide +kernel

end WormsAttack.Traffic
