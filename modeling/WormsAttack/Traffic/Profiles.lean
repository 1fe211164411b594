/-
  The TrafficProfileManager module.

  Sources: ReaSE/src/base/TrafficProfileManager.cc and
  ReaSE/src/applications/generic/TransmissionConfig.h.

  NUMBERS.  A `double` is a `Double`: exact, but with infinities and NaN, which ratios that add
  up to zero bring about.  Nothing is computed from an `int`, which is an `Int` here.

  WHAT IS NOT MODELLED.  `getNoisyProfile` and the getters, which draw at random; what they draw
  is an input of the modules that use a profile.
-/
import WormsAttack.Foundation.Scan

namespace WormsAttack.Traffic

open Foundation

inductive Stop
  | error (message : String)
  /-- undefined behaviour of the C library -/
  | undefined
  | nullPointer
  | outOfRange
  /-- a loop needs more random numbers than there are -/
  | redrawing
  deriving DecidableEq

structure TrafficProfile where
  requestLength : Int
  requestsPerSession : Int
  replyLength : Int
  replyPerRequest : Int
  timeBetweenRequests : Double
  timeToRespond : Double
  timeBetweenSessions : Double
  probability : Double
  WANprob : Double
  profileID : Int
  label : List Char
  ownPort : Int
  hopLimit : Int
  deriving DecidableEq

def TrafficProfile.new : TrafficProfile :=
  { requestLength := 1
    requestsPerSession := 1
    replyLength := 1
    replyPerRequest := 1
    timeBetweenRequests := 1
    timeToRespond := 1
    timeBetweenSessions := 1
    probability := 0
    WANprob := 0
    profileID := -1
    label := "unspec".toList
    ownPort := 0
    hopLimit := 255 }

/-! ## Reading the profiles -/

/-- `GET_OFFSET`: what is between the last `<` and the last `>`. -/
def getOffset (buf : List Char) : Option (List Char) :=
  (afterLast '<' buf).map fun value => (beforeLast '>' value).getD value

/-- The tags of a profile, in the order of the search, and what is done with their values. -/
def tags : List (String × (TrafficProfile → List Char → Option TrafficProfile)) :=
  [("<Id>", fun t value => (atoi value).map fun n => { t with profileID := n }),
    ("<Label>", fun t value => some { t with label := value }),
    ("<RequestLength>", fun t value => (atoi value).map fun n => { t with requestLength := n }),
    ("<RequestPerSession>",
      fun t value => (atoi value).map fun n => { t with requestsPerSession := n }),
    ("<ReplyLength>", fun t value => (atoi value).map fun n => { t with replyLength := n }),
    ("<ReplyPerRequest>", fun t value => (atoi value).map fun n => { t with replyPerRequest := n }),
    ("<TimeBetweenRequests>", fun t value => some { t with timeBetweenRequests := atof value }),
    ("<TimeToRespond>", fun t value => some { t with timeToRespond := atof value }),
    ("<TimeBetweenSessions>", fun t value => some { t with timeBetweenSessions := atof value }),
    ("<Ratio>", fun t value => some { t with probability := atof value }),
    ("<WANRatio>", fun t value => some { t with WANprob := atof value }),
    ("<Port>", fun t value => (atoi value).map fun n => { t with ownPort := n }),
    ("<HopLimit>", fun t value => (atoi value).map fun n => { t with hopLimit := n })]

/-- The profiles that have been read, and the one that is being read; `none` is `status` 0. -/
structure Reader where
  profiles : List TrafficProfile
  current : Option TrafficProfile

/-- `</Profile>`: a profile without a label or without an id is dropped.  `ports` are the
ports drawn at random. -/
def Reader.close (ports : Nat → Nat) (r : Reader) (t : TrafficProfile) : Reader :=
  if t.label = "unspec".toList then { r with current := none }
  else if t.profileID = -1 then { r with current := none }
  else
    let ownPort : Int :=
      if t.ownPort = 0 then 1500 + ports r.profiles.length % 58501 else t.ownPort
    { profiles := r.profiles ++ [{ t with ownPort := ownPort }], current := none }

def readLine (ports : Nat → Nat) (r : Reader) (buf : List Char) : Except Stop Reader :=
  if strstr "#" buf then .ok r
  else if strstr "<Profile>" buf then .ok { r with current := some .new }
  else
    match r.current with
    | none => .ok r
    | some t =>
        match tags.find? (strstr ·.1 buf) with
        | some (_, set) =>
            match getOffset buf with
            | none => .error .nullPointer
            | some value =>
                match set t value with
                | none => .error .undefined
                | some t => .ok { r with current := some t }
        | none => .ok (if strstr "</Profile>" buf then r.close ports t else r)

def readProfiles (ports : Nat → Nat) (text : List Char) : Except Stop (List TrafficProfile) := do
  let r ← (lines 255 text).foldlM (readLine ports) { profiles := [], current := none }
  .ok r.profiles

/-! ## The manager -/

/-- There is always a profile: `initialize` makes sure of that. -/
structure TrafficProfileManager where
  profiles : List TrafficProfile
  nonempty : profiles ≠ []
  deriving DecidableEq

def cumRatio (profiles : List TrafficProfile) : Double :=
  (profiles.map (·.probability)).foldl (· + ·) 0

def normalise (profiles : List TrafficProfile) : List TrafficProfile :=
  profiles.map fun t =>
    { t with probability := t.probability / cumRatio profiles, WANprob := t.WANprob / 100 }

theorem normalise_ne_nil {profiles : List TrafficProfile} (h : profiles ≠ []) :
    normalise profiles ≠ [] := by
  rwa [normalise, Ne, List.map_eq_nil_iff]

namespace TrafficProfileManager

def ofProfiles (profiles : List TrafficProfile) (h : profiles ≠ []) : TrafficProfileManager :=
  { profiles := normalise profiles, nonempty := normalise_ne_nil h }

/-- `initialize`; `file` is the content of the file, if it can be opened. -/
def initial (fileName : String) (file : Option (List Char)) (ports : Nat → Nat) :
    Except Stop TrafficProfileManager :=
  match file with
  | none => .error (.error ("Couldn't open config file " ++ fileName))
  | some text => do
      let profiles ← readProfiles ports text
      if h : profiles = [] then
        .error (.error "No traffic profiles specified for generation of background traffic")
      else .ok (ofProfiles profiles h)

end TrafficProfileManager

/-- The loop of `getTrafficProfile`: the position of the selected profile.  The last profile
is not looked at. -/
def scan (profileProb : Rat) : Double → List TrafficProfile → Nat
  | cum, t :: next :: rest =>
      let cum := cum + t.probability
      if cum.ge (.finite profileProb) then 0 else scan profileProb cum (next :: rest) + 1
  | _, _ => 0

theorem scan_lt (profileProb : Rat) :
    ∀ (cum : Double) {profiles : List TrafficProfile}, profiles ≠ [] →
      scan profileProb cum profiles < profiles.length
  | _, [_], _ => Nat.zero_lt_one
  | cum, t :: next :: rest, _ => by
    have ih := scan_lt profileProb (cum + t.probability) (List.cons_ne_nil next rest)
    rw [scan]
    split
    · exact Nat.zero_lt_succ _
    · exact Nat.succ_lt_succ ih

namespace TrafficProfileManager

def selected (tpm : TrafficProfileManager) (profileProb : Rat) : TrafficProfile :=
  tpm.profiles.get ⟨scan profileProb 0 tpm.profiles, scan_lt profileProb 0 tpm.nonempty⟩

/-- `getTrafficProfile`: the profile, and `isForeign` afterwards. -/
def getTrafficProfile (tpm : TrafficProfileManager) (profileProb foreignServerProb : Rat)
    (isForeign : Bool) : TrafficProfile × Bool :=
  let t := tpm.selected profileProb
  (t, if t.WANprob.ge (.finite foreignServerProb) then true else isForeign)

end TrafficProfileManager

end WormsAttack.Traffic
