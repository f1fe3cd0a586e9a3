import Duelist.Text.Blank
import Duelist.Text.Numeral
import Duelist.Text.Utf8
/-!
# Settings

How the client is set up: by default, by environment variables, and by changes made afterwards, the
last one to a setting winning. Every variable sets one setting and no other; one that is not set, or
whose value makes no sense, leaves the default.
-/

namespace Duelist

/-! ### Lengths of time -/

/-- A length of time. A plain number stands for so many milliseconds. -/
structure Duration where
  /-- The length in nanoseconds. -/
  nanoseconds : Nat
  /-- The whole seconds are counted with 64 bits. -/
  lt : nanoseconds < UInt64.size * 1000000000
  deriving DecidableEq

namespace Duration

/-- The given number of milliseconds. -/
def ofMillis (n : UInt64) : Duration where
  nanoseconds := n.toNat * 1000000
  lt := by
    have hn : n.toNat < UInt64.size := n.toNat_lt
    omega

instance : Coe UInt64 Duration := ⟨ofMillis⟩

/-- The number of whole milliseconds. -/
def toNat (d : Duration) : Nat :=
  d.nanoseconds / 1000000

/-- A millisecond has a million nanoseconds. -/
@[simp]
theorem nanoseconds_ofMillis (n : UInt64) : (ofMillis n).nanoseconds = n.toNat * 1000000 := rfl

/-- A duration of so many milliseconds is read as so many. -/
@[simp]
theorem toNat_ofMillis (n : UInt64) : (ofMillis n).toNat = n.toNat := by
  rw [toNat, nanoseconds_ofMillis, Nat.mul_div_cancel _ (by decide)]

end Duration

/-! ### Settings -/

/-- The settings of the client. -/
structure Settings where
  /-- The address of the service. -/
  base : String := "http://localhost/api"
  /-- True if a log is kept. -/
  log : Bool := false
  /-- The directory of the log, any bytes. -/
  logDirectory : List UInt8 := Utf8.bytes "."
  /-- The time between two questions about a submission. -/
  pollInterval : Duration := .ofMillis 1000
  /-- The time between the end of a duel and the question about its result. -/
  finishGrace : Duration := .ofMillis 2000
  /-- The longest wait for a follower. -/
  joinTimeout : Duration := .ofMillis 1000
  /-- The longest wait for a reply, those of the event stream excepted. -/
  requestTimeout : Duration := .ofMillis 10000
  deriving DecidableEq

namespace Settings

/-- An address without what is blank at its ends, and then without slashes at its end. -/
def address (value : String) : String :=
  .ofList (Text.dropTrailing (· == '/') (Text.trimmed value.toList))

/-! ### Changes -/

/-- A change to a setting. -/
inductive Change where
  /-- Sets the address. -/
  | base (value : String)
  /-- Switches the log on or off. -/
  | log (value : Bool)
  /-- Sets the directory of the log. -/
  | logDirectory (value : List UInt8)
  /-- Sets the time between two questions about a submission. -/
  | pollInterval (value : Duration)
  /-- Sets the time between the end of a duel and the question about its result. -/
  | finishGrace (value : Duration)
  /-- Sets the longest wait for a follower. -/
  | joinTimeout (value : Duration)
  /-- Sets the longest wait for a reply. -/
  | requestTimeout (value : Duration)
  deriving DecidableEq

/-- Makes a change. -/
def apply (s : Settings) : Change → Settings
  | .base value => { s with base := address value }
  | .log value => { s with log := value }
  | .logDirectory value => { s with logDirectory := value }
  | .pollInterval value => { s with pollInterval := value }
  | .finishGrace value => { s with finishGrace := value }
  | .joinTimeout value => { s with joinTimeout := value }
  | .requestTimeout value => { s with requestTimeout := value }

/-- Makes changes in order. -/
def applyAll (s : Settings) (changes : List Change) : Settings :=
  changes.foldl apply s

/-! ### The environment -/

/-- A number of milliseconds: digits, behind at most one plus sign, with anything blank around
them, for a number of 64 bits. -/
def millis? (value : String) : Option UInt64 :=
  match Text.natural? (Text.trimmed value.toList) with
  | some n => if n < UInt64.size then some (.ofNat n) else none
  | none => none

/-- True of the word `true` in any ASCII case. -/
def isTrue (value : String) : Bool :=
  value.toList.map Char.toLower == "true".toList

/-- The names of the variables that are looked at. -/
def variableNames : List String :=
  ["DUEL_BASE_URL", "DUEL_LOG", "DUEL_LOG_DIR", "DUEL_POLL_INTERVAL_MS", "DUEL_FINISH_GRACE_MS",
    "DUEL_JOIN_TIMEOUT_MS", "DUEL_REQUEST_TIMEOUT_MS"]

/-- The settings made by environment variables; `value? name` is the value of a variable that is
set. All but the directory of the log must be UTF-8, or else do not count as set. -/
def ofEnvironment (value? : String → Option (List UInt8)) : Settings :=
  let text (name : String) := (value? name).bind Utf8.text?
  let millis (name : String) (default : Duration) :=
    (((text name).bind millis?).map Duration.ofMillis).getD default
  let default : Settings := {}
  { base := address ((text "DUEL_BASE_URL").getD default.base)
    log := ((text "DUEL_LOG").map isTrue).getD default.log
    logDirectory := (value? "DUEL_LOG_DIR").getD default.logDirectory
    pollInterval := millis "DUEL_POLL_INTERVAL_MS" default.pollInterval
    finishGrace := millis "DUEL_FINISH_GRACE_MS" default.finishGrace
    joinTimeout := millis "DUEL_JOIN_TIMEOUT_MS" default.joinTimeout
    requestTimeout := millis "DUEL_REQUEST_TIMEOUT_MS" default.requestTimeout }

/-! ### Arguments -/

/-- The changes that the arguments of the program ask for, or the argument that is not
understood. -/
def changesOfArguments : List String → Except String (List Change)
  | [] => .ok []
  | "--log" :: rest => return .log true :: (← changesOfArguments rest)
  | "--base-url" :: value :: rest => return .base value :: (← changesOfArguments rest)
  | "--log-dir" :: value :: rest =>
    return .logDirectory (Utf8.bytes value) :: (← changesOfArguments rest)
  | argument :: _ => .error argument

end Settings

end Duelist
