import HookRelay.Text.Decimal
import HookRelay.Text.Utf8
import HookRelay.Text.WhiteSpace

/-!
# Configuration

The configuration of one invocation comes from five environment variables.  A variable that is
missing, or whose value makes no sense, gives the default; nothing in it is ever an error.

* `Environment`: the values of the variables, as bytes.
* `Config`, `Config.default`: the configuration.
* `Config.positive?`: a positive number, from text with white space around it.
* `Config.ofEnvironment`: the configuration that the variables give.
-/

namespace HookRelay

/-- The values of the environment variables, where they are set. -/
structure Environment where
  /-- `HOME` -/
  home : Option Bytes
  /-- `AMR_HOOK_TIMEOUT_MS` -/
  timeout : Option Bytes
  /-- `AMR_HOOK_DEBOUNCE_SECS` -/
  window : Option Bytes
  /-- `AMR_HOOK_STOP_STAMP` -/
  marker : Option Bytes
  /-- `AMR_HOOK_LOG` -/
  log : Option Bytes
deriving DecidableEq, Repr

/-- What an invocation is told from outside. -/
structure Config where
  home : Option Bytes
  /-- The time limit for each call on the connection, in milliseconds. -/
  timeout : UInt64
  /-- The shortest time between two stop reminders, in seconds. -/
  window : UInt64
  /-- The path of the file that holds the time of the last stop reminder. -/
  marker : Bytes
  logging : Bool
deriving DecidableEq, Repr

namespace Config

def default : Config where
  home := none
  timeout := 50
  window := 120
  marker := Bytes.ofText "/tmp/amaranthine-hook-stop.last"
  logging := false

def nonempty? (value : Option Bytes) : Option Bytes :=
  value.filter (fun bytes => !bytes.isEmpty)

/-- The positive number that a variable holds: text, with white space around the digits. -/
def positive? (value : Option Bytes) : Option UInt64 :=
  let number := value.bind fun bytes =>
    (Utf8.decode? bytes).bind fun text => Decimal.toUInt64? (WhiteSpace.trim text)
  number.filter (fun value => 0 < value)

def ofEnvironment (environment : Environment) : Config where
  home := nonempty? environment.home
  timeout := (positive? environment.timeout).getD default.timeout
  window := (positive? environment.window).getD default.window
  marker := (nonempty? environment.marker).getD default.marker
  logging := environment.log == some (Bytes.ofText "1")

/-- The longest time limit that is set on a connection, in milliseconds: one hour. -/
def longestTimeout : Nat := 3600000

def socketTimeout (config : Config) : Nat :=
  min config.timeout.toNat longestTimeout

end Config

end HookRelay
