import HookRelay.Config

/-!
# Places under the home directory

All files of the program lie in one directory under the home directory.  The paths of that
directory and of the log are made by joining, which puts one slash between the parts unless there
is one already.  The path of the socket is made by appending, and there is none if it would be
longer than a socket path can be on any system.

* `Places.join`: joining.
* `Config.directory?`, `Config.logPath?`, `Config.socketPath?`: the paths, where there is a home.
  `socketPath?_eq_some_iff` says that a socket path is never cut off.
-/

namespace HookRelay

namespace Places

/-- The byte between the parts of a path. -/
def slash : UInt8 := 0x2f

def join (base part : Bytes) : Bytes :=
  if base = [] ∨ base.getLast? = some slash then
    base ++ part
  else
    base ++ slash :: part

def directoryName : Bytes :=
  Bytes.ofText ".amaranthine"

/-- What follows the home directory in the path of the socket. -/
def socketSuffix : Bytes :=
  Bytes.ofText "/.amaranthine/hook.sock"

/-- The most bytes that a socket path may have. -/
def socketPathCapacity : Nat := 128

end Places

namespace Config

def directory? (config : Config) : Option Bytes :=
  config.home.map fun home => Places.join home Places.directoryName

def logPath? (config : Config) : Option Bytes :=
  config.directory?.map fun directory =>
    Places.join (Places.join directory (Bytes.ofText "logs")) (Bytes.ofText "hook.log")

def socketPath? (config : Config) : Option Bytes :=
  config.home.bind fun home =>
    if home.length + Places.socketSuffix.length ≤ Places.socketPathCapacity then
      some (home ++ Places.socketSuffix)
    else
      none

/-- The path of the socket is the whole text that is put together, or there is none. -/
theorem socketPath?_eq_some_iff {config : Config} {path : Bytes} :
    config.socketPath? = some path ↔
      ∃ home, config.home = some home ∧ home.length + 23 ≤ 128 ∧
        path = home ++ Places.socketSuffix := by
  have suffix : Places.socketSuffix.length = 23 := by
    decide
  simp [socketPath?, Option.bind_eq_some_iff, suffix, Places.socketPathCapacity,
    @eq_comm _ path]

end Config

end HookRelay
