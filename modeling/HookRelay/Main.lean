import HookRelay.Program
import Std.Time.DateTime.Timestamp

/-!
# Command line

One invocation of the program: its arguments, environment, standard streams and the files on the
paths that it may touch are put into the form that `Program.run` takes, and what it leaves is
carried out.  Sockets are seen but not reached: every connection to one is refused.  A file that is
there is tried for writing; that a new one can be made, and that the disk has room, is taken for
granted.
-/

namespace HookRelay
namespace CommandLine

def setting? (name : String) : IO (Option Bytes) := do
  return (← IO.getEnv name).map Bytes.ofText

/-- The environment variables that the configuration depends on. -/
def environment : IO Environment := do
  return {
    home := ← setting? "HOME"
    timeout := ← setting? "AMR_HOOK_TIMEOUT_MS"
    window := ← setting? "AMR_HOOK_DEBOUNCE_SECS"
    marker := ← setting? "AMR_HOOK_STOP_STAMP"
    log := ← setting? "AMR_HOOK_LOG" }

def pathText (bytes : Bytes) : String :=
  String.ofList (Utf8.display bytes)

def pathTo (location : Location) : String :=
  pathText ((location.reverse.map fun name => Places.slash :: name).flatten)

/-- What the file system holds at a location. -/
def entryAt (location : Location) : IO (Option Entry) := do
  try
    let metadata ← (← IO.FS.realPath (pathTo location)).metadata
    match metadata.type with
    | .dir => return some .directory
    | .file => return some (.file (← IO.FS.readBinFile (pathTo location)).toList)
    | _ => return some (.socket none)
  catch _ =>
    return none

/-- Why the file at a location is not opened for writing, if that is so.  Nothing is written. -/
def refusalAt (location : Location) : IO (Option IoError) := do
  try
    discard <| IO.FS.Handle.mk (pathTo location) .append
    return none
  catch error =>
    match error with
    | .permissionDenied _ number _ => return some (.system ⟨number.toNat⟩)
    | _ => return some (.plain .other)

def withRefusal (location : Location) (tree : Tree) : IO Tree := do
  match ← refusalAt location with
  | none => return tree
  | some error => return { tree with refusals := (location, error) :: tree.refusals }

/-- The tree with what the file system holds along a row of names. -/
def load (here : Location) (tree : Tree) : List Name → IO Tree
  | [] => return tree
  | name :: later =>
      if name = Path.dot then
        load here tree later
      else if name = Path.dotDot then
        load here.tail tree later
      else do
        match ← entryAt (name :: here) with
        | none => return tree
        | some (.file content) =>
            let tree ← withRefusal (name :: here) tree
            load (name :: here) (tree.set (name :: here) (.file content)) later
        | some entry => load (name :: here) (tree.set (name :: here) entry) later

/-- The tree with what the file system holds along a path. -/
def loadPath (working : Location) (tree : Tree) (path : Bytes) : IO Tree :=
  load (Tree.start working path) tree (Path.names path)

def clock : IO Clock := do
  let milliseconds := (← Std.Time.Timestamp.now).toMillisecondsSinceUnixEpoch.val
  return ⟨Int64.ofInt (milliseconds / 1000), (milliseconds % 1000).toNat, 0⟩

def process : IO Nat := do
  try
    let status ← IO.FS.readFile "/proc/self/stat"
    return Nat.ofDigitChars 10 (status.toList.takeWhile Char.isDigit) 0
  catch _ =>
    return 0

def world (config : Config) : IO World := do
  let working := (Path.names (Bytes.ofText (← IO.currentDir).toString)).reverse
  let paths := config.marker :: config.logPath?.toList ++ config.socketPath?.toList
  return {
    tree := ← paths.foldlM (loadPath working) Tree.empty
    working := working
    clock := ← clock
    process := ← process
    journal := none
    received := none }

def readsInput : Action → Bool
  | .run .ambient => true
  | .run .postBuild => true
  | _ => false

/-- What standard input delivers, until that many bytes or its end. -/
partial def readAll (stream : IO.FS.Stream) (room : Nat) : IO (List ReadEvent) := do
  if room = 0 then
    return []
  else
    let bytes ← stream.read (USize.ofNat room)
    if bytes.isEmpty then
      return []
    else
      return .data bytes.toList :: (← readAll stream (room - bytes.size))

/-- Bring a location of the file system to what an entry says. -/
def store (before : Option Entry) (location : Location) : Entry → IO Unit
  | .directory => IO.FS.createDir (pathTo location)
  | .socket _ => return ()
  | .file content => do
      match before with
      | some (.file old) =>
          if old.isPrefixOf content then
            let handle ← IO.FS.Handle.mk (pathTo location) .append
            handle.write (content.drop old.length).toByteArray
          else
            IO.FS.writeBinFile (pathTo location) content.toByteArray
      | _ => IO.FS.writeBinFile (pathTo location) content.toByteArray

/-- Carry out changes, the latest first in the list.  One that fails is passed over. -/
def storeAll (before : Tree) : List (Location × Entry) → IO Tree
  | [] => return before
  | (location, entry) :: earlier => do
      let tree ← storeAll before earlier
      try
        store (tree.get? location) location entry
      catch _ =>
        pure ()
      return tree.set location entry

def emit (stream : IO.FS.Stream) (bytes : Bytes) : IO Unit := do
  try
    stream.write bytes.toByteArray
    stream.flush
  catch _ =>
    pure ()

def run (arguments : List String) : IO UInt8 := do
  let arguments := arguments.map Bytes.ofText
  let environment ← environment
  let before ← world (Config.ofEnvironment environment)
  let events ←
    if readsInput (Program.action arguments) then
      readAll (← IO.getStdin) (Buffer.inputCapacity - 1)
    else
      pure []
  let completion :=
    Program.run
      { arguments := arguments
        environment := environment
        input := Source.ofScript events
        output := Sink.ofScript [] none }
      before
  let after := completion.world.tree.entries
  discard <| storeAll before.tree (after.take (after.length - before.tree.entries.length))
  emit (← IO.getStdout) completion.output.written
  emit (← IO.getStderr) completion.errors
  return completion.exitCode

end CommandLine
end HookRelay

/-- Run the hook that the first argument chooses. -/
def main (arguments : List String) : IO UInt32 := do
  return (← HookRelay.CommandLine.run arguments).toUInt32
