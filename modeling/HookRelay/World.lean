import HookRelay.Failure.RelayError
import HookRelay.Files.Tree
import HookRelay.Journal
import HookRelay.Timestamp
import HookRelay.Wire.Exchange

/-!
# The world around an invocation

What an invocation finds and changes apart from its own streams: the file tree with the sockets in
it, the clock, the log, what a server has received, and how the disk takes what is written.  The
disk may stop in the middle of a file that is written anew.  A line of the log is taken whole if the
log can be opened; that the disk is full when it is written is left out.

* `World.log`: continue the log, if one is kept and can be written.
* `World.connect`: connect to whoever listens at a socket path.
-/

namespace HookRelay

/-- The clock of an invocation, and how long talking to a server takes, in tenths of a
millisecond. -/
structure Clock where
  now : Timestamp
  milliseconds : Nat
  elapsed : Nat
deriving DecidableEq, Repr

namespace Clock

def moment (clock : Clock) : Moment :=
  ⟨clock.now.toInt, clock.milliseconds⟩

def total (clock : Clock) : String :=
  "total=" ++ Decimal.ofNat (clock.elapsed / 10) ++ "." ++ Decimal.ofNat (clock.elapsed % 10) ++
    "ms"

end Clock

structure World where
  tree : Tree
  working : Location
  clock : Clock
  process : Nat
  /-- The path of the log, if one is kept. -/
  journal : Option Bytes
  /-- What a server has received, if there was a connection. -/
  received : Option Bytes
  /-- How the disk takes what is written to a file that was opened to be written anew. -/
  disk : List WriteEvent := []
deriving DecidableEq, Repr

namespace World

/-- The number of bytes from which on a path is no socket address. -/
def addressCapacity : Nat := 108

/-- The file tree with the file at a path continued.  The directories on the path are made first,
and stay if the file cannot be written. -/
def continued (path bytes : Bytes) (world : World) : Tree :=
  let tree := world.tree.createDirectories world.working (Path.parent path)
  match tree.append world.working path bytes with
  | .ok tree => tree
  | .error _ => tree

def log (note : Note) (world : World) : World :=
  match world.journal with
  | none => world
  | some path =>
      { world with tree := world.continued path (note.line world.clock.moment world.process) }

def connect (path : Bytes) (timeout : Nat) (world : World) : Except RelayError Connection :=
  if path.contains 0 then
    .error (.path .invalidArgument)
  else if addressCapacity ≤ path.length then
    .error (.path .nameTooLong)
  else
    match world.tree.listener? world.working path with
    | .error error => .error (.connect error)
    | .ok listener =>
        .ok ⟨Source.ofScript listener.sends, Sink.ofScript listener.takes none, timeout⟩

/-- Logging changes nothing but the file tree. -/
theorem log_eq (note : Note) (world : World) :
    world.log note = { world with tree := (world.log note).tree } := by
  unfold log
  split <;> rfl

@[simp] theorem received_log (note : Note) (world : World) :
    (world.log note).received = world.received := by
  rw [log_eq]

end World

end HookRelay
