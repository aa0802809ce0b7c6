import HookRelay.Bytes
import HookRelay.Failure.IoError

/-!
# Streams that are read

A source is a finite script of what the coming reads meet: data that arrives, or a failure.  A
read takes as much of the first data as it offers room for and leaves what remains in front; a
failure is met once; behind the script lies the end, where every read returns nothing.

* `Source.read`: one read.
* `Source.unread`: the data that no read has taken yet.  `unread_read` says that a read neither
  loses nor reorders data.
-/

namespace HookRelay

inductive ReadEvent where
  | data (bytes : Bytes)
  | failure (error : IoError)
deriving DecidableEq, Repr

def ReadEvent.bytes : ReadEvent → Bytes
  | .data bytes => bytes
  | .failure _ => []

/-- What the coming reads meet, and how many reads were made. -/
structure Source where
  script : List ReadEvent
  calls : Nat
deriving DecidableEq, Repr

namespace Source

def ofScript (script : List ReadEvent) : Source :=
  ⟨script, 0⟩

def contents (script : List ReadEvent) : Bytes :=
  script.flatMap ReadEvent.bytes

/-- The data that no read has taken yet. -/
def unread (source : Source) : Bytes :=
  contents source.script

/-- The outcome of a read with the given room, and the script behind it. -/
def meet (room : Nat) : List ReadEvent → Except IoError Bytes × List ReadEvent
  | [] =>
      (.ok [], [])
  | .failure error :: later =>
      (.error error, later)
  | .data bytes :: later =>
      if bytes.length ≤ room then
        (.ok bytes, later)
      else
        (.ok (bytes.take room), .data (bytes.drop room) :: later)

def read (room : Nat) (source : Source) : Except IoError Bytes × Source :=
  let (outcome, script) := meet room source.script
  (outcome, ⟨script, source.calls + 1⟩)

def taken : Except IoError Bytes → Bytes
  | .ok bytes => bytes
  | .error _ => []

theorem taken_meet_append_contents (room : Nat) :
    ∀ script : List ReadEvent,
      taken (meet room script).1 ++ contents (meet room script).2 = contents script
  | [] =>
      rfl
  | .failure _ :: _ =>
      rfl
  | .data bytes :: later => by
      by_cases fits : bytes.length ≤ room
      · simp [meet, fits, taken, contents, ReadEvent.bytes]
      · simp [meet, fits, taken, contents, ReadEvent.bytes, ← List.append_assoc]

/-- A read returns what comes first in the unread data and leaves the rest. -/
theorem unread_read (room : Nat) (source : Source) :
    taken (source.read room).1 ++ (source.read room).2.unread = source.unread :=
  taken_meet_append_contents room source.script

end Source

end HookRelay
