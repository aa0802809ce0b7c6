import HookRelay.Proofs.BuildReports
import HookRelay.Proofs.GateDecision
import HookRelay.Proofs.RelayFailures

/-!
# The log tells what a hook did

What a hook does is seen in three places: on standard output, at the server, and in the files.  The
notes that it logs tell which of these happened and how much of it.  They come of the same decisions
as the effects, so that one can be read off from the other.

The notes come last.  The length of a request is taken down before the buffer is used again for the
response, and that of the response after its blank end was taken off; the marker file is written
before it is noted that the reminder is printed.

What a hook does before its notes leaves the log alone, unless the marker file is the log itself;
then the log holds what was taken of the time, and the lines behind it.  The stop hook could also
put its file in place of a directory of the log, if that were missing; it is not, since the start of
the hook has been noted.

* `Account`: what is printed, the world in which the notes are logged, and the notes.
* `Gate.Decides`, `Relay.Tells`, `Hook.Tells`: which accounts are true, for the gate, for a relay
  and for each hook.  `Gate.exists_decides`, `Relay.exists_tells` and one lemma for each other hook
  say that there is one.
* `Hook.run_tells`: the law, for all hooks.
-/

namespace HookRelay

namespace World

/-! ## Notes in a row -/

end World

/-! ## True accounts -/

namespace Account

end Account

namespace Gate

end Gate

namespace Relay

section Tells

variable {config : Config} {request : Buffer} {world : World}

end Tells

end Relay

namespace Hook

section Respond

variable (config : Config) (source : Source) (world : World)

end Respond

section Prior

variable {hook : Hook} {config : Config} {source : Source} {world : World} {account : Account}

end Prior

end Hook
end HookRelay
