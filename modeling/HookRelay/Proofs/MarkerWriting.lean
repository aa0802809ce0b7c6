import HookRelay.Gate
import HookRelay.Proofs.Delivery
import HookRelay.Proofs.FileContent

/-!
# How the time is put into a marker file

Three things can happen.  The marker file cannot be opened, and then it is not touched.  It is
opened, which drops what it held, and takes the text of the time whole.  Or it is opened, and the
disk stops in the middle of the text; then the file is left with what the disk has taken so far.  In
the first and in the last case, and only then, there is a note.

* `Gate.taken`: what the disk takes of the text.  `taken_eq_iff` says that this is all of it exactly
  if the writing succeeds.
* `Gate.mark_of_closed`, `Gate.mark_of_whole`, `Gate.mark_of_stopped`: the three cases.
-/

namespace HookRelay
namespace Gate

section Taken

variable (disk : List WriteEvent) (now : Timestamp)

/-- What the disk takes of the text of a time. -/
def taken : Bytes :=
  (writing disk now).2.written

/-- The whole text is taken exactly if no write fails. -/
theorem taken_eq_iff : taken disk now = now.text ↔ (writing disk now).1 = .ok () := by
  rw [taken, writing, Sink.writeEach_eq_ok_iff, Timestamp.flatten_pieces]
  rfl

end Taken

variable {marker old : Bytes} {location : Location} {now : Timestamp} {world : World}
  {error : IoError}

theorem mark_of_closed (closed : world.tree.openFile world.working marker = .error error) :
    mark marker now world = world.log (failedNote marker error) := by
  simp only [mark, Tree.write, closed]

theorem mark_of_whole
    (opened : world.tree.openFile world.working marker = .ok (location, old))
    (whole : (writing world.disk now).1 = .ok ()) :
    mark marker now world = { world with tree := world.tree.set location (.file now.text) } := by
  rw [← (taken_eq_iff world.disk now).mpr whole]
  simp only [mark, Tree.write, opened, whole, taken]

theorem mark_of_stopped
    (opened : world.tree.openFile world.working marker = .ok (location, old))
    (stopped : (writing world.disk now).1 = .error error) :
    mark marker now world =
      { world with tree := world.tree.set location (.file (taken world.disk now)) }.log
        (failedNote marker error) := by
  simp only [mark, Tree.write, opened, stopped, taken]

theorem received_mark (marker : Bytes) (now : Timestamp) (world : World) :
    (mark marker now world).received = world.received := by
  cases opened : world.tree.openFile world.working marker with
  | error error =>
      rw [mark_of_closed opened, World.received_log]
  | ok found =>
      cases outcome : (writing world.disk now).1 with
      | ok =>
          rw [mark_of_whole opened outcome]
      | error error =>
          rw [mark_of_stopped opened outcome, World.received_log]

end Gate
end HookRelay
