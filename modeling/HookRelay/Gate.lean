import HookRelay.World

/-!
# The gate before a repeated reminder

A marker file holds the time at which the reminder was last printed.  The reminder is suppressed
while less time has passed since then than the window.  Otherwise the file is given the present
time and the reminder is printed.  A file that cannot be opened, or that is opened and then not
written whole, does not keep it from being printed.

* `Gate.lastFired`: the time that the marker file holds.
* `Gate.mark`: the present time put into the marker file.
* `Gate.check`: whether the reminder is printed, and the world afterwards.
-/

namespace HookRelay

inductive Gate where
  | fire
  | suppress
deriving DecidableEq, Repr

namespace Gate

/-- The most bytes of the marker file that are looked at. -/
def markerCapacity : Nat := 31

/-- The time that the marker file holds, if it can be read and begins with one. -/
def lastFired (marker : Bytes) (world : World) : Option Timestamp :=
  match world.tree.read world.working markerCapacity marker with
  | .ok raw => Timestamp.parse raw
  | .error _ => none

/-- Less time than the window has passed since the time that the marker file holds. -/
def isRecent (last : Option Timestamp) (window : UInt64) (now : Timestamp) : Bool :=
  match last with
  | none => false
  | some last => now.since last < Timestamp.ofWindow window

/-- Whether the disk takes the text of a time whole, and what it takes of it. -/
def writing (disk : List WriteEvent) (now : Timestamp) : Except IoError Unit × Sink :=
  (Sink.ofScript disk none).writeEach now.pieces

/-- The note that the time was not put into the marker file. -/
def failedNote (marker : Bytes) (error : IoError) : Note :=
  .warning "debounce" "stop.stamp_write_failed"
    ("path=" ++ String.ofList (Utf8.display marker) ++ " err=" ++ error.message)

/-- The world with the time in the marker file.  What was in the file is lost once it is opened. -/
def mark (marker : Bytes) (now : Timestamp) (world : World) : World :=
  let (outcome, file) := writing world.disk now
  match world.tree.write world.working marker file.written with
  | .error error => world.log (failedNote marker error)
  | .ok tree =>
      let world := { world with tree := tree }
      match outcome with
      | .ok () => world
      | .error error => world.log (failedNote marker error)

/-- Whether the reminder is printed, and the world afterwards. -/
def check (marker : Bytes) (window : UInt64) (now : Timestamp) (world : World) : Gate × World :=
  if isRecent (lastFired marker world) window now then
    (.suppress, world)
  else
    (.fire, mark marker now world)

theorem fst_check (marker : Bytes) (window : UInt64) (now : Timestamp) (world : World) :
    (check marker window now world).1 =
      if isRecent (lastFired marker world) window now then .suppress else .fire := by
  unfold check
  split <;> rfl

theorem check_fire
    {marker : Bytes} {window : UInt64} {now : Timestamp} {world after : World}
    (h : check marker window now world = (.fire, after)) :
    after = mark marker now world := by
  unfold check at h
  split at h
  · simp at h
  · exact (Prod.mk.inj h).2.symm

end Gate

end HookRelay
