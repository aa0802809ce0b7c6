import HookRelay.Proofs.MarkerWriting
import HookRelay.Proofs.TimestampText

/-!
# Reminders are spaced by the window

The gate is asked again and again, each time with a window and a time of its own.  Nothing but the
marker file connects one call with the next.  What carries the spacing through a whole run is that
the file holds the time of the latest reminder, that this time reads back, and that no earlier
reminder has a later time, even if the clock went backwards between the calls.

* `Gate.run`, `Gate.fired`: calls one after another, and those that printed the reminder.
* `Gate.check_cases`: what one call does.
* `Gate.Invariant`: what holds after each call.  `Invariant.fire` is the step that changes
  something, and `Invariant.run` the whole run.
* `Gate.fired_spaced`: reminders are spaced by the window, and the marker file is that of the latest
  one.
-/

namespace HookRelay
namespace Gate

/-- What a call to the gate is given. -/
structure Call where
  window : UInt64
  now : Timestamp
deriving DecidableEq, Repr

/-- The answers to calls one after another, and the world afterwards. -/
def run (marker : Bytes) : List Call → World → List Gate × World
  | [], world =>
      ([], world)
  | call :: later, world =>
      let checked := check marker call.window call.now world
      let others := run marker later checked.2
      (checked.1 :: others.1, others.2)

/-- The calls that are answered with a reminder, in order. -/
def fired (marker : Bytes) (calls : List Call) (world : World) : List Call :=
  ((calls.zip (run marker calls world).1).filter fun answered => answered.2 == .fire).map Prod.fst

/-- At least the window of the later call passes between two calls. -/
def Spaced (earlier later : Call) : Prop :=
  min (later.window.toNat : Int) Int64.maxValue.toInt ≤ later.now.toInt - earlier.now.toInt

/-- The marker file can be written, whatever it is given, and the disk takes every time whole. -/
structure Writable (marker : Bytes) (world : World) : Prop where
  opens : ∀ content : Bytes, ∃ tree, world.tree.write world.working marker content = .ok tree
  takes : ∀ now : Timestamp, (writing world.disk now).1 = .ok ()

/-- The marker file has the text of a time as its whole content. -/
def Holds (marker : Bytes) (time : Timestamp) (world : World) : Prop :=
  world.tree.lookup world.working marker = .ok (.file time.text)

section Call

variable {marker : Bytes} {last now : Timestamp} {world : World}

theorem lastFired_of_file {content : Bytes}
    (found : world.tree.lookup world.working marker = .ok (.file content)) :
    lastFired marker world = Timestamp.parse (content.take markerCapacity) := by
  unfold lastFired
  rw [Tree.read_of_lookup found]

theorem lastFired_of_holds (nonneg : 0 ≤ last.toInt) (holds : Holds marker last world) :
    lastFired marker world = some last := by
  rw [lastFired_of_file holds]
  exact Timestamp.parse_take_text nonneg

/-- The time is the whole content of a file that could be opened and that has taken all of it. -/
theorem holds_mark_of_whole {location : Location} {old : Bytes}
    (opened : world.tree.openFile world.working marker = .ok (location, old))
    (whole : (writing world.disk now).1 = .ok ()) :
    Holds marker now (mark marker now world) := by
  rw [mark_of_whole opened whole]
  exact Tree.lookup_set_of_opened now.text opened

theorem Writable.exists_opened (writable : Writable marker world) :
    ∃ location old, world.tree.openFile world.working marker = .ok (location, old) := by
  obtain ⟨tree, written⟩ := writable.opens []
  obtain ⟨location, old, opened, -⟩ := Tree.write_eq_ok_iff.mp written
  exact ⟨location, old, opened⟩

theorem holds_mark (writable : Writable marker world) :
    Holds marker now (mark marker now world) := by
  obtain ⟨location, old, opened⟩ := writable.exists_opened
  exact holds_mark_of_whole opened (writable.takes now)

theorem writable_mark (writable : Writable marker world) :
    Writable marker (mark marker now world) := by
  obtain ⟨location, old, opened⟩ := writable.exists_opened
  have written :
      world.tree.write world.working marker now.text =
        .ok (world.tree.set location (.file now.text)) :=
    Tree.write_eq_ok_iff.mpr ⟨location, old, opened, rfl⟩
  rw [mark_of_whole opened (writable.takes now)]
  exact ⟨fun _ => Tree.write_of_write written, writable.takes⟩

/-- A call while the last reminder is recent changes nothing, and any other call prints the
reminder and puts its time into the marker file. -/
theorem check_cases (call : Call) (writable : Writable marker world) :
    (isRecent (lastFired marker world) call.window call.now = true ∧
      check marker call.window call.now world = (.suppress, world)) ∨
    (isRecent (lastFired marker world) call.window call.now = false ∧
      ∃ after,
        check marker call.window call.now world = (.fire, after) ∧
          Holds marker call.now after ∧
          Writable marker after) := by
  unfold check
  cases recent : isRecent (lastFired marker world) call.window call.now with
  | true =>
      exact Or.inl ⟨rfl, rfl⟩
  | false =>
      refine Or.inr ⟨rfl, mark marker call.now world, rfl, ?_, ?_⟩
      · exact holds_mark writable
      · exact writable_mark writable

end Call

section Run

variable {marker : Bytes} {initial world : World} {fires calls : List Call} {call : Call}

theorem fired_cons_of_suppress {after : World} {later : List Call}
    (answer : check marker call.window call.now world = (.suppress, after)) :
    fired marker (call :: later) world = fired marker later after := by
  simp [fired, run, answer]

theorem fired_cons_of_fire {after : World} {later : List Call}
    (answer : check marker call.window call.now world = (.fire, after)) :
    fired marker (call :: later) world = call :: fired marker later after := by
  simp [fired, run, answer]

/-- What holds after the calls of a run that printed the given reminders. -/
structure Invariant (marker : Bytes) (initial : World) (fires : List Call) (world : World) :
    Prop where
  writable : Writable marker world
  spaced : fires.Pairwise Spaced
  untouched : fires = [] → world = initial
  marked : ∀ latest, fires.getLast? = some latest →
    0 ≤ latest.now.toInt ∧ Holds marker latest.now world ∧
      ∀ earlier ∈ fires, earlier.now.toInt ≤ latest.now.toInt

theorem Invariant.start (writable : Writable marker world) :
    Invariant marker world [] world where
  writable := writable
  spaced := List.Pairwise.nil
  untouched := fun _ => rfl
  marked := by
    intro latest absent
    cases absent

/-- A call that is not recent is spaced from every reminder before it, not only from the latest. -/
theorem Invariant.spaced_of_not_recent
    (invariant : Invariant marker initial fires world)
    (notRecent : isRecent (lastFired marker world) call.window call.now = false) :
    ∀ earlier ∈ fires, Spaced earlier call := by
  intro earlier mem
  cases final : fires.getLast? with
  | none =>
      rw [List.getLast?_eq_none_iff] at final
      rw [final] at mem
      cases mem
  | some latest =>
      obtain ⟨latestNonneg, holds, greatest⟩ := invariant.marked latest final
      rw [lastFired_of_holds latestNonneg holds] at notRecent
      have fromLatest : ¬ call.now.toInt - latest.now.toInt <
          min (call.window.toNat : Int) Int64.maxValue.toInt := by
        rw [← isRecent_iff, notRecent]
        simp
      have before := greatest earlier mem
      unfold Spaced
      omega

theorem Invariant.fire
    (invariant : Invariant marker initial fires world) (nonneg : 0 ≤ call.now.toInt)
    (notRecent : isRecent (lastFired marker world) call.window call.now = false)
    {after : World} (holds : Holds marker call.now after) (writable : Writable marker after) :
    Invariant marker initial (fires ++ [call]) after where
  writable := writable
  spaced := by
    have behind := invariant.spaced_of_not_recent notRecent
    rw [List.pairwise_append]
    refine ⟨invariant.spaced, List.pairwise_singleton Spaced call, ?_⟩
    intro earlier mem later same
    rw [List.mem_singleton.mp same]
    exact behind earlier mem
  untouched := by
    intro empty
    simp at empty
  marked := by
    intro latest final
    rw [List.getLast?_concat, Option.some.injEq] at final
    subst final
    refine ⟨nonneg, holds, ?_⟩
    intro earlier mem
    rcases List.mem_append.mp mem with before | same
    · have spaced := invariant.spaced_of_not_recent notRecent earlier before
      have greatest := Int64.toInt_maxValue
      unfold Spaced at spaced
      omega
    · obtain rfl := List.mem_singleton.mp same
      exact Int.le_refl earlier.now.toInt

theorem Invariant.run (calls : List Call) :
    ∀ {fires : List Call} {world : World},
      Invariant marker initial fires world →
      (∀ call ∈ calls, 0 ≤ call.now.toInt) →
        Invariant marker initial (fires ++ fired marker calls world)
          (Gate.run marker calls world).2 := by
  induction calls with
  | nil =>
      intro fires world invariant _
      simpa [fired, Gate.run] using invariant
  | cons call later ih =>
      intro fires world invariant nonneg
      rw [List.forall_mem_cons] at nonneg
      rcases check_cases call invariant.writable with
        ⟨_, answer⟩ | ⟨notRecent, after, answer, holds, writable⟩
      · rw [fired_cons_of_suppress answer, Gate.run, answer]
        exact ih invariant nonneg.2
      · have next := invariant.fire nonneg.1 notRecent holds writable
        rw [fired_cons_of_fire answer, Gate.run, answer, List.append_cons]
        exact ih next nonneg.2

/-- In a run of calls from 1970 on, the reminders are spaced by the windows.  After each part of
the run, the marker file has the text of the time of the latest reminder, and before the first
reminder nothing has changed. -/
theorem fired_spaced
    (writable : Writable marker world)
    (nonneg : ∀ call ∈ calls, 0 ≤ call.now.toInt) :
    (fired marker calls world).Pairwise Spaced ∧
      ∀ front, front <+: calls →
        (∀ latest, (fired marker front world).getLast? = some latest →
          Holds marker latest.now (run marker front world).2) ∧
        (fired marker front world = [] →
          (run marker front world).2 = world) := by
  constructor
  · have whole := Invariant.run calls (Invariant.start writable) nonneg
    exact whole.spaced
  · rintro front ⟨back, rfl⟩
    have frontNonneg : ∀ call ∈ front, 0 ≤ call.now.toInt := by
      intro call mem
      exact nonneg call (List.mem_append_left back mem)
    have part := Invariant.run front (Invariant.start writable) frontNonneg
    refine ⟨?_, part.untouched⟩
    intro latest final
    exact (part.marked latest final).2.1

end Run

def keeping (content : Bytes) : World where
  tree := Tree.empty.set [Bytes.ofText "m"] (.file content)
  working := []
  clock := ⟨0, 0, 0⟩
  process := 0
  journal := none
  received := none

theorem writable_keeping (content : Bytes) : Writable (Bytes.ofText "m") (keeping content) where
  opens := fun _ => ⟨_, rfl⟩
  takes := fun now => Sink.writeEach_of_script_eq_nil now.pieces rfl

/-- A marker file that is no time, a clock that goes backwards, and windows that differ. -/
theorem fired_spaced_unsteady :
    let world := keeping (Bytes.ofText "never: 99999999999999999999999")
    let calls : List Call :=
      [⟨120, 1000⟩, ⟨120, 1119⟩, ⟨0, 900⟩, ⟨0xffffffffffffffff, 1200⟩, ⟨0, 1000⟩, ⟨60, 1060⟩]
    fired (Bytes.ofText "m") calls world = [⟨120, 1000⟩, ⟨0, 1000⟩, ⟨60, 1060⟩] ∧
      (fired (Bytes.ofText "m") calls world).Pairwise Spaced ∧
      Holds (Bytes.ofText "m") 1060 (run (Bytes.ofText "m") calls world).2 := by
  intro world calls
  have law := fired_spaced (writable_keeping (Bytes.ofText "never: 99999999999999999999999"))
    (show ∀ call ∈ calls, 0 ≤ call.now.toInt by decide)
  have fires :
      fired (Bytes.ofText "m") calls world = [⟨120, 1000⟩, ⟨0, 1000⟩, ⟨60, 1060⟩] := by
    decide +kernel
  refine ⟨fires, law.1, ?_⟩
  refine (law.2 calls (List.prefix_refl calls)).1 ⟨60, 1060⟩ ?_
  rw [fires]
  rfl

end Gate
end HookRelay
