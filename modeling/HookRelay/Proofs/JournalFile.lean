import HookRelay.Proofs.Directories
import HookRelay.Proofs.JournalLine
import HookRelay.World

/-!
# The log is continued line by line

Each note that is logged opens the file of the log anew and puts one line behind what it holds.  The
first of them may make the directories of the file and the file itself; after that the path leads to
the same place, and nothing is made any more.

* `World.Logs`: the log of a world can be written, and the file holds a given content.
* `World.Logs.logAt`, `World.Logs.logAll`: what one note and a row of notes put behind that content.
* `World.content_logAll`: the file after a row of notes, and how each of its lines is read.
-/

namespace HookRelay

/-- What is logged and when. -/
structure LogCall where
  clock : Clock
  note : Note

namespace LogCall

/-- The object in the line of a call. -/
def text (process : Nat) (call : LogCall) : Bytes :=
  Utf8.encode (call.note.text call.clock.moment process)

def line (process : Nat) (call : LogCall) : Bytes :=
  call.note.line call.clock.moment process

/-- The names and contents of the members in the line of a call. -/
def fields (process : Nat) (call : LogCall) : List (String × Json.Content) :=
  call.note.fields call.clock.moment process

end LogCall

namespace Tree

/-- The content of the file at a location, which is empty as long as there is none. -/
def contentOf (location : Location) (tree : Tree) : Bytes :=
  match tree.get? location with
  | some (.file content) => content
  | _ => []

theorem contentOf_of_file {tree : Tree} {location : Location} {content : Bytes}
    (found : tree.get? location = some (.file content)) :
    tree.contentOf location = content := by
  simp [contentOf, found]

end Tree

namespace World

def logAt (call : LogCall) (world : World) : World :=
  { world with clock := call.clock }.log call.note

/-- Log one note after the other. -/
def logAll (calls : List LogCall) (world : World) : World :=
  calls.foldl (fun world call => world.logAt call) world

section Unchanged

variable (call : LogCall) (calls : List LogCall) (world : World)

@[simp] theorem journal_logAt : (world.logAt call).journal = world.journal := by
  rw [logAt, log_eq]

@[simp] theorem working_logAt : (world.logAt call).working = world.working := by
  rw [logAt, log_eq]

@[simp] theorem process_logAt : (world.logAt call).process = world.process := by
  rw [logAt, log_eq]

theorem logAll_concat : world.logAll (calls.concat call) = (world.logAll calls).logAt call := by
  rw [List.concat_eq_append, logAll, List.foldl_append]
  rfl

@[simp] theorem working_logAll : (world.logAll calls).working = world.working := by
  induction calls generalizing world with
  | nil =>
      rfl
  | cons call later ih =>
      exact (ih (world.logAt call)).trans (working_logAt call world)

@[simp] theorem process_logAll : (world.logAll calls).process = world.process := by
  induction calls generalizing world with
  | nil =>
      rfl
  | cons call later ih =>
      exact (ih (world.logAt call)).trans (process_logAt call world)

end Unchanged

/-- A log is kept at a path, its file can be opened there, and it holds this content. -/
structure Logs (path : Bytes) (location : Location) (content : Bytes) (world : World) : Prop where
  kept : world.journal = some path
  opened :
    (world.tree.createDirectories world.working (Path.parent path)).openFile world.working path =
      .ok (location, content)

section Logs

variable {path content : Bytes} {location : Location} {world : World}

/-- What the file holds is what stands at its location, even before its directories are made. -/
theorem Logs.contentOf_eq (h : world.Logs path location content) :
    world.tree.contentOf location = content := by
  obtain ⟨name, directory, rfl, -, -, -, ⟨missing, rfl⟩ | found⟩ := Tree.openFile_cases h.opened
  · have before := Tree.get?_of_createDirectories (by simp) missing
    simp [Tree.contentOf, before]
  · exact Tree.contentOf_of_file (Tree.get?_of_createDirectories (by simp) found)

theorem Logs.tree_logAt (h : world.Logs path location content) (call : LogCall) :
    (world.logAt call).tree =
      (world.tree.createDirectories world.working (Path.parent path)).set location
        (.file (content ++ call.line world.process)) := by
  simp only [logAt, log, h.kept, continued, Tree.append, h.opened]
  rfl

/-- One note puts its line behind what the file holds. -/
theorem Logs.step (h : world.Logs path location content) (call : LogCall) :
    (world.logAt call).Logs path location (content ++ call.line world.process) ∧
      (world.logAt call).tree.lookup world.working path =
        .ok (.file (content ++ call.line world.process)) := by
  obtain ⟨name, directory, place, followed, short, accepted, found⟩ :=
    Tree.exists_file_of_opened (content ++ call.line world.process) h.opened
  rw [← h.tree_logAt call] at followed accepted found
  rw [place] at accepted found
  have unchanged := Tree.createDirectories_parent followed
  have again := Tree.openFile_of_file followed short accepted found
  refine ⟨⟨?_, ?_⟩, Tree.lookup_of_file followed short found⟩
  · rw [journal_logAt, h.kept]
  · rw [working_logAt, unchanged, again, place]

theorem Logs.run (h : world.Logs path location content) (calls : List LogCall) :
    (world.logAll calls).Logs path location
      (content ++ (calls.map (LogCall.line world.process)).flatten) := by
  induction calls generalizing world content with
  | nil =>
      simpa [logAll] using h
  | cons call later ih =>
      have rest := ih (h.step call).1
      rw [process_logAt, List.append_assoc] at rest
      exact rest

/-- After the last note the path leads to the file. -/
theorem Logs.lookup_run (h : world.Logs path location content) {calls : List LogCall}
    (some : calls ≠ []) :
    (world.logAll calls).tree.lookup world.working path =
      .ok (.file (content ++ (calls.map (LogCall.line world.process)).flatten)) := by
  obtain rfl | ⟨front, last, rfl⟩ := List.eq_nil_or_concat calls
  · exact absurd rfl some
  · have found := ((h.run front).step last).2
    rw [working_logAll, process_logAll, List.append_assoc] at found
    rw [logAll_concat]
    simpa using found

end Logs

/-- The log is only ever continued, by one line for each call, and each line is an object that is
read in one way only, which gives back the note of the call, whatever characters it has. -/
theorem content_logAll
    (calls : List LogCall)
    (world : World)
    {path initial : Bytes}
    {location : Location}
    (kept : world.journal = some path)
    (opened :
      (world.tree.createDirectories world.working (Path.parent path)).openFile world.working path =
        .ok (location, initial)) :
    let after := world.logAll calls
    let final := initial ++ (calls.map (LogCall.line world.process)).flatten
    world.tree.contentOf location = initial ∧
    after.tree.contentOf location = final ∧
    (calls ≠ [] → after.tree.lookup world.working path = .ok (.file final)) ∧
    ∀ call ∈ calls,
      call.line world.process = call.text world.process ++ [Bytes.newline] ∧
      (∀ byte ∈ call.text world.process, 0x20 ≤ byte) ∧
      ∀ found, Json.Reads found (call.text world.process) ↔ found = call.fields world.process := by
  have logs : world.Logs path location initial := ⟨kept, opened⟩
  refine ⟨logs.contentOf_eq, (logs.run calls).contentOf_eq, logs.lookup_run, ?_⟩
  intro call _
  refine ⟨?_, ?_, ?_⟩
  · exact call.note.line_eq_append call.clock.moment world.process
  · intro byte mem
    exact call.note.le_of_mem_text call.clock.moment world.process mem
  · intro found
    exact call.note.reads_text_iff call.clock.moment world.process

/-- The directories of the log are missing, and the messages hold quotation marks, backslashes, line
feeds and other control characters. -/
theorem content_logAll_escaped :
    let world : World :=
      ⟨⟨[([Bytes.ofText "h"], .directory)], []⟩, [], ⟨7, 0, 0⟩, 42,
        some (Bytes.ofText "/h/.amaranthine/logs/hook.log"), none, []⟩
    let call (now : Timestamp) (message : String) : LogCall :=
      ⟨⟨now, 5, 0⟩, .warning "relay" "odd\nevent" message⟩
    let calls := [call 7 "said \"no\"\n\\", call 6 "\x00\x1f\té"]
    let location := [Bytes.ofText "hook.log", Bytes.ofText "logs", Bytes.ofText ".amaranthine",
      Bytes.ofText "h"]
    world.tree.contentOf location = [] ∧
      (world.logAll calls).tree.contentOf location =
        (calls.map (LogCall.line 42)).flatten ∧
      ∀ call ∈ calls, Json.Reads (call.fields 42) (call.text 42) := by
  intro world call calls location
  have opened :
      (world.tree.createDirectories [] (Bytes.ofText "/h/.amaranthine/logs")).openFile []
        (Bytes.ofText "/h/.amaranthine/logs/hook.log") = .ok (location, []) := by
    decide
  obtain ⟨before, after, -, lines⟩ := content_logAll calls world rfl opened
  refine ⟨before, after, ?_⟩
  intro call mem
  exact ((lines call mem).2.2 _).mpr rfl

end World
end HookRelay
