import HookRelay.Files.Tree

/-!
# What is written to a file is found there

A path that ends at a file leads through directories only.  Writing the file changes what stands at
its location, which is none of these directories, so that the path leads to the same location
afterwards and finds there what was written.

* `Tree.follow_mono`, `Tree.follow_set`: a path goes on leading where it led.
* `Tree.openFile_cases`: where a file is written, and what stands there.
* `Tree.lookup_set_of_opened`: the file at the path has the content that was put there.
* `Tree.write_of_write`: a file once written can be written again.
-/

namespace HookRelay
namespace Tree

/-- Where a path ends in the directory to which all its names but the last lead. -/
def endOf (directory : Location) (path : Bytes) : Target :=
  match (Path.names path).getLast? with
  | none => ⟨directory, none, true⟩
  | some name =>
      if name = Path.dot then
        ⟨directory, none, true⟩
      else if name = Path.dotDot then
        ⟨directory.tail, none, true⟩
      else
        ⟨directory, some name, Path.asksForDirectory path⟩

section Following

variable {tree : Tree} {working : Location} {path : Bytes}

/-- A way through directories stays open as long as these directories stay. -/
theorem descend_mono {after : Tree}
    (stay : ∀ location,
      tree.get? location = some .directory → after.get? location = some .directory)
    (names : List Name) :
    ∀ {here there : Location},
      tree.descend here names = .ok there → after.descend here names = .ok there := by
  induction names with
  | nil =>
      intro here there reached
      exact reached
  | cons first later ih =>
      intro here there reached
      unfold descend at reached ⊢
      split at reached
      · rename_i isDot
        rw [if_pos isDot]
        exact ih reached
      · rename_i notDot
        rw [if_neg notDot]
        split at reached
        · rename_i isDotDot
          rw [if_pos isDotDot]
          exact ih reached
        · rename_i notDotDot
          rw [if_neg notDotDot]
          split at reached
          · cases reached
          · rename_i short
            rw [if_neg short]
            split at reached
            · cases reached
            · rename_i found
              rw [stay _ found]
              exact ih reached
            · cases reached

/-- A path is followed to the directory of its last name, and what that name asks for is sought
there. -/
theorem follow_eq_ok_iff {target : Target} :
    tree.follow working path = .ok target ↔
      Path.refusal? path = none ∧
        ∃ directory,
          tree.descend (start working path) (Path.names path).dropLast = .ok directory ∧
            target = endOf directory path := by
  unfold follow
  split
  · rename_i refused
    simp [refused]
  · rename_i accepted
    dsimp only
    split
    · rename_i lost
      simp [lost]
    · rename_i directory reached
      simp only [accepted, reached, Except.ok.injEq, exists_eq_left', true_and]
      cases last : (Path.names path).getLast? with
      | none =>
          simp [endOf, last, eq_comm]
      | some name =>
          by_cases isDot : name = Path.dot
          · simp [endOf, last, isDot, eq_comm]
          · by_cases isDotDot : name = Path.dotDot
            · rw [isDotDot] at last
              have other : ¬ Path.dotDot = Path.dot := by decide
              simp [endOf, last, isDotDot, other, eq_comm]
            · simp [endOf, last, isDot, isDotDot, eq_comm]

theorem follow_mono {after : Tree} {target : Target}
    (stay : ∀ location,
      tree.get? location = some .directory → after.get? location = some .directory)
    (followed : tree.follow working path = .ok target) :
    after.follow working path = .ok target := by
  obtain ⟨accepted, directory, reached, rfl⟩ := follow_eq_ok_iff.mp followed
  exact follow_eq_ok_iff.mpr ⟨accepted, directory, descend_mono stay _ reached, rfl⟩

/-- A change where no directory stands leaves the directories as they are. -/
theorem get?_set_of_directory {name : Name} {above location : Location} {entry : Entry}
    (noDirectory : tree.get? (name :: above) ≠ some .directory)
    (found : tree.get? location = some .directory) :
    (tree.set (name :: above) entry).get? location = some .directory := by
  have other : location ≠ name :: above := by
    rintro rfl
    exact noDirectory found
  rw [get?_set, if_neg other, found]

theorem follow_set {name : Name} {above : Location} {entry : Entry} {target : Target}
    (noDirectory : tree.get? (name :: above) ≠ some .directory)
    (followed : tree.follow working path = .ok target) :
    (tree.set (name :: above) entry).follow working path = .ok target :=
  follow_mono (fun _ found => get?_set_of_directory noDirectory found) followed

/-- A file is written where its path leads, if there is nothing or a file and it is not refused. -/
theorem openFile_cases {location : Location} {content : Bytes}
    (opened : tree.openFile working path = .ok (location, content)) :
    ∃ name directory,
      location = name :: directory ∧
        tree.follow working path = .ok ⟨directory, some name, false⟩ ∧
        ¬ Path.nameCapacity < name.length ∧
        tree.refusal? location = none ∧
        (tree.get? location = none ∧ content = [] ∨
          tree.get? location = some (.file content)) := by
  unfold openFile at opened
  split at opened
  · cases opened
  · rename_i target followed
    obtain ⟨directory, last, asDirectory⟩ := target
    cases last with
    | none =>
        cases opened
    | some name =>
        dsimp only at opened
        split at opened
        · cases opened
        · rename_i asFile
          rw [Bool.not_eq_true] at asFile
          subst asFile
          split at opened
          · cases opened
          · rename_i short
            split at opened
            · cases opened
            · cases opened
            · rename_i missing accepted
              obtain ⟨rfl, rfl⟩ := Prod.mk.inj (Except.ok.inj opened)
              exact ⟨name, directory, rfl, followed, short, accepted, Or.inl ⟨missing, rfl⟩⟩
            · rename_i found accepted
              obtain ⟨rfl, rfl⟩ := Prod.mk.inj (Except.ok.inj opened)
              exact ⟨name, directory, rfl, followed, short, accepted, Or.inr found⟩
            · cases opened

section Found

variable {name : Name} {directory : Location} {content : Bytes}

theorem openFile_of_file
    (followed : tree.follow working path = .ok ⟨directory, some name, false⟩)
    (short : ¬ Path.nameCapacity < name.length)
    (accepted : tree.refusal? (name :: directory) = none)
    (found : tree.get? (name :: directory) = some (.file content)) :
    tree.openFile working path = .ok (name :: directory, content) := by
  simp [openFile, followed, short, accepted, found]

theorem lookup_of_file
    (followed : tree.follow working path = .ok ⟨directory, some name, false⟩)
    (short : ¬ Path.nameCapacity < name.length)
    (found : tree.get? (name :: directory) = some (.file content)) :
    tree.lookup working path = .ok (.file content) := by
  have located : tree.find ⟨directory, some name, false⟩ = .ok (.file content) := by
    simp [find, short, found]
  unfold lookup
  rw [followed]
  dsimp only
  rw [located]
  rfl

end Found

theorem write_eq_ok_iff {content : Bytes} {after : Tree} :
    tree.write working path content = .ok after ↔
      ∃ location old,
        tree.openFile working path = .ok (location, old) ∧
          after = tree.set location (.file content) := by
  unfold write
  split
  · rename_i error refused
    simp [refused]
  · rename_i location old opened
    simp [opened, eq_comm]

/-- Where a file can be opened, it is found with the content that is put there. -/
theorem exists_file_of_opened {location : Location} {old : Bytes} (content : Bytes)
    (opened : tree.openFile working path = .ok (location, old)) :
    ∃ name directory,
      location = name :: directory ∧
        (tree.set location (.file content)).follow working path =
          .ok ⟨directory, some name, false⟩ ∧
        ¬ Path.nameCapacity < name.length ∧
        (tree.set location (.file content)).refusal? location = none ∧
        (tree.set location (.file content)).get? location = some (.file content) := by
  obtain ⟨name, directory, rfl, followed, short, accepted, stands⟩ := openFile_cases opened
  have noDirectory : tree.get? (name :: directory) ≠ some .directory := by
    rcases stands with ⟨missing, _⟩ | found
    · rw [missing]
      simp
    · rw [found]
      simp
  refine ⟨name, directory, rfl, follow_set noDirectory followed, short, accepted, ?_⟩
  rw [get?_set, if_pos rfl]

theorem exists_file_of_write {content : Bytes} {after : Tree}
    (written : tree.write working path content = .ok after) :
    ∃ name directory,
      after.follow working path = .ok ⟨directory, some name, false⟩ ∧
        ¬ Path.nameCapacity < name.length ∧
        after.refusal? (name :: directory) = none ∧
        after.get? (name :: directory) = some (.file content) := by
  obtain ⟨location, old, opened, rfl⟩ := write_eq_ok_iff.mp written
  obtain ⟨name, directory, rfl, file⟩ := exists_file_of_opened content opened
  exact ⟨name, directory, file⟩

/-- The file at a path has the content that was put there. -/
theorem lookup_set_of_opened {location : Location} {old : Bytes} (content : Bytes)
    (opened : tree.openFile working path = .ok (location, old)) :
    (tree.set location (.file content)).lookup working path = .ok (.file content) := by
  obtain ⟨name, directory, rfl, followed, short, -, found⟩ := exists_file_of_opened content opened
  exact lookup_of_file followed short found

theorem write_of_write {content next : Bytes} {after : Tree}
    (written : tree.write working path content = .ok after) :
    ∃ last, after.write working path next = .ok last := by
  obtain ⟨name, directory, followed, short, accepted, found⟩ := exists_file_of_write written
  refine ⟨after.set (name :: directory) (.file next), write_eq_ok_iff.mpr ?_⟩
  exact ⟨name :: directory, content, openFile_of_file followed short accepted found, rfl⟩

theorem read_of_lookup {content : Bytes} {count : Nat}
    (found : tree.lookup working path = .ok (.file content)) :
    tree.read working count path = .ok (content.take count) := by
  simp [read, found]

end Following

end Tree
end HookRelay
