import HookRelay.Proofs.FileContent
import Mathlib.Data.List.TakeWhile

/-!
# Making directories

The directories on a path are made one after the other, each where nothing is.  What was there
before is not touched, and nothing is made if the way is open already.

* `Path.names_parent`: what stands before the last slash leads to the directory of a file.
* `Tree.get?_createDirectories`: a directory is made only where nothing was.
* `Tree.createDirectories_parent`: once a path to a file can be followed, nothing is made for it.
-/

namespace HookRelay
namespace Path

section Parent

variable {path : Bytes}

theorem parts_of_notMem (noSlash : Places.slash ∉ path) : parts path = [path] := by
  induction path with
  | nil =>
      rfl
  | cons byte later ih =>
      rw [List.mem_cons, not_or] at noSlash
      rw [parts, if_neg (Ne.symm noSlash.1), ih noSlash.2]

theorem names_of_notMem (some : path ≠ []) (noSlash : Places.slash ∉ path) :
    names path = [path] := by
  rw [names, parts_of_notMem noSlash]
  simpa using some

theorem parent_of_notMem (noSlash : Places.slash ∉ path) : parent path = [] := by
  have all : path.reverse.dropWhile (fun byte => byte != Places.slash) = [] := by
    rw [List.dropWhile_eq_nil_iff]
    intro byte mem
    rw [bne_iff_ne]
    rintro rfl
    exact noSlash (List.mem_reverse.mp mem)
  rw [parent, all]
  rfl

theorem exists_parent (mem : Places.slash ∈ path) :
    ∃ last, path = parent path ++ Places.slash :: last ∧ Places.slash ∉ last := by
  obtain ⟨last, front, split, noSlash⟩ := List.eq_append_cons_of_mem (List.mem_reverse.mpr mem)
  have kept : ∀ byte ∈ last, (byte != Places.slash) = true := by
    intro byte inside
    rw [bne_iff_ne]
    rintro rfl
    exact noSlash inside
  have before : parent path = front.reverse := by
    rw [parent, split, List.dropWhile_append_of_pos kept]
    simp
  refine ⟨last.reverse, ?_, by rwa [List.mem_reverse]⟩
  have whole := congrArg List.reverse split
  rw [List.reverse_reverse] at whole
  rw [before]
  simpa using whole

/-- What stands before the last slash are all names but the last. -/
theorem names_parent (asFile : asksForDirectory path = false) :
    names (parent path) = (names path).dropLast := by
  by_cases mem : Places.slash ∈ path
  · obtain ⟨last, whole, noSlash⟩ := exists_parent mem
    have some : last ≠ [] := by
      rintro rfl
      rw [whole, asksForDirectory, List.getLast?_concat] at asFile
      exact absurd asFile (by decide)
    have split : names path = names (parent path) ++ [last] :=
      calc
        names path = names (parent path ++ Places.slash :: last) := congrArg names whole
        _ = names (parent path) ++ [last] := by
            rw [names_append_slash, names_of_notMem some noSlash]
    rw [split, List.dropLast_concat]
  · rw [parent_of_notMem mem]
    by_cases empty : path = []
    · rw [empty]
      rfl
    · rw [names_of_notMem empty mem]
      rfl

theorem isAbsolute_parent (some : parent path ≠ []) :
    isAbsolute (parent path) = isAbsolute path := by
  by_cases mem : Places.slash ∈ path
  · obtain ⟨last, whole, -⟩ := exists_parent mem
    obtain ⟨first, others, start⟩ := List.exists_cons_of_ne_nil some
    have head := congrArg List.head? whole
    rw [start] at head
    rw [isAbsolute, isAbsolute, head, start]
    rfl
  · exact absurd (parent_of_notMem mem) some

end Parent

end Path

namespace Tree

/-- No directory is made on a way that is open. -/
theorem createFrom_of_descend (tree : Tree) (names : List Name) :
    ∀ {here there : Location},
      tree.descend here names = .ok there → createFrom here tree names = tree := by
  induction names with
  | nil =>
      intro here there _
      rfl
  | cons name later ih =>
      intro here there reached
      unfold descend at reached
      unfold createFrom
      split at reached
      · rename_i isDot
        rw [if_pos isDot]
        exact ih reached
      · rename_i notDot
        rw [if_neg notDot]
        split at reached
        · rename_i isDotDot
          rw [if_pos isDotDot]
          exact ih reached
        · rename_i notDotDot
          rw [if_neg notDotDot]
          split at reached
          · cases reached
          · rename_i short
            rw [if_neg short]
            split at reached
            · cases reached
            · exact ih reached
            · cases reached

/-- A location is as it was, or a directory has been made where nothing was. -/
theorem get?_createFrom (location : Location) (names : List Name) :
    ∀ (here : Location) (tree : Tree),
      (createFrom here tree names).get? location = tree.get? location ∨
        tree.get? location = none ∧
          (createFrom here tree names).get? location = some .directory := by
  induction names with
  | nil =>
      intro here tree
      exact Or.inl rfl
  | cons name later ih =>
      intro here tree
      unfold createFrom
      split
      · exact ih here tree
      · split
        · exact ih here.tail tree
        · split
          · exact Or.inl rfl
          · split
            · rename_i missing
              rcases ih (name :: here) (tree.set (name :: here) .directory) with same | ⟨none, made⟩
              · rw [same, get?_set]
                split
                · rename_i new
                  rw [new]
                  exact Or.inr ⟨missing, rfl⟩
                · exact Or.inl rfl
              · rw [get?_set] at none
                split at none
                · cases none
                · exact Or.inr ⟨none, made⟩
            · exact ih (name :: here) tree
            · exact Or.inl rfl

section Path

variable {tree : Tree} {working : Location} {path : Bytes}

theorem get?_createDirectories
    (working : Location) (path : Bytes) (tree : Tree) (location : Location) :
    (tree.createDirectories working path).get? location = tree.get? location ∨
      tree.get? location = none ∧
        (tree.createDirectories working path).get? location = some .directory := by
  unfold createDirectories
  split
  · exact Or.inl rfl
  · exact get?_createFrom location _ _ tree

/-- What is no directory afterwards was there before. -/
theorem get?_of_createDirectories {location : Location} {found : Option Entry}
    (noDirectory : found ≠ some .directory)
    (after : (tree.createDirectories working path).get? location = found) :
    tree.get? location = found := by
  rcases get?_createDirectories working path tree location with same | ⟨-, made⟩
  · rw [← same, after]
  · exact absurd (after.symm.trans made) noDirectory

/-- A path that ends with a name leads to it in the directory of all names before. -/
theorem endOf_eq_some {place directory : Location} {name : Name} {asDirectory : Bool}
    (ends : endOf place path = ⟨directory, some name, asDirectory⟩) :
    place = directory ∧ Path.asksForDirectory path = asDirectory := by
  unfold endOf at ends
  split at ends
  · cases ends
  · split at ends
    · cases ends
    · split at ends
      · cases ends
      · exact ⟨congrArg Target.directory ends, congrArg Target.asDirectory ends⟩

/-- For a file to which a path can be followed no directory is made. -/
theorem createDirectories_parent {directory : Location} {name : Name}
    (followed : tree.follow working path = .ok ⟨directory, some name, false⟩) :
    tree.createDirectories working (Path.parent path) = tree := by
  unfold createDirectories
  split
  · rfl
  · rename_i accepted
    have some : Path.parent path ≠ [] := by
      intro empty
      rw [empty] at accepted
      exact absurd accepted (by decide)
    obtain ⟨-, place, reached, ends⟩ := follow_eq_ok_iff.mp followed
    obtain ⟨rfl, asFile⟩ := endOf_eq_some ends.symm
    have same : start working (Path.parent path) = start working path := by
      rw [start, start, Path.isAbsolute_parent some]
    rw [same, Path.names_parent asFile]
    exact createFrom_of_descend tree _ reached

end Path

end Tree
end HookRelay
