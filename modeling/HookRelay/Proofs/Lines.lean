import HookRelay.Bytes
import Mathlib.Data.List.TakeWhile
import Mathlib.Tactic.ByContra

/-!
# Lines and blank ends

A frame on the wire is a line, and what is taken from it loses its blank end.  This module relates
the two: where the line feed of a byte string stands, and what trimming leaves of it.

* `Bytes.firstLine`, `Bytes.fromNewline`: a byte string before and from its first line feed on.
* `Bytes.Blank`: all bytes are blank.
* `Bytes.LineEnd`: what may follow a line: nothing, or a line feed and blank bytes.
* `trimEnd_append`: what trimming does to a concatenation.

A byte string trims like its first line exactly if nothing but blank bytes follows that line
(`trimEnd_eq_trimEnd_firstLine_iff`), and exactly then the trimmed bytes hold no line feed
(`newline_notMem_trimEnd_iff`).
-/

namespace HookRelay
namespace Bytes

/-- The bytes before the first line feed: all of them if there is none. -/
def firstLine (bytes : Bytes) : Bytes :=
  bytes.takeWhile (fun byte => byte != newline)

/-- The bytes from the first line feed on. -/
def fromNewline (bytes : Bytes) : Bytes :=
  bytes.dropWhile (fun byte => byte != newline)

def Blank (bytes : Bytes) : Prop :=
  ∀ byte ∈ bytes, isBlank byte = true

instance (bytes : Bytes) : Decidable (Blank bytes) :=
  inferInstanceAs (Decidable (∀ byte ∈ bytes, isBlank byte = true))

/-- Nothing, or a line feed followed by blank bytes. -/
def LineEnd (bytes : Bytes) : Prop :=
  bytes = [] ∨ ∃ blanks, bytes = newline :: blanks ∧ Blank blanks

theorem blank_nil : Blank [] :=
  List.forall_mem_nil _

section Lines

variable (bytes : Bytes)

theorem firstLine_append_fromNewline : firstLine bytes ++ fromNewline bytes = bytes :=
  List.takeWhile_append_dropWhile

theorem newline_notMem_firstLine : newline ∉ firstLine bytes := by
  intro mem
  have passed := List.all_eq_true.mp List.all_takeWhile newline mem
  simp at passed

theorem firstLine_of_notMem {bytes : Bytes} (h : newline ∉ bytes) : firstLine bytes = bytes := by
  refine List.takeWhile_eq_self_iff.mpr ?_
  intro byte mem
  have differs : byte ≠ newline := by
    rintro rfl
    exact h mem
  simpa using differs

/-- What stands behind a line feed has no influence on the first line. -/
theorem firstLine_append_of_mem {front : Bytes} (h : newline ∈ front) (back : Bytes) :
    firstLine (front ++ back) = firstLine front := by
  induction front with
  | nil =>
      exact absurd h List.not_mem_nil
  | cons byte later ih =>
      by_cases ends : byte = newline
      · simp [firstLine, ends]
      · have mem : newline ∈ later := by
          rcases List.mem_cons.mp h with here | there
          · exact absurd here.symm ends
          · exact there
        simpa [firstLine, ends] using ih mem

theorem firstLine_append_lineEnd
    {body tail : Bytes} (line : newline ∉ body) (ends : LineEnd tail) :
    firstLine (body ++ tail) = body := by
  rcases ends with rfl | ⟨blanks, rfl, -⟩
  · rw [List.append_nil, firstLine_of_notMem line]
  · have whole := firstLine_of_notMem line
    unfold firstLine at whole ⊢
    simp [List.takeWhile_append, whole]

/-- A byte string with a line feed behind it is read back as a line exactly if it holds none. -/
theorem firstLine_append_newline_iff : firstLine (bytes ++ [newline]) = bytes ↔ newline ∉ bytes := by
  constructor
  · intro same mem
    rw [← same] at mem
    exact newline_notMem_firstLine _ mem
  · intro none
    exact firstLine_append_lineEnd none (Or.inr ⟨[], rfl, blank_nil⟩)

theorem count_append_newline_iff :
    (bytes ++ [newline]).count newline = 1 ↔ newline ∉ bytes := by
  rw [List.count_append, List.count_singleton_self, ← List.count_eq_zero]
  omega

theorem firstLine_take (count : Nat) :
    firstLine (bytes.take count) = (firstLine bytes).take count := by
  simp [firstLine, List.take_takeWhile]

theorem exists_fromNewline_eq {bytes : Bytes} (h : fromNewline bytes ≠ []) :
    ∃ later, fromNewline bytes = newline :: later := by
  have first := List.head_dropWhile_not (fun byte => byte != newline) h
  cases parts : fromNewline bytes with
  | nil =>
      exact absurd parts h
  | cons byte later =>
      refine ⟨later, ?_⟩
      unfold fromNewline at parts
      have equal : byte = newline := by
        simpa [parts] using first
      rw [equal]

end Lines

section BlankEnds

variable (bytes : Bytes)

/-- What stands from the first line feed on is cut off with the end of the byte string. -/
theorem blank_fromNewline_mono
    {front whole : Bytes} (initial : front <+: whole) (h : Blank (fromNewline whole)) :
    Blank (fromNewline front) := by
  obtain ⟨back, rfl⟩ := initial
  by_cases none : fromNewline front = []
  · rw [none]
    exact blank_nil
  · have cut : fromNewline (front ++ back) = fromNewline front ++ back := by
      unfold fromNewline at none ⊢
      simp [List.dropWhile_append, none]
    rw [cut] at h
    exact fun byte mem => h byte (List.mem_append_left back mem)

theorem blank_fromNewline_of_lineEnd
    {body tail : Bytes} (line : newline ∉ body) (ends : LineEnd tail) :
    Blank (fromNewline (body ++ tail)) := by
  have parts := firstLine_append_fromNewline (body ++ tail)
  rw [firstLine_append_lineEnd line ends] at parts
  rw [List.append_cancel_left parts]
  rcases ends with rfl | ⟨blanks, rfl, blank⟩
  · exact blank_nil
  · intro byte mem
    rcases List.mem_cons.mp mem with rfl | mem
    · rfl
    · exact blank byte mem

theorem trimEnd_eq_nil_iff : trimEnd bytes = [] ↔ Blank bytes := by
  simp only [trimEnd, List.reverse_eq_nil_iff, List.dropWhile_eq_nil_iff, List.mem_reverse, Blank]

/-- A byte string without a blank byte at its end is left as it is. -/
theorem trimEnd_eq_self {bytes : Bytes} (h : ∀ last ∈ bytes.getLast?, isBlank last = false) :
    trimEnd bytes = bytes := by
  rcases List.eq_nil_or_concat bytes with rfl | ⟨front, last, rfl⟩
  · rfl
  · rw [List.concat_eq_append] at h ⊢
    exact trimEnd_append_of_not_isBlank front (h last (by simp))

/-- Trimming a concatenation trims its second part, and the first too if nothing is left. -/
theorem trimEnd_append (front back : Bytes) :
    trimEnd (front ++ back) =
      if trimEnd back = [] then trimEnd front else front ++ trimEnd back := by
  simp only [trimEnd, List.reverse_append, List.dropWhile_append, List.isEmpty_iff,
    List.reverse_eq_nil_iff]
  split <;> simp

theorem mem_of_mem_trimEnd {byte : UInt8} (h : byte ∈ trimEnd bytes) : byte ∈ bytes := by
  obtain ⟨blanks, whole, -⟩ := exists_trimEnd_append bytes
  rw [whole]
  exact List.mem_append_left blanks h

theorem mem_trimEnd_cons {byte : UInt8} {later : Bytes} (h : trimEnd (byte :: later) ≠ []) :
    byte ∈ trimEnd (byte :: later) := by
  obtain ⟨blanks, whole, -⟩ := exists_trimEnd_append (byte :: later)
  cases kept : trimEnd (byte :: later) with
  | nil =>
      exact absurd kept h
  | cons first others =>
      rw [kept, List.cons_append] at whole
      rw [(List.cons.inj whole).1]
      exact List.mem_cons_self

theorem newline_mem_trimEnd {bytes : Bytes} (h : ¬ Blank (fromNewline bytes)) :
    newline ∈ trimEnd bytes := by
  have kept : trimEnd (fromNewline bytes) ≠ [] := by
    rwa [Ne, trimEnd_eq_nil_iff]
  have some : fromNewline bytes ≠ [] := by
    intro none
    exact kept (by rw [none, trimEnd_nil])
  obtain ⟨later, parts⟩ := exists_fromNewline_eq some
  have cut := trimEnd_append (firstLine bytes) (fromNewline bytes)
  rw [firstLine_append_fromNewline, if_neg kept] at cut
  rw [cut, parts]
  rw [parts] at kept
  exact List.mem_append_right _ (mem_trimEnd_cons kept)

/-- If only blanks stand from the first line feed on, the first line is all that counts. -/
theorem trimEnd_of_blank_fromNewline {bytes : Bytes} (h : Blank (fromNewline bytes)) :
    trimEnd bytes = trimEnd (firstLine bytes) := by
  have cut := trimEnd_append (firstLine bytes) (fromNewline bytes)
  rwa [firstLine_append_fromNewline, if_pos ((trimEnd_eq_nil_iff _).mpr h)] at cut

theorem newline_notMem_trimEnd_firstLine : newline ∉ trimEnd (firstLine bytes) := by
  intro mem
  exact newline_notMem_firstLine bytes (mem_of_mem_trimEnd _ mem)

/-- A byte string trims like its first line exactly if only blanks stand behind that line. -/
theorem trimEnd_eq_trimEnd_firstLine_iff :
    trimEnd bytes = trimEnd (firstLine bytes) ↔ Blank (fromNewline bytes) := by
  refine ⟨?_, trimEnd_of_blank_fromNewline⟩
  intro same
  by_contra more
  have mem := newline_mem_trimEnd more
  rw [same] at mem
  exact newline_notMem_trimEnd_firstLine bytes mem

/-- Trimming removes the line feed exactly if only blanks stand behind the first line. -/
theorem newline_notMem_trimEnd_iff :
    newline ∉ trimEnd bytes ↔ Blank (fromNewline bytes) := by
  constructor
  · intro notMem
    by_contra more
    exact notMem (newline_mem_trimEnd more)
  · intro blank
    rw [trimEnd_of_blank_fromNewline blank]
    exact newline_notMem_trimEnd_firstLine bytes

end BlankEnds

end Bytes
end HookRelay
