import HookRelay.Occurrence
import Mathlib.Data.Nat.Count

/-!
# The places of a word

Counting the finds of a word from the left, and going on behind each find, misses the places at
which the word overlaps an earlier find.  A word that does not overlap itself has no such places, so
that the count is the number of all places at which it stands.

* `Bytes.StandsAt`: the word stands behind that many bytes.
* `Bytes.Unbordered`: no proper end of the word is one of its beginnings.
* `Bytes.places`: all positions at which a word stands.

`countWord_eq_card_places` says that the count of an unbordered word is the number of its places.
`standsAt_append_iff` says that bytes behind a place have no influence on it.
-/

namespace HookRelay
namespace Bytes

/-- The word stands behind the first `position` bytes. -/
def StandsAt (word : Bytes) (position : Nat) (bytes : Bytes) : Prop :=
  word <+: bytes.drop position

instance (word : Bytes) (position : Nat) (bytes : Bytes) :
    Decidable (StandsAt word position bytes) :=
  inferInstanceAs (Decidable (word <+: bytes.drop position))

/-- No end of the word but the word itself is also one of its beginnings. -/
def Unbordered (word : Bytes) : Prop :=
  ∀ shift < word.length, 0 < shift → ¬ word.drop shift <+: word

instance (word : Bytes) : Decidable (Unbordered word) :=
  inferInstanceAs (Decidable (∀ shift < word.length, 0 < shift → ¬ word.drop shift <+: word))

/-- The positions at which a word stands. -/
def places (word bytes : Bytes) : Finset Nat :=
  (Finset.range bytes.length).filter (fun position => StandsAt word position bytes)

section StandsAt

variable {word bytes : Bytes} {position : Nat}

theorem StandsAt.add_length_le (stands : StandsAt word position bytes) (some : word ≠ []) :
    position + word.length ≤ bytes.length := by
  have short := stands.length_le
  have long := List.length_pos_iff.mpr some
  rw [List.length_drop] at short
  omega

theorem mem_places_iff (some : word ≠ []) :
    position ∈ places word bytes ↔ StandsAt word position bytes := by
  rw [places, Finset.mem_filter, Finset.mem_range]
  refine ⟨And.right, fun stands => ⟨?_, stands⟩⟩
  have inside := stands.add_length_le some
  have long := List.length_pos_iff.mpr some
  omega

/-- A word stands somewhere exactly if it is a factor. -/
theorem exists_standsAt_iff : (∃ position, StandsAt word position bytes) ↔ word <:+: bytes := by
  constructor
  · rintro ⟨position, stands⟩
    exact stands.isInfix.trans (List.drop_suffix position bytes).isInfix
  · rintro ⟨front, back, rfl⟩
    refine ⟨front.length, ?_⟩
    rw [StandsAt, List.append_assoc, List.drop_left]
    exact List.prefix_append word back

theorem standsAt_cons_succ_iff {byte : UInt8} :
    StandsAt word (position + 1) (byte :: bytes) ↔ StandsAt word position bytes :=
  Iff.rfl

/-- What stands behind a place has no influence on it. -/
theorem standsAt_append_iff
    {back : Bytes} (inside : position + word.length ≤ bytes.length) :
    StandsAt word position (bytes ++ back) ↔ StandsAt word position bytes := by
  have fits : word.length ≤ (bytes.drop position).length := by
    rw [List.length_drop]
    omega
  rw [StandsAt, StandsAt, List.drop_append_of_le_length (by omega)]
  constructor
  · intro stands
    exact List.prefix_of_prefix_length_le stands (List.prefix_append _ back) fits
  · intro stands
    exact stands.trans (List.prefix_append _ back)

/-- What follows a word at a place stands as many bytes behind it. -/
theorem StandsAt.append_right
    {front back : Bytes} (stands : StandsAt (front ++ back) position bytes) :
    StandsAt back (position + front.length) bytes := by
  obtain ⟨rest, whole⟩ := stands
  refine ⟨rest, ?_⟩
  rw [← List.drop_drop, ← whole, List.append_assoc, List.drop_left]

/-- An unbordered word that stands in front does not stand again before its end. -/
theorem Unbordered.not_standsAt
    (unbordered : Unbordered word)
    (front : word <+: bytes)
    (positive : 0 < position)
    (inside : position < word.length) :
    ¬ StandsAt word position bytes := by
  intro again
  obtain ⟨rest, rfl⟩ := front
  rw [StandsAt, List.drop_append_of_le_length (Nat.le_of_lt inside)] at again
  refine unbordered position inside positive ?_
  refine List.prefix_of_prefix_length_le (List.prefix_append _ rest) again ?_
  rw [List.length_drop]
  omega

end StandsAt

section Count

variable {word : Bytes}

theorem card_places_cons (word : Bytes) (byte : UInt8) (later : Bytes) :
    (places word (byte :: later)).card =
      (places word later).card + if word <+: byte :: later then 1 else 0 := by
  have split :=
    Nat.count_succ' (fun position => StandsAt word position (byte :: later)) later.length
  rw [Nat.count_eq_card_filter_range, Nat.count_eq_card_filter_range] at split
  exact split

/-- The finds from a position on which does not lie inside a place are the places. -/
theorem countWordFrom_eq_card_places
    (unbordered : Unbordered word)
    {skipped : Nat} {bytes : Bytes}
    (free : ∀ position < skipped, ¬ StandsAt word position bytes) :
    countWordFrom word skipped bytes = (places word bytes).card := by
  induction bytes generalizing skipped with
  | nil =>
      rfl
  | cons byte later ih =>
      rw [card_places_cons, countWordFrom]
      by_cases inside : 0 < skipped
      · have none : ¬ word <+: byte :: later := free 0 inside
        rw [if_pos inside, if_neg none, Nat.add_zero]
        refine ih ?_
        intro position before
        exact free (position + 1) (by omega)
      · by_cases found : word <+: byte :: later
        · rw [if_neg inside, if_pos (List.isPrefixOf_iff_prefix.mpr found), if_pos found]
          refine congrArg (· + 1) (ih ?_)
          intro position before
          rw [← standsAt_cons_succ_iff]
          exact unbordered.not_standsAt found (Nat.succ_pos position) (by omega)
        · have none : ¬ word.isPrefixOf (byte :: later) = true := by
            rwa [List.isPrefixOf_iff_prefix]
          rw [if_neg inside, if_neg none, if_neg found, Nat.add_zero]
          refine ih ?_
          intro position before
          exact absurd before (Nat.not_lt_zero position)

/-- The count of a word that does not overlap itself is the number of its places. -/
theorem countWord_eq_card_places (unbordered : Unbordered word) (bytes : Bytes) :
    countWord word bytes = (places word bytes).card := by
  refine countWordFrom_eq_card_places unbordered ?_
  intro position before
  exact absurd before (Nat.not_lt_zero position)

theorem countWord_pos_iff
    (some : word ≠ []) (unbordered : Unbordered word) (bytes : Bytes) :
    0 < countWord word bytes ↔ word <:+: bytes := by
  rw [countWord_eq_card_places unbordered, Finset.card_pos, ← exists_standsAt_iff]
  exact exists_congr fun position => mem_places_iff some

end Count

end Bytes
end HookRelay
