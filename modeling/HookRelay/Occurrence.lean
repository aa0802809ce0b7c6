import HookRelay.Bytes

/-!
# Words in byte strings

* `Bytes.occurs`: the word stands somewhere in the byte string.
* `Bytes.countWord`: how often the word stands in the byte string, searching from the left and
  going on behind each find.

`occurs_iff` says that searching from position to position finds every word that is a factor.
-/

namespace HookRelay
namespace Bytes

def occurs (word : Bytes) : Bytes → Bool
  | [] =>
      word.isEmpty
  | byte :: later =>
      word.isPrefixOf (byte :: later) || occurs word later

/-- The number of finds of a word, when the first `skipped` positions are inside an earlier one. -/
def countWordFrom (word : Bytes) (skipped : Nat) : Bytes → Nat
  | [] =>
      0
  | byte :: later =>
      if 0 < skipped then
        countWordFrom word (skipped - 1) later
      else if word.isPrefixOf (byte :: later) then
        countWordFrom word (word.length - 1) later + 1
      else
        countWordFrom word 0 later

/-- The number of finds of a word, from the left and without overlap. -/
def countWord (word bytes : Bytes) : Nat :=
  countWordFrom word 0 bytes

/-- A word occurs exactly if it is a factor of the byte string. -/
theorem occurs_iff (word : Bytes) :
    ∀ bytes : Bytes, occurs word bytes = true ↔ word <:+: bytes
  | [] => by
      simp [occurs]
  | byte :: later => by
      simp [occurs, occurs_iff word later, List.infix_cons_iff]

end Bytes
end HookRelay
