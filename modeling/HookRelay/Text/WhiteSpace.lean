/-!
# White space

The characters with the Unicode property `White_Space`, and texts without the white space around
them.

* `WhiteSpace.points`: the code points, in order.
* `WhiteSpace.trim`: a text without white space at both ends.
-/

namespace HookRelay
namespace WhiteSpace

/-- The code points with the property, in order. -/
def points : List Nat :=
  [0x0009, 0x000a, 0x000b, 0x000c, 0x000d, 0x0020, 0x0085, 0x00a0, 0x1680,
    0x2000, 0x2001, 0x2002, 0x2003, 0x2004, 0x2005, 0x2006, 0x2007, 0x2008, 0x2009, 0x200a,
    0x2028, 0x2029, 0x202f, 0x205f, 0x3000]

def isWhiteSpace (char : Char) : Bool :=
  points.contains char.toNat

def trimEnd (text : List Char) : List Char :=
  (text.reverse.dropWhile isWhiteSpace).reverse

def trim (text : List Char) : List Char :=
  trimEnd (text.dropWhile isWhiteSpace)

/-- A text that neither begins nor ends with white space is left alone. -/
theorem trim_of_ends
    {text : List Char}
    (first : ∀ char ∈ text.head?, isWhiteSpace char = false)
    (last : ∀ char ∈ text.getLast?, isWhiteSpace char = false) :
    trim text = text := by
  have front : text.dropWhile isWhiteSpace = text := by
    cases text with
    | nil =>
        rfl
    | cons char later =>
        simp [first char rfl]
  have back : text.reverse.dropWhile isWhiteSpace = text.reverse := by
    rw [← List.head?_reverse] at last
    cases reversed : text.reverse with
    | nil =>
        rfl
    | cons char later =>
        simp [last char (by simp [reversed])]
  rw [trim, trimEnd, front, back, List.reverse_reverse]

end WhiteSpace
end HookRelay
