/-!
# Blank characters

A character is blank if it has the Unicode property `White_Space`.  The property has twenty-five
members, in ten ranges.  Expressions are trimmed of them at both ends.
-/

namespace SoapPolicy.Text

/-- The ranges of blank characters, each with its first and last code point. -/
def blankRanges : List (Nat × Nat) :=
  [(0x09, 0x0D), (0x20, 0x20), (0x85, 0x85), (0xA0, 0xA0), (0x1680, 0x1680), (0x2000, 0x200A),
    (0x2028, 0x2029), (0x202F, 0x202F), (0x205F, 0x205F), (0x3000, 0x3000)]

/-- Whether a character is blank. -/
def isBlank (c : Char) : Bool :=
  blankRanges.any fun (lo, hi) => lo ≤ c.toNat && c.toNat ≤ hi

/-- A text without the blank characters at its ends. -/
def trim (cs : List Char) : List Char :=
  ((cs.dropWhile isBlank).reverse.dropWhile isBlank).reverse

/-- The property has twenty-five members. -/
example : (blankRanges.map fun (lo, hi) => hi + 1 - lo).sum = 25 := by decide

/-- The next line character and the ideographic space are blank, the zero width space is not. -/
example : isBlank '\u0085' ∧ isBlank '\u3000' ∧ ¬ isBlank '\u200b' := by decide

example : trim [' ', '\t', 'a', ' ', 'b', '\n'] = ['a', ' ', 'b'] := by decide

/-- A text that starts and ends with other characters is left alone. -/
theorem trim_eq_self {cs : List Char} (hfirst : ∀ c ∈ cs.head?, isBlank c = false)
    (hlast : ∀ c ∈ cs.getLast?, isBlank c = false) : trim cs = cs := by
  have keep : ∀ l : List Char, (∀ c ∈ l.head?, isBlank c = false) → l.dropWhile isBlank = l
    | [], _ => rfl
    | c :: l, h => by rw [List.dropWhile_cons, h c rfl]; rfl
  rw [trim, keep cs hfirst, keep cs.reverse (by simpa using hlast), List.reverse_reverse]

end SoapPolicy.Text
