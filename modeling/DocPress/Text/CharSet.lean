/-!
Sets of characters, written as closed intervals of code points. The character classes of Unicode
that the library needs (letters, numerals, punctuation, letter case) are values of this type.
-/

namespace DocPress.Text

/-- A set of characters: the code points that lie in one of the closed intervals. -/
structure CharSet where
  intervals : Array (Nat × Nat)

/-- Whether the code point lies in the closed interval. -/
def CharSet.within (code : Nat) (interval : Nat × Nat) : Bool :=
  interval.1 ≤ code && code ≤ interval.2

/-- Whether the character belongs to the set. -/
def CharSet.contains (set : CharSet) (c : Char) : Bool :=
  set.intervals.any (CharSet.within c.toNat)

end DocPress.Text
