/-!
Contract: classes of characters that make up a word.

Owns: the classes over Latin letters and decimal digits, extended by listed
characters, and membership in them.

Does not own: the letters of other scripts. They enter a class only by being
listed.
-/

set_option autoImplicit false

namespace GodotGraph.Pattern

/-- Any of three families of characters, and characters listed one by one. -/
structure CharClass where
  anyLetter : Bool
  capital : Bool
  digit : Bool
  listed : List Char
  deriving DecidableEq, Repr

namespace CharClass

def empty : CharClass := ⟨false, false, false, []⟩

def letters : CharClass := ⟨true, false, false, []⟩

def uppercase : CharClass := ⟨false, true, false, []⟩

def alphanumeric : CharClass := ⟨true, false, true, []⟩

def chars (listed : String) : CharClass := ⟨false, false, false, listed.toList⟩

/-- The class and the given characters. -/
def including (family : CharClass) (more : String) : CharClass :=
  ⟨family.anyLetter, family.capital, family.digit, family.listed ++ more.toList⟩

def contains (family : CharClass) (c : Char) : Bool :=
  (family.anyLetter && c.isAlpha) || (family.capital && c.isUpper) ||
    (family.digit && c.isDigit) || family.listed.contains c

/-- Listing more characters adds these and no others. -/
theorem contains_including (family : CharClass) (more : String) (c : Char) :
    (family.including more).contains c = (family.contains c || more.toList.contains c) := by
  simp [contains, including, Bool.or_assoc]

end CharClass

end GodotGraph.Pattern
