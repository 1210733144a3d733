/-!
# Blank text

The characters with the Unicode property `White_Space`, and text with the blanks at its ends
removed.
-/

namespace Reminders

namespace Text

/-- The Unicode property `White_Space`. -/
def isBlank (c : Char) : Bool :=
  let n := c.toNat
  (9 ≤ n && n ≤ 13) || n == 0x20 || n == 0x85 || n == 0xa0 || n == 0x1680 ||
    (0x2000 ≤ n && n ≤ 0x200a) || n == 0x2028 || n == 0x2029 || n == 0x202f || n == 0x205f ||
    n == 0x3000

/-- The characters from the first one that is not blank on. -/
def trimStart (s : List Char) : List Char := s.dropWhile isBlank

/-- The text without the blanks at its beginning and its end. -/
def trim (s : String) : String :=
  String.ofList (trimStart (trimStart s.toList).reverse).reverse

/-- Whether a text holds nothing but blanks. -/
def isAllBlank (s : String) : Bool := s.toList.all isBlank

/-- Lower-case forms of the ASCII letters; other characters stay. -/
def asciiLower (s : String) : String := s.map Char.toLower

/-- Whether two texts are equal but for the case of ASCII letters. -/
def equalsIgnoringCase (s t : String) : Bool := asciiLower s == asciiLower t

end Text

end Reminders
