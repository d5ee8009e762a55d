import SchemaLedger.Text.Ranges

/-!
# White space

White space is the Unicode property White_Space: 25 characters. A zero width space, a byte order
mark and the information separators do not belong to it.
-/

namespace SchemaLedger.Text

/-- The code points with the property White_Space. -/
def blankRanges : CharRanges :=
  [(0x09, 0x0D), (0x20, 0x20), (0x85, 0x85), (0xA0, 0xA0), (0x1680, 0x1680), (0x2000, 0x200A),
   (0x2028, 0x2029), (0x202F, 0x202F), (0x205F, 0x205F), (0x3000, 0x3000)]

/-- White space. -/
def isBlank (c : Char) : Bool := blankRanges.contains c

/-- A text with the white space at both ends removed. -/
def trimBlank (s : List Char) : List Char :=
  ((s.dropWhile isBlank).reverse.dropWhile isBlank).reverse

/-- A text of nothing but white space. -/
def IsBlankText (s : String) : Prop := s.toList.all isBlank

instance (s : String) : Decidable (IsBlankText s) :=
  inferInstanceAs (Decidable (s.toList.all isBlank = true))

end SchemaLedger.Text
