/-!
# Clipping a text to a number of bytes

`clip max s` is the longest prefix of `s` that ends on a character boundary and takes at most
`max` bytes of UTF-8.
-/

namespace Tabular

namespace Text

/-- The longest prefix of the characters that takes at most `max` bytes. -/
def clipChars : Nat → List Char → List Char
  | _, [] => []
  | max, c :: cs => if c.utf8Size ≤ max then c :: clipChars (max - c.utf8Size) cs else []

/-- The longest prefix of the text that takes at most `max` bytes and splits no character. -/
def clip (max : Nat) (s : String) : String := String.ofList (clipChars max s.toList)

/-- The text itself if it takes at most `max` bytes, else its clipped form and three dots. -/
def excerpt (max : Nat) (s : String) : String :=
  if s.utf8ByteSize ≤ max then s else clip max s ++ "..."

end Text

end Tabular
