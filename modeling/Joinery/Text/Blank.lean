/-!
Contract: the white space that may stand inside written dates and times.

`isBlank` is the Unicode property White_Space, which is wider than the ASCII
class of `Char.isWhitespace`.
-/

namespace Joinery.Text

/-- The Unicode property White_Space. -/
def isBlank (c : Char) : Bool :=
  let code := c.toNat
  (0x09 ≤ code && code ≤ 0x0d) || code = 0x20 || code = 0x85 || code = 0xa0 ||
    code = 0x1680 || (0x2000 ≤ code && code ≤ 0x200a) || code = 0x2028 ||
    code = 0x2029 || code = 0x202f || code = 0x205f || code = 0x3000

/-- The text from its first character that is not white space. -/
def skipBlank (text : List Char) : List Char :=
  text.dropWhile isBlank

end Joinery.Text
