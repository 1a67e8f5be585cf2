/-!
# Blank characters

The white space of Unicode and the text that is left when it is cut from both ends.
-/

namespace DownloadTriage

/-- A character with the Unicode property `White_Space`. -/
def isBlank (c : Char) : Bool :=
  let n := c.toNat
  (0x09 ≤ n && n ≤ 0x0D) || n == 0x20 || n == 0x85 || n == 0xA0 || n == 0x1680 ||
    (0x2000 ≤ n && n ≤ 0x200A) || n == 0x2028 || n == 0x2029 || n == 0x202F || n == 0x205F ||
    n == 0x3000

/-- The list without its blank ends. -/
def trimBlanks (cs : List Char) : List Char :=
  ((cs.dropWhile isBlank).reverse.dropWhile isBlank).reverse

/-- A text without its blank ends. -/
def trim (s : String) : String := String.ofList (trimBlanks s.toList)

/-- The text in lower case as far as ASCII goes. No word compared with it here holds an `i` next to
a combining dot, or a `k`, so letters outside ASCII never decide such a comparison. -/
def asciiLower (s : String) : String := s.map Char.toLower

end DownloadTriage
