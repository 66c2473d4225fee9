/-!
# Blank characters

The characters with the Unicode property `White_Space`, and trimming by them.
-/

namespace Rollout.Text

/-- The character has the property `White_Space`. -/
def isBlank (c : Char) : Bool :=
  let n := c.toNat
  (9 ≤ n && n ≤ 13) || n == 0x20 || n == 0x85 || n == 0xA0 || n == 0x1680 ||
  (0x2000 ≤ n && n ≤ 0x200A) || n == 0x2028 || n == 0x2029 || n == 0x202F || n == 0x205F ||
  n == 0x3000

/-- The list without its leading elements that satisfy `p`. -/
def trimLeft (p : Char → Bool) (s : String) : String := String.ofList (s.toList.dropWhile p)

/-- The text without its trailing characters that satisfy `p`. -/
def trimRight (p : Char → Bool) (s : String) : String :=
  String.ofList (s.toList.reverse.dropWhile p).reverse

def trim (s : String) : String := trimRight isBlank (trimLeft isBlank s)

def allBlank (s : String) : Bool := s.toList.all isBlank

end Rollout.Text
