/-!
# Blank characters

The characters with the property White_Space, and the trimming of texts at both ends by them.
-/

namespace LidarSync.Text

/-- Whether a character is white space: the ASCII blanks, the next-line and no-break characters, and
the spaces and separators of the general punctuation block. -/
def isBlank (c : Char) : Bool :=
  let n := c.toNat
  (9 ≤ n && n ≤ 13) || n == 0x20 || n == 0x85 || n == 0xA0 || n == 0x1680
    || (0x2000 ≤ n && n ≤ 0x200A) || n == 0x2028 || n == 0x2029 || n == 0x202F || n == 0x205F
    || n == 0x3000

def allBlank (s : String) : Bool := s.toList.all isBlank

end LidarSync.Text
