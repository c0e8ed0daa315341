/-!
# White space

The characters of the property `White_Space`, and cutting text into words at them.
-/

namespace ScopeLexer.Unicode

def isWhiteSpace (c : Char) : Bool :=
  let n := c.toNat
  (9 ≤ n && n ≤ 13) || n == 0x20 || n == 0x85 || n == 0xA0 || n == 0x1680
    || (0x2000 ≤ n && n ≤ 0x200A) || n == 0x2028 || n == 0x2029 || n == 0x202F
    || n == 0x205F || n == 0x3000

def words (text : List Char) : List (List Char) :=
  (text.splitOnP isWhiteSpace).filter (fun piece => !piece.isEmpty)

end ScopeLexer.Unicode
