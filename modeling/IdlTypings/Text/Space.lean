/-!
# White space, trimming and first lines

* `isSpace` decides the Unicode property White_Space;
* `trimStart`, `trimEnd` and `trim` take white space off the ends of a text;
* `firstLine` is what stands before the first line feed.

Texts are lists of characters throughout the library, so that one induction principle serves
readers, printers and edits alike.
-/

namespace IdlTypings.Text

/-- The 25 characters with the Unicode property White_Space. -/
def isSpace (c : Char) : Bool :=
  let n := c.toNat
  (9 ≤ n && n ≤ 13) || n == 0x20 || n == 0x85 || n == 0xA0 || n == 0x1680
    || (0x2000 ≤ n && n ≤ 0x200A) || n == 0x2028 || n == 0x2029 || n == 0x202F
    || n == 0x205F || n == 0x3000

def trimStart (s : List Char) : List Char :=
  s.dropWhile isSpace

def trimEnd (s : List Char) : List Char :=
  (s.reverse.dropWhile isSpace).reverse

/-- A text without the white space at its two ends. -/
def trim (s : List Char) : List Char :=
  trimEnd (trimStart s)

def firstLine (s : List Char) : List Char :=
  s.takeWhile (· != '\n')

end IdlTypings.Text
