/-!
# Blanks, lines and words

A blank is a character with the White_Space property.  `pieces` cuts text at separators; lines are
the pieces between line feeds, and words the nonempty pieces between blanks.
-/

namespace BinaryCsp.Text

def isBlank (c : Char) : Bool :=
  let n := c.toNat
  (9 ≤ n && n ≤ 13) || n == 0x20 || n == 0x85 || n == 0xA0 || n == 0x1680 ||
    (0x2000 ≤ n && n ≤ 0x200A) || n == 0x2028 || n == 0x2029 || n == 0x202F || n == 0x205F ||
    n == 0x3000

/-- The pieces of a text between separators: one more than there are separators. -/
def pieces (separates : Char → Bool) : List Char → List (List Char)
  | [] => [[]]
  | c :: cs =>
    if separates c then [] :: pieces separates cs
    else
      match pieces separates cs with
      | [] => [[c]]
      | w :: ws => (c :: w) :: ws

/-- The lines of a text, empty ones included. -/
def lines (cs : List Char) : List (List Char) := pieces (· == '\n') cs

def words (cs : List Char) : List (List Char) := (pieces isBlank cs).filter fun w => !w.isEmpty

end BinaryCsp.Text
