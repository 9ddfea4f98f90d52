import BinaryCsp.Text.Ligature

/-!
# The width of text on a terminal

A text takes the columns of its characters (`charWidth`), except where they show as one emoji or
merge into a ligature.  It is measured from its end: an `Opening` is what the part measured so far
begins with, as far as it bears on the character in front of it, and `Opening.before` adds that
character.

The sequences with which a terminal sets colors, from `[` after an escape to the next `m`, take no
columns: `hidden` counts the characters in them, and `width` takes their number off.
-/

namespace BinaryCsp.Text

/-! ## Columns -/

inductive Selector where
  | picture
  | sign
  deriving DecidableEq

/-- What a text begins with after its selector, as far as it bears on the character before. -/
inductive Tail where
  | plain
  | emoji (t : EmojiTail)
  | ligature (t : LigatureTail)
  deriving DecidableEq

namespace Tail

def of (c : Char) : Tail :=
  match EmojiTail.of? c, LigatureTail.of? c with
  | some t, _ => emoji t
  | none, some t => ligature t
  | none, none => plain

/-- What is left of a tail behind a selector for the picture. -/
def underPicture : Tail → Tail
  | emoji t => if t.keepsSelector then emoji t else plain
  | ligature t => if t.keepsSelector then ligature t else plain
  | plain => plain

/-- What is left of a tail behind a selector for the sign. -/
def underSign : Tail → Tail
  | ligature t => if t.keepsSelector then ligature t else plain
  | _ => plain

/-- The columns that a character adds in front of a tail, and the longer tail. -/
def before (c : Char) (t : Tail) : Int × Tail :=
  let joined : Option (Int × Tail) :=
    match t with
    | plain => none
    | emoji t => (t.before? c).map fun r => (r.1, emoji r.2)
    | ligature t => (t.before? c).map fun r => (r.1, (r.2.map ligature).getD plain)
  joined.getD (charWidth c, of c)

end Tail

/-- What a text begins with, as far as it bears on the character before. -/
structure Opening where
  selector : Option Selector
  tail : Tail
  deriving DecidableEq

namespace Opening

def plain : Opening := ⟨none, .plain⟩

/-- Puts a character in front of a tail. -/
def ofTail (c : Char) (t : Tail) : Int × Opening :=
  if c = pictureSelector then (0, ⟨some .picture, t.underPicture⟩)
  else if c = signSelector then (0, ⟨some .sign, t.underSign⟩)
  else
    let r := t.before c
    (r.1, ⟨none, r.2⟩)

/-- The columns that a character adds in front of a text, and what the longer text begins with.
A picture takes two columns, or none if it is tied to an emoji that has been counted. -/
def before (c : Char) (o : Opening) : Int × Opening :=
  match o.selector, o.tail with
  | none, t => ofTail c t
  | some .sign, t => if isPlainable c then (1, plain) else ofTail c t
  | some .picture, .emoji _ =>
    if isSelectable c then (0, ⟨none, .emoji .whole⟩) else ofTail c .plain
  | some .picture, t =>
    if isSelectable c then (2, ⟨none, .emoji .whole⟩) else ofTail c t

end Opening

/-- The columns of a text, and what it begins with. -/
def measure (cs : List Char) : Int × Opening :=
  cs.foldr (fun c m => let r := m.2.before c; (m.1 + r.1, r.2)) (0, .plain)

/-! ## Color sequences -/

/-- How far a reader is into a color sequence. -/
inductive Coloring where
  | outside
  | escaped
  | inside

/-- The characters of a text that stand in color sequences, those that have no width apart. -/
def hiddenFrom : Coloring → List Char → Nat
  | _, [] => 0
  | .outside, c :: cs => hiddenFrom (if c = '\x1b' then .escaped else .outside) cs
  | .escaped, c :: cs => if c = '[' then hiddenFrom .inside cs + 1 else hiddenFrom .outside cs
  | .inside, c :: cs =>
    let rest := hiddenFrom (if c = 'm' then .outside else .inside) cs
    if isControl c || isFlat c then rest else rest + 1

def width (s : String) : Nat := (measure s.toList).1.toNat - hiddenFrom .outside s.toList

end BinaryCsp.Text
