import BinaryCsp.Text.Numeral

/-!
# The tokens of JSON text

`tokens` cuts a text into tokens, or refuses it if some part of it is none: a raw control character
in a string, an unknown escape, a number with a bare point, a word other than `null`, `true` and
`false`.  A string keeps its `\u` escapes as sixteen-bit units, for what they mean is decided only
where the string is read (`decode`): a unit of a surrogate pair has no meaning without the other.
-/

namespace BinaryCsp.Json

/-- One item of a string: a character, or a sixteen-bit unit written by its number. -/
inductive Glyph where
  | char (c : Char)
  | unit (n : Nat)
  deriving DecidableEq

inductive Token where
  | openBrace
  | closeBrace
  | openBracket
  | closeBracket
  | comma
  | colon
  | null
  | bool (b : Bool)
  | number (text : List Char)
  | string (glyphs : List Glyph)
  deriving DecidableEq

/-! ## Strings -/

/-- The value of a hexadecimal digit. -/
def hexValue? (c : Char) : Option Nat :=
  if '0' ≤ c ∧ c ≤ '9' then some (c.toNat - 48)
  else if 'a' ≤ c ∧ c ≤ 'f' then some (c.toNat - 87)
  else if 'A' ≤ c ∧ c ≤ 'F' then some (c.toNat - 55)
  else none

/-- The unit that four hexadecimal digits write. -/
def unit? (a b c d : Char) : Option Glyph :=
  match hexValue? a, hexValue? b, hexValue? c, hexValue? d with
  | some a, some b, some c, some d => some (.unit (((a * 16 + b) * 16 + c) * 16 + d))
  | _, _, _, _ => none

/-- The character that a one-letter escape stands for. -/
def escape? : Char → Option Char
  | '"' => some '"'
  | '\\' => some '\\'
  | '/' => some '/'
  | 'b' => some '\x08'
  | 'f' => some '\x0c'
  | 'n' => some '\n'
  | 'r' => some '\r'
  | 't' => some '\t'
  | _ => none

/-- Reads a string after its opening quote: its items, and what follows the closing quote. -/
def scanString : List Char → Option (List Glyph × List Char)
  | [] => none
  | '"' :: rest => some ([], rest)
  | '\\' :: 'u' :: a :: b :: c :: d :: rest =>
    match unit? a b c d, scanString rest with
    | some g, some (gs, rest) => some (g :: gs, rest)
    | _, _ => none
  | '\\' :: e :: rest =>
    match escape? e, scanString rest with
    | some c, some (gs, rest) => some (.char c :: gs, rest)
    | _, _ => none
  | c :: rest =>
    if c.toNat < 32 then none
    else
      match scanString rest with
      | some (gs, rest) => some (.char c :: gs, rest)
      | none => none

/-- The text that the items of a string stand for.  A pair of surrogate units stands for one
character; a surrogate alone stands for none. -/
def decode : List Glyph → Option (List Char)
  | [] => some []
  | .char c :: gs => (decode gs).map (c :: ·)
  | .unit n :: gs =>
    if 0xD800 ≤ n ∧ n < 0xDC00 then
      match gs with
      | .unit m :: gs =>
        if 0xDC00 ≤ m ∧ m < 0xE000 then
          (decode gs).map (Char.ofNat (0x10000 + (n - 0xD800) * 0x400 + (m - 0xDC00)) :: ·)
        else none
      | _ => none
    else if 0xDC00 ≤ n ∧ n < 0xE000 then none
    else (decode gs).map (Char.ofNat n :: ·)

/-! ## Numbers -/

/-- Cuts off one digit or more. -/
def digits? (cs : List Char) : Option (List Char × List Char) :=
  let digits := cs.takeWhile Text.isDigit
  if digits = [] then none else some (digits, cs.dropWhile Text.isDigit)

/-- Cuts off a whole number without leading zeros. -/
def whole? : List Char → Option (List Char × List Char)
  | '0' :: rest => some (['0'], rest)
  | cs => digits? cs

/-- Cuts off a fraction, if there is one. -/
def fraction? : List Char → Option (List Char × List Char)
  | '.' :: rest => (digits? rest).map fun r => ('.' :: r.1, r.2)
  | cs => some ([], cs)

/-- Cuts off an exponent, if there is one. -/
def exponent? : List Char → Option (List Char × List Char)
  | [] => some ([], [])
  | c :: rest =>
    if c = 'e' ∨ c = 'E' then
      match rest with
      | '+' :: rest => (digits? rest).map fun r => (c :: '+' :: r.1, r.2)
      | '-' :: rest => (digits? rest).map fun r => (c :: '-' :: r.1, r.2)
      | rest => (digits? rest).map fun r => (c :: r.1, r.2)
    else some ([], c :: rest)

/-- Cuts off a number. -/
def number? (cs : List Char) : Option (List Char × List Char) := do
  let (sign, cs) := if cs.head? = some '-' then (['-'], cs.drop 1) else ([], cs)
  let (whole, cs) ← whole? cs
  let (fraction, cs) ← fraction? cs
  let (exponent, cs) ← exponent? cs
  return (sign ++ whole ++ fraction ++ exponent, cs)

/-! ## Tokens -/

/-- Whether a character separates tokens. -/
def isSpace (c : Char) : Bool := c = ' ' || c = '\t' || c = '\n' || c = '\r'

/-- The token that a text starts with, and what follows it. -/
def token? : List Char → Option (Token × List Char)
  | '\x7b' :: rest => some (.openBrace, rest)
  | '\x7d' :: rest => some (.closeBrace, rest)
  | '[' :: rest => some (.openBracket, rest)
  | ']' :: rest => some (.closeBracket, rest)
  | ',' :: rest => some (.comma, rest)
  | ':' :: rest => some (.colon, rest)
  | 'n' :: 'u' :: 'l' :: 'l' :: rest => some (.null, rest)
  | 't' :: 'r' :: 'u' :: 'e' :: rest => some (.bool true, rest)
  | 'f' :: 'a' :: 'l' :: 's' :: 'e' :: rest => some (.bool false, rest)
  | '"' :: rest => (scanString rest).map fun r => (.string r.1, r.2)
  | cs => (number? cs).map fun r => (.number r.1, r.2)

/-- The tokens of a text, at most `fuel` characters and tokens long. -/
def tokensWithin : (fuel : Nat) → List Char → Option (List Token)
  | _, [] => some []
  | 0, _ => none
  | fuel + 1, c :: cs =>
    if isSpace c then tokensWithin fuel cs
    else
      match token? (c :: cs) with
      | none => none
      | some (t, rest) => (tokensWithin fuel rest).map (t :: ·)

def tokens (cs : List Char) : Option (List Token) := tokensWithin cs.length cs

end BinaryCsp.Json
