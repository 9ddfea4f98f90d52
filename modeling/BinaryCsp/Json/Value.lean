import BinaryCsp.Json.Token

/-!
# JSON values

A `Value` is a JSON text with its structure laid open.  Numbers keep their text and strings their
items, and an object keeps all its members in order: what they mean, and whether a key may occur
twice, is for the reader of the value to say.
-/

namespace BinaryCsp.Json

inductive Value where
  | null
  | bool (b : Bool)
  | number (text : List Char)
  | string (glyphs : List Glyph)
  | array (items : List Value)
  | object (members : List (List Glyph × Value))

mutual

/-- Reads one value, and what follows it. -/
def readValue : (fuel : Nat) → List Token → Option (Value × List Token)
  | 0, _ => none
  | _ + 1, .null :: rest => some (.null, rest)
  | _ + 1, .bool b :: rest => some (.bool b, rest)
  | _ + 1, .number text :: rest => some (.number text, rest)
  | _ + 1, .string glyphs :: rest => some (.string glyphs, rest)
  | _ + 1, .openBracket :: .closeBracket :: rest => some (.array [], rest)
  | fuel + 1, .openBracket :: rest =>
    (readItems fuel rest).map fun r => (.array r.1, r.2)
  | _ + 1, .openBrace :: .closeBrace :: rest => some (.object [], rest)
  | fuel + 1, .openBrace :: rest =>
    (readMembers fuel rest).map fun r => (.object r.1, r.2)
  | _ + 1, _ => none

/-- Reads the items of an array, one at least, up to the closing bracket. -/
def readItems : (fuel : Nat) → List Token → Option (List Value × List Token)
  | 0, _ => none
  | fuel + 1, ts =>
    match readValue fuel ts with
    | some (v, .closeBracket :: rest) => some ([v], rest)
    | some (v, .comma :: rest) => (readItems fuel rest).map fun r => (v :: r.1, r.2)
    | _ => none

/-- Reads the members of an object, one at least, up to the closing brace. -/
def readMembers : (fuel : Nat) → List Token → Option (List (List Glyph × Value) × List Token)
  | 0, _ => none
  | fuel + 1, .string key :: .colon :: ts =>
    match readValue fuel ts with
    | some (v, .closeBrace :: rest) => some ([(key, v)], rest)
    | some (v, .comma :: rest) => (readMembers fuel rest).map fun r => ((key, v) :: r.1, r.2)
    | _ => none
  | _ + 1, _ => none

end

/-- Reads a text that holds one value and nothing else. -/
def parse? (text : String) : Option Value :=
  match tokens text.toList with
  | none => none
  | some ts =>
    match readValue (2 * ts.length + 1) ts with
    | some (v, []) => some v
    | _ => none

end BinaryCsp.Json
