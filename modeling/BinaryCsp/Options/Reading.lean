import BinaryCsp.Json.Value
import BinaryCsp.Options

/-!
# Reading options

Options are written as a JSON object whose members may come in any order and be left out, or as an
array of them in their order, which may stop early.  Members of other names are passed over, but no
known name may occur twice.

A choice is written as its name, or as an object with that name as its only key and `null` as its
value.  A number is a plain row of digits below 2⁶⁴; a number that may be left out may also be
`null`.
-/

namespace BinaryCsp.Options

open Json

/-! ## The values of members -/

def readCount : Value → Option Nat
  | .number text =>
    let n := Text.digitsValue text
    if text.all Text.isDigit ∧ n < UInt64.size then some n else none
  | _ => none

/-- Reads a number that may be null. -/
def readCount? : Value → Option (Option Nat)
  | .null => some none
  | v => (readCount v).map some

def readChoice {α : Type} [Named α] : Value → Option α
  | .string glyphs => (decode glyphs).bind fun cs => Named.ofName? (String.ofList cs)
  | .object [(glyphs, .null)] => (decode glyphs).bind fun cs => Named.ofName? (String.ofList cs)
  | _ => none

/-! ## The members -/

/-- A member: its name, and how its value changes the options. -/
structure Member where
  name : String
  read : Value → Options → Option Options

def members : List Member := [
  ⟨"variable_ordering", fun v o => (readChoice v).map fun x => { o with variableOrdering := x }⟩,
  ⟨"value_ordering", fun v o => (readChoice v).map fun x => { o with valueOrdering := x }⟩,
  ⟨"inference", fun v o => (readChoice v).map fun x => { o with inference := x }⟩,
  ⟨"propagator", fun v o => (readChoice v).map fun x => { o with method := x }⟩,
  ⟨"arc_heuristic", fun v o => (readChoice v).map fun x => { o with arcs := x }⟩,
  ⟨"seed", fun v o => (readCount v).map fun n => { o with seed := UInt64.ofNat n }⟩,
  ⟨"time_limit_ms", fun v o => (readCount? v).map fun n => { o with timeLimitMs := n }⟩,
  ⟨"max_decisions", fun v o => (readCount? v).map fun n => { o with maxDecisions := n }⟩,
  ⟨"max_steps", fun v o => (readCount? v).map fun n => { o with maxSteps := n }⟩]

/-! ## The whole -/

/-- Reads the members of an array in their order. -/
def readArray : List Value → List Member → Options → Option Options
  | [], _, o => some o
  | _ :: _, [], _ => none
  | v :: vs, m :: ms, o => (m.read v o).bind (readArray vs ms)

/-- Reads the members of an object.  `unread` are the members not met so far; any other known name
has been met before. -/
def readObject : List (List Glyph × Value) → (unread : List Member) → Options → Option Options
  | [], _, o => some o
  | (key, v) :: rest, unread, o =>
    match decode key with
    | none => none
    | some cs =>
      let name := String.ofList cs
      match unread.find? fun m => m.name == name with
      | some m => (m.read v o).bind (readObject rest (unread.filter fun m => m.name != name))
      | none =>
        if members.any fun m => m.name == name then none else readObject rest unread o

def read? (text : String) : Option Options :=
  match parse? text with
  | some (.array vs) => readArray vs members standard
  | some (.object ms) => readObject ms members standard
  | _ => none

end BinaryCsp.Options
