import BinaryCsp.Search.Backtracking
import BinaryCsp.Search.MinConflicts

/-!
# Options of a run

An `Options` value names one combination of orderings and inference, with its seed and limits.
From it come the backtracking search, the min-conflicts search, and the context they run in.
-/

namespace BinaryCsp

/-- A choice between finitely many names. -/
class Named (α : Type) where
  all : List α
  name : α → String

def Named.ofName? {α : Type} [Named α] (s : String) : Option α :=
  (Named.all : List α).find? fun x => Named.name x == s

/-- Which variable is branched on. -/
inductive VariableChoice where
  | firstUnassigned
  | minimumRemaining
  deriving DecidableEq

/-- In which order values are tried. -/
inductive ValueChoice where
  | unordered
  | leastConstraining
  deriving DecidableEq

/-- What is inferred from a value. -/
inductive InferenceChoice where
  | none
  | forwardChecking
  | arcConsistency
  deriving DecidableEq

/-- In which order arcs are revised. -/
inductive ArcChoice where
  | insertion
  | largestTarget
  deriving DecidableEq

instance : Named VariableChoice where
  all := [.firstUnassigned, .minimumRemaining]
  name
    | .firstUnassigned => "first-unassigned"
    | .minimumRemaining => "mrv"

instance : Named ValueChoice where
  all := [.unordered, .leastConstraining]
  name
    | .unordered => "unordered"
    | .leastConstraining => "lcv"

instance : Named InferenceChoice where
  all := [.none, .forwardChecking, .arcConsistency]
  name
    | .none => "none"
    | .forwardChecking => "forward-checking"
    | .arcConsistency => "mac"

instance : Named Method where
  all := [.ac3, .ac3b]
  name
    | .ac3 => "ac3"
    | .ac3b => "ac3b"

instance : Named ArcChoice where
  all := [.insertion, .largestTarget]
  name
    | .insertion => "insertion-order"
    | .largestTarget => "largest-target-domain"

structure Options where
  variableOrdering : VariableChoice
  valueOrdering : ValueChoice
  inference : InferenceChoice
  /-- How arcs are revised, where arc consistency is inferred. -/
  method : Method
  arcs : ArcChoice
  seed : UInt64
  timeLimitMs : Option Nat
  /-- How often the limit may be polled. -/
  maxDecisions : Option Nat
  maxSteps : Option Nat
  deriving DecidableEq

namespace Options

/-- The options if nothing is said. -/
def standard : Options where
  variableOrdering := .firstUnassigned
  valueOrdering := .unordered
  inference := .none
  method := .ac3b
  arcs := .largestTarget
  seed := 0
  timeLimitMs := none
  maxDecisions := none
  maxSteps := none

instance : Inhabited Options := ⟨standard⟩

/-- The options in a few words; the method only where it matters. -/
def label (o : Options) : String :=
  Named.name o.variableOrdering ++ " + " ++ Named.name o.valueOrdering ++ " + " ++
    Named.name o.inference ++
    (if o.inference = .arcConsistency then " (" ++ Named.name o.method ++ ")" else "")

/-- All combinations of orderings and inference, other options kept. -/
def combinations (o : Options) : List Options :=
  (Named.all : List VariableChoice).flatMap fun which =>
    (Named.all : List ValueChoice).flatMap fun order =>
      (Named.all : List InferenceChoice).map fun inference =>
        { o with variableOrdering := which, valueOrdering := order, inference := inference }

/-! ## What the options stand for -/

/-- The limit of a run.  A limit on time reads the given clock, in milliseconds. -/
def limit (o : Options) (clock : Clock) : Limit :=
  match o.timeLimitMs, o.maxDecisions with
  | some ms, some n => .either (.time clock ms 0) (.decisions n 0)
  | some ms, none => .time clock ms 0
  | none, some n => .decisions n 0
  | none, none => .never

def context {σ : Type} (o : Options) (clock : Clock) (memory : σ) : Context σ :=
  { Context.seeded o.seed memory with limit := o.limit clock }

def minConflicts (o : Options) : MinConflicts := ⟨o.maxSteps.getD MinConflicts.defaultSteps⟩

variable {V T : Type} [DecidableEq V]

def propagator (o : Options) : Propagator V T where
  method := o.method
  order :=
    match o.arcs with
    | .insertion => .insertion
    | .largestTarget => .largestTarget

def backtracking {σ : Type} [DecidableEq T] (o : Options) (P : Problem V T) : Backtracking P σ where
  variableOrdering :=
    match o.variableOrdering with
    | .firstUnassigned => .firstUnassigned P
    | .minimumRemaining => .minimumRemaining P
  valueOrdering :=
    match o.valueOrdering with
    | .unordered => .unordered P
    | .leastConstraining => .leastConstraining P
  inference :=
    match o.inference with
    | .none => .none P
    | .forwardChecking => .forwardChecking P
    | .arcConsistency => .arcConsistency P o.propagator

end Options

end BinaryCsp
