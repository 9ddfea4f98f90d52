import BinaryCsp.Kakuro.Bundled
import BinaryCsp.Kakuro.Drawing
import BinaryCsp.Kakuro.Reading
import BinaryCsp.Options.Reading
import BinaryCsp.Report

/-!
# Solving a grid from the command line

The command solves one Kakuro grid with several combinations of options and compares them.

`Invocation.parse?` reads the arguments.  `plan` turns an invocation into the text that goes first
and the list of runs, or says why it can not; it is given the files to read as a function.  `run`
makes one run, and `Presentation` puts the runs together: the first solution found, then the
reports as a table or as JSON.

Runs see a clock that stands still, so of all limits on time only that of zero stops them.
-/

namespace BinaryCsp.CommandLine

open Kakuro

/-! ## The arguments -/

/-- What the arguments ask for. -/
structure Invocation where
  puzzle : Option String
  file : Option String
  config : Option String
  all : Bool
  minConflicts : Bool
  maxSteps : Option Nat
  json : Bool
  deriving DecidableEq

def Invocation.bare : Invocation := ⟨none, none, none, false, false, none, false⟩

/-- The grid that is solved if none is named. -/
def defaultPuzzle : String := "intermediate-6x6"

/-- A switch, given at most once. -/
inductive Switch where
  | all
  | minConflicts
  | json

/-- A setting, given at most once with a value. -/
inductive Setting where
  | file
  | config
  | maxSteps

/-- What a name on the command line stands for. -/
inductive Key where
  | switch (s : Switch)
  | setting (s : Setting)

def Key.ofLong? : String → Option Key
  | "file" => some (.setting .file)
  | "config" => some (.setting .config)
  | "max-steps" => some (.setting .maxSteps)
  | "all" => some (.switch .all)
  | "min-conflicts" => some (.switch .minConflicts)
  | "json" => some (.switch .json)
  | _ => none

def Key.ofShort? : Char → Option Key
  | 'f' => some (.setting .file)
  | 'c' => some (.setting .config)
  | 'a' => some (.switch .all)
  | _ => none

namespace Invocation

/-- Turns a switch on, unless it is on. -/
def turnOn (i : Invocation) : Switch → Option Invocation
  | .all => if i.all then none else some { i with all := true }
  | .minConflicts => if i.minConflicts then none else some { i with minConflicts := true }
  | .json => if i.json then none else some { i with json := true }

/-- Gives a setting a value, unless it has one.  A file must have a name, and steps a number of at
most 64 bits. -/
def set (i : Invocation) (s : Setting) (value : String) : Option Invocation :=
  match s with
  | .file =>
    if i.file.isSome ∨ value.isEmpty then none else some { i with file := some value }
  | .config =>
    if i.config.isSome ∨ value.isEmpty then none else some { i with config := some value }
  | .maxSteps =>
    match Text.numeral? value.toList with
    | some n =>
      if i.maxSteps.isSome ∨ UInt64.size ≤ n then none else some { i with maxSteps := some n }
    | none => none

/-- Names the grid, unless one is named. -/
def name (i : Invocation) (puzzle : String) : Option Invocation :=
  if i.puzzle.isSome then none else some { i with puzzle := some puzzle }

/-- Reads the letters after a single dash.  The value of a setting follows its letter, perhaps
after an equals sign; a setting at the end waits for the next argument. -/
def parseLetters (i : Invocation) : List Char → Option (Invocation × Option Setting)
  | [] => some (i, none)
  | c :: rest =>
    match Key.ofShort? c with
    | none => none
    | some (.switch s) => (i.turnOn s).bind fun i => i.parseLetters rest
    | some (.setting s) =>
      if rest = [] then some (i, some s)
      else
        let value := if rest.head? = some '=' then rest.drop 1 else rest
        (i.set s (String.ofList value)).map fun i => (i, none)

/-- Reads what follows two dashes: a name, or a name and a value around an equals sign. -/
def parseLong (i : Invocation) (cs : List Char) : Option (Invocation × Option Setting) :=
  match Key.ofLong? (String.ofList (cs.takeWhile (· != '='))) with
  | none => none
  | some (.switch s) => if '=' ∈ cs then none else (i.turnOn s).map fun i => (i, none)
  | some (.setting s) =>
    if '=' ∈ cs then
      (i.set s (String.ofList ((cs.dropWhile (· != '=')).drop 1))).map fun i => (i, none)
    else some (i, some s)

/-- Reads the arguments after a pair of dashes: all of them name grids. -/
def parseNames (i : Invocation) : List String → Option Invocation
  | [] => some i
  | arg :: args => (i.name arg).bind fun i => i.parseNames args

/-- Reads arguments.  A setting that waits for its value takes the next argument, which may not
start with a dash unless it is one. -/
def parseFrom (i : Invocation) (waiting : Option Setting) : List String → Option Invocation
  | [] => if waiting.isSome then none else some i
  | arg :: args =>
    match arg.toList, waiting with
    | ['-', '-'], none => i.parseNames args
    | '-' :: '-' :: cs, none => (i.parseLong cs).bind fun r => r.1.parseFrom r.2 args
    | '-' :: c :: cs, none => (i.parseLetters (c :: cs)).bind fun r => r.1.parseFrom r.2 args
    | '-' :: _ :: _, some _ => none
    | _, some s => (i.set s arg).bind fun i => i.parseFrom none args
    | _, none => (i.name arg).bind fun i => i.parseFrom none args

/-- Reads the arguments of the command. -/
def parse? (args : List String) : Option Invocation := bare.parseFrom none args

end Invocation

/-! ## The plan -/

/-- What keeps a file from being read. -/
inductive Obstacle where
  | missing
  | isDirectory
  | notDirectory
  | nameTooLong
  | denied
  | notText
  deriving DecidableEq

def Obstacle.message : Obstacle → String
  | missing => "No such file or directory (os error 2)"
  | isDirectory => "Is a directory (os error 21)"
  | notDirectory => "Not a directory (os error 20)"
  | nameTooLong => "File name too long (os error 36)"
  | denied => "Permission denied (os error 13)"
  | notText => "stream did not contain valid UTF-8"

/-- Why a plan could not be made or carried out. -/
inductive Failure where
  | unreadable (path : String) (obstacle : Obstacle)
  | unknownPuzzle (name : String)
  | badOptions
  | badGrid (fault : ReadFault)
  | fault (cause : Fault Variable Value)

def Failure.message : Failure → String
  | unreadable path obstacle => path ++ ": " ++ obstacle.message
  | unknownPuzzle name => "no bundled puzzle " ++ Text.quoted name
  | badOptions => "invalid solver configuration"
  | badGrid f => f.message
  | fault f => f.message Variable.text Value.text

/-- One run: its options, and whether it is a local search. -/
structure Job where
  options : Options
  isLocal : Bool

/-- A grid, its problem, and the runs to make. -/
structure Plan where
  grid : Grid
  problem : Problem Variable Value
  jobs : List Job
  json : Bool

/-- The combinations that are compared unless all are asked for. -/
def usual (o : Options) : List Options :=
  [ValueChoice.unordered, .leastConstraining].flatMap fun order =>
    [InferenceChoice.forwardChecking, .arcConsistency].map fun inference =>
      { o with
        variableOrdering := .minimumRemaining
        valueOrdering := order
        inference := inference }

abbrev Files := String → Except Obstacle String

def gridText (files : Files) (i : Invocation) : Except Failure String :=
  match i.file with
  | some path => (files path).mapError (.unreadable path)
  | none =>
    let name := i.puzzle.getD defaultPuzzle
    match bundled.find? fun b => b.1 == name with
    | some b => .ok b.2
    | none => .error (.unknownPuzzle name)

def options (files : Files) (i : Invocation) : Except Failure Options :=
  let withSteps (o : Options) : Options := { o with maxSteps := i.maxSteps.or o.maxSteps }
  match i.config with
  | none => .ok (withSteps .standard)
  | some path =>
    match files path with
    | .error obstacle => .error (.unreadable path obstacle)
    | .ok text =>
      match Options.read? text with
      | none => .error .badOptions
      | some o => .ok (withSteps o)

/-- What an invocation asks for, given the files. -/
def plan (files : Files) (i : Invocation) : Except Failure Plan := do
  let text ← gridText files i
  let base ← options files i
  let grid ← (Grid.read text).mapError .badGrid
  let problem ← grid.toProblem.mapError .fault
  let searches := (if i.all then base.combinations else usual base).map fun o => ⟨o, false⟩
  let climbs : List Job := if i.minConflicts then [⟨base, true⟩] else []
  return ⟨grid, problem, searches ++ climbs, i.json⟩

def Plan.preamble (p : Plan) : String :=
  let d := p.problem.constraint.descriptor
  d.name ++ ": " ++ d.description ++ "\n" ++ p.grid.draw ++ "\n"

/-! ## The runs -/

def Job.strategy (j : Job) (P : Problem Variable Value) : Strategy Variable Value Unit :=
  if j.isLocal then j.options.minConflicts.toStrategy P
  else (j.options.backtracking P).toStrategy

def Job.label (j : Job) (P : Problem Variable Value) : String :=
  if j.isLocal then (j.strategy P).describe else j.options.label

/-- Makes one run on a fresh state. -/
def Plan.run (p : Plan) (j : Job) :
    Except (Fault Variable Value) (Outcome Variable Value × Stats) :=
  match (j.strategy p.problem).solve ⟨State.initial, j.options.context .still ()⟩ with
  | (.error f, _) => .error f
  | (.ok outcome, w) => .ok (outcome, w.context.stats)

/-! ## The presentation -/

/-- What has been shown and reported so far. -/
structure Presentation where
  text : String
  shown : Bool
  reports : List Report

def Plan.present (p : Plan) : Presentation := ⟨p.preamble, false, []⟩

/-- Adds one run.  The first solution of a backtracking search is shown. -/
def Presentation.add (s : Presentation) (p : Plan) (j : Job) (outcome : Outcome Variable Value)
    (stats : Stats) : Presentation :=
  let report : Report := ⟨j.label p.problem, outcome.label, stats⟩
  let s := { s with reports := s.reports ++ [report] }
  match outcome.solution? with
  | some a =>
    if s.shown || j.isLocal then s
    else { s with text := s.text ++ p.grid.drawSolved a ++ "\n", shown := true }
  | none => s

/-- Makes and adds runs in order, up to the first that fails. -/
def Plan.presentAll (p : Plan) :
    List Job → Presentation → Presentation × Option (Fault Variable Value)
  | [], s => (s, none)
  | j :: js, s =>
    match p.run j with
    | .error f => (s, some f)
    | .ok (outcome, stats) => p.presentAll js (s.add p j outcome stats)

def Plan.summary (p : Plan) (reports : List Report) : String :=
  if p.json then Report.listing reports else Report.table reports

end BinaryCsp.CommandLine
