import BinaryCsp.ArcQueue
import BinaryCsp.ArcQueue.Heap
import BinaryCsp.Assignment
import BinaryCsp.CommandLine
import BinaryCsp.Constraint
import BinaryCsp.Constraint.AllowedPairs
import BinaryCsp.Context
import BinaryCsp.Decimal
import BinaryCsp.Fault
import BinaryCsp.Json.Token
import BinaryCsp.Json.Value
import BinaryCsp.Kakuro.Bundled
import BinaryCsp.Kakuro.Drawing
import BinaryCsp.Kakuro.Encoding
import BinaryCsp.Kakuro.Grid
import BinaryCsp.Kakuro.Permutations
import BinaryCsp.Kakuro.Reading
import BinaryCsp.Least
import BinaryCsp.Limit
import BinaryCsp.Main
import BinaryCsp.MapColouring
import BinaryCsp.Options
import BinaryCsp.Options.Reading
import BinaryCsp.PartialMap
import BinaryCsp.Problem
import BinaryCsp.Proofs.Acceptance
import BinaryCsp.Proofs.ArcQueue.Sequence
import BinaryCsp.Proofs.Declaration
import BinaryCsp.Proofs.Kakuro.Backtracking
import BinaryCsp.Proofs.Kakuro.Drawing
import BinaryCsp.Proofs.Kakuro.Fillings
import BinaryCsp.Proofs.Kakuro.Grammar
import BinaryCsp.Proofs.Kakuro.Network
import BinaryCsp.Proofs.Kakuro.Permutations
import BinaryCsp.Proofs.Kakuro.Reading
import BinaryCsp.Proofs.Kakuro.Runs
import BinaryCsp.Proofs.Kakuro.Tokens
import BinaryCsp.Proofs.Limit.Budget
import BinaryCsp.Proofs.Limit.Polls
import BinaryCsp.Proofs.Limit.Propagation
import BinaryCsp.Proofs.Limit.Search
import BinaryCsp.Proofs.Loop
import BinaryCsp.Proofs.MapColouring
import BinaryCsp.Proofs.MinConflicts.Answers
import BinaryCsp.Proofs.MinConflicts.Checks
import BinaryCsp.Proofs.MinConflicts.Descent
import BinaryCsp.Proofs.MinConflicts.Steps
import BinaryCsp.Proofs.Propagation.Agreement
import BinaryCsp.Proofs.Propagation.Asked
import BinaryCsp.Proofs.Propagation.Closure
import BinaryCsp.Proofs.Propagation.Ending
import BinaryCsp.Proofs.Propagation.Equality
import BinaryCsp.Proofs.Propagation.Greatest
import BinaryCsp.Proofs.Propagation.Incremental
import BinaryCsp.Proofs.Propagation.OneSided
import BinaryCsp.Proofs.Propagation.Partition
import BinaryCsp.Proofs.Propagation.Pruning
import BinaryCsp.Proofs.Propagation.Removal
import BinaryCsp.Proofs.Propagation.Revision
import BinaryCsp.Proofs.Propagation.Singletons
import BinaryCsp.Proofs.Propagation.Soundness
import BinaryCsp.Proofs.Propagation.Step
import BinaryCsp.Proofs.Propagation.Support
import BinaryCsp.Proofs.Propagation.Turns
import BinaryCsp.Proofs.Search.Balance
import BinaryCsp.Proofs.Search.BothOrders
import BinaryCsp.Proofs.Search.BuiltIn
import BinaryCsp.Proofs.Search.Carried
import BinaryCsp.Proofs.Search.Correctness
import BinaryCsp.Proofs.Search.Counters
import BinaryCsp.Proofs.Search.Ending
import BinaryCsp.Proofs.Search.InPlace
import BinaryCsp.Proofs.Search.Invariant
import BinaryCsp.Proofs.Search.Nodes
import BinaryCsp.Proofs.Search.Recursion
import BinaryCsp.Proofs.Search.Rerun
import BinaryCsp.Proofs.Search.Restoration
import BinaryCsp.Proofs.Search.Safety
import BinaryCsp.Proofs.Search.ValueOrder
import BinaryCsp.Proofs.Solutions
import BinaryCsp.Proofs.Text.Words
import BinaryCsp.Proofs.Trail.Conservation
import BinaryCsp.Proofs.Trail.Session
import BinaryCsp.Proofs.TreeSearch
import BinaryCsp.Proofs.Violations
import BinaryCsp.Propagation
import BinaryCsp.Propagation.Support
import BinaryCsp.Random.Chooser
import BinaryCsp.Random.Generator
import BinaryCsp.Random.KeyStream
import BinaryCsp.Report
import BinaryCsp.Search.Backtracking
import BinaryCsp.Search.Inference
import BinaryCsp.Search.MinConflicts
import BinaryCsp.Search.Ordering
import BinaryCsp.Search.Outcome
import BinaryCsp.State
import BinaryCsp.Stats
import BinaryCsp.Summary
import BinaryCsp.Text.Blank
import BinaryCsp.Text.Columns
import BinaryCsp.Text.Emoji
import BinaryCsp.Text.Ligature
import BinaryCsp.Text.Numeral
import BinaryCsp.Text.Quoted
import BinaryCsp.Text.Ranges
import BinaryCsp.Text.Shown
import BinaryCsp.Text.Width
