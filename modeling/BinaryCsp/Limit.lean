/-!
# When to give up

A `Limit` is polled at every decision of a search, at every arc that propagation takes up, and at
every step of a local search.  Once it answers yes the search ends without an answer.

Whatever a limit depends on is written down in it.  A limit on decisions counts its own polls.  A
limit on time reads a clock that is given as a sequence, one reading for each poll; since any
sequence of readings is allowed, it answers its polls in any order one likes, and a law about all
limits is a law about all stopping rules.
-/

namespace BinaryCsp

/-- The time that has passed, as read at each poll. -/
abbrev Clock := Nat → Nat

/-- The clock that stands still: no time has passed at any poll. -/
def Clock.still : Clock := fun _ => 0

/-- A rule for giving up. -/
inductive Limit where
  | never
  /-- Once polled more than `allowed` times; `polled` counts the polls so far. -/
  | decisions (allowed polled : Nat)
  /-- Once the clock has reached the budget; `polled` counts the polls so far. -/
  | time (clock : Clock) (budget polled : Nat)
  /-- Once somebody has cancelled. -/
  | token (cancelled : Bool)
  /-- Once either of two limits says so. -/
  | either (first second : Limit)

namespace Limit

/-- Asks whether to give up.  Both parts of a combined limit are asked, so that limits which count
their polls stay in step. -/
def poll : Limit → Bool × Limit
  | never => (false, never)
  | decisions allowed polled => (decide (allowed < polled + 1), decisions allowed (polled + 1))
  | time clock budget polled => (decide (budget ≤ clock polled), time clock budget (polled + 1))
  | token cancelled => (cancelled, token cancelled)
  | either first second =>
    (first.poll.1 || second.poll.1, either first.poll.2 second.poll.2)

def cancel : Limit → Limit
  | token _ => token true
  | either first second => either first.cancel second.cancel
  | limit => limit

/-- Whether each token of the limit is cancelled, from left to right. -/
def tokens : Limit → List Bool
  | token cancelled => [cancelled]
  | either first second => first.tokens ++ second.tokens
  | _ => []

end Limit

end BinaryCsp
