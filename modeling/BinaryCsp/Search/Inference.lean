import BinaryCsp.Context
import BinaryCsp.Propagation

/-!
# What follows from a trial

When a search tries `v = x`, an `Inference` draws consequences from it.  What it rules out goes on
the trail of the trial, which the search undoes when the trial fails.

* `Inference.none` draws no consequences.
* `Inference.forwardChecking` rules out, in every neighbor without a value, what does not go with
  `x`.
* `Inference.arcConsistency` makes the problem arc consistent again, starting from the arcs that
  point at `v`.
-/

namespace BinaryCsp

variable {V T σ : Type} [DecidableEq V]

/-- The state of the problem and the context of the search. -/
structure World (V T σ : Type) where
  state : State V T
  context : Context σ

/-- All that an inference may change: the world, and the trail of the value that is tried. -/
structure Trial (V T σ : Type) extends World V T σ where
  trail : Trail V T

/-- Draws consequences from a value that has just been tried. -/
structure Inference (P : Problem V T) (σ : Type) where
  name : String
  infer : V → T → Assignment V T → Trial V T σ → Except (Fault V T) Verdict × Trial V T σ

namespace Inference

def none (P : Problem V T) : Inference P σ where
  name := "none"
  infer _ _ _ t := (.ok .consistent, t)

/-! ## Forward checking -/

/-- Rules out, in one variable, what does not go with `v = x`. -/
def narrow (P : Problem V T) (v : V) (x : T) (w : V) (t : Trial V T σ) : Trial V T σ :=
  let D := t.state.domains P
  let gone := (D.listAt w).filter fun y => !P.check v x w y
  { state := t.state.withDomains (D.insert w ((D.listAt w).filter fun y => P.check v x w y))
    trail := t.trail ++ gone.map fun y => (w, y)
    context := t.context.count fun n =>
      { n with
        checks := n.checks + (D.listAt w).length
        prunings := n.prunings + gone.length } }

/-- Narrows variables one after the other until one of them has no value left. -/
def narrowAll (P : Problem V T) (v : V) (x : T) :
    List V → Trial V T σ → Verdict × Trial V T σ
  | [], t => (.consistent, t)
  | w :: ws, t =>
    let t := narrow P v x w t
    if (t.state.choices P w).isEmpty then (.inconsistent, t) else narrowAll P v x ws t

/-- Narrows every neighbor without a value. -/
def forwardChecking (P : Problem V T) : Inference P σ where
  name := "forward-checking"
  infer v x a t :=
    let t := { t with state := t.state.materialize P }
    match P.neighbors? v with
    | .error f => (.error f, t)
    | .ok ws =>
      match narrowAll P v x (ws.filter fun w => !decide (w ∈ a)) t with
      | (verdict, t) => (.ok verdict, t)

/-! ## Arc consistency -/

/-- Runs a propagator from the arcs that point at the variable. -/
def arcConsistency [DecidableEq T] (P : Problem V T) (how : Propagator V T) : Inference P σ where
  name := "mac"
  infer v _ _ t :=
    match P.neighbors? v with
    | .error f => (.error f, t)
    | .ok ws =>
      let pass := how.propagate P t.state (some (ws.map fun w => (w, v))) (some t.trail)
        t.context.limit
      let context := { t.context with limit := pass.limit }
      let after : Trial V T σ := ⟨⟨pass.state, context⟩, pass.trail.getD t.trail⟩
      match pass.answer with
      | .error f => (.error f, after)
      | .ok verdict =>
        (.ok verdict, { after with
          context := context.count fun n =>
            { n with
              propagations := n.propagations + 1
              checks := n.checks + pass.checks
              prunings := n.prunings + pass.prunings } })

end Inference

end BinaryCsp
