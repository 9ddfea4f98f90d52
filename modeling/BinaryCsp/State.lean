import BinaryCsp.Assignment

/-!
# What a search changes

A `State` holds the current domains, once they exist, and the number of assignments made.  Current
domains start as the declared ones; `suppose` and `prune` take values out of them, and every value
taken out is noted on a *trail*, so that `restore` can put it back.

Restored values go to the end of their domain: a supposition that is taken back leaves the same
values in another order.

An operation that may be refused midway returns the state it leaves behind together with its
answer.
-/

namespace BinaryCsp

/-- The values taken out of current domains, in the order in which they were taken. -/
abbrev Trail (V T : Type) := List (V × T)

/-- The changing part of a problem. -/
structure State (V T : Type) where
  /-- The current domains, if they have been made. -/
  current : Option (Domains V T)
  assigns : Nat

namespace State

variable {V T : Type} [DecidableEq V]

def initial : State V T := ⟨none, 0⟩

/-! ## Reading -/

section Reading

variable (P : Problem V T) (s : State V T)

/-- The current domains, or the declared ones while there are none. -/
def domains : Domains V T := s.current.getD P.baseline

/-- The values of a variable that are not ruled out. -/
def choices (v : V) : List T := (s.domains P).listAt v

/-- The values of a declared variable that are not ruled out. -/
def choices? (v : V) : Except (Fault V T) (List T) := P.ifDeclared v (s.choices P v)

/-- The current domain of a declared variable, once current domains exist. -/
def currentDomain? (v : V) : Except (Fault V T) (List T) :=
  match s.current with
  | none => .error .pruningNotSupported
  | some D => P.ifDeclared v (D.listAt v)

end Reading

/-! ## Writing -/

section Writing

variable (P : Problem V T) (s : State V T)

/-- Makes the current domains from the declared ones, unless they exist. -/
def materialize : State V T := { s with current := some (s.domains P) }

def withDomains (D : Domains V T) : State V T := { s with current := some D }

def countAssign : State V T := { s with assigns := s.assigns + 1 }

/-- Gives a declared variable a value, replacing the one it had, and counts that. -/
def assign (a : Assignment V T) (v : V) (x : T) :
    Except (Fault V T) (Assignment V T × State V T) :=
  P.ifDeclared v (a.insert v x, s.countAssign)

variable [DecidableEq T]

/-- Restricts a variable to one value of its current domain.  The trail holds the other values. -/
def suppose (v : V) (x : T) : Except (Fault V T) (Trail V T) × State V T :=
  let D := s.domains P
  if v ∈ P.vars then
    if x ∈ D.listAt v then
      (.ok (((D.listAt v).filter fun y => !decide (y = x)).map fun y => (v, y)),
        s.withDomains (D.insert v [x]))
    else (.error (.valueNotInDomain v x), s.withDomains D)
  else (.error (.unknownVariable v), s.withDomains D)

/-- Rules out one value of a current domain.  Of equal values the first goes. -/
def prune (v : V) (x : T) : Except (Fault V T) (State V T) :=
  match s.current with
  | none => .error .pruningNotSupported
  | some D =>
    if v ∈ P.vars then
      if x ∈ D.listAt v then .ok (s.withDomains (D.insert v ((D.listAt v).erase x)))
      else .error (.valueNotInDomain v x)
    else .error (.unknownVariable v)

/-- Rules out one value of a current domain and notes it at the end of the trail, if there is
one. -/
def pruneOnto (v : V) (x : T) (trail : Option (Trail V T)) :
    Except (Fault V T) (State V T × Option (Trail V T)) :=
  (s.prune P v x).map fun s => (s, trail.map (· ++ [(v, x)]))

end Writing

/-- Puts the values of a trail back, each at the end of its domain.  A value that the domain still
holds is a breach; what stands before it on the trail is put back all the same. -/
def restoreInto [DecidableEq T] (P : Problem V T) :
    Trail V T → Domains V T → Except (Fault V T) Unit × Domains V T
  | [], D => (.ok (), D)
  | (v, x) :: t, D =>
    if v ∈ P.vars then
      if x ∈ D.listAt v then (.error (.restoredTwice v x), D)
      else restoreInto P t (D.insert v (D.listAt v ++ [x]))
    else (.error (.unknownVariable v), D)

def restore [DecidableEq T] (P : Problem V T) (s : State V T) (t : Trail V T) :
    Except (Fault V T) Unit × State V T :=
  match s.current with
  | none => if t.isEmpty then (.ok (), s) else (.error .pruningNotSupported, s)
  | some D =>
    match restoreInto P t D with
    | (answer, D) => (answer, s.withDomains D)

/-- The assignment that propagation implies: every variable whose current domain is down to one
value. -/
def inferAssignment (P : Problem V T) (s : State V T) : Assignment V T × State V T :=
  let D := s.domains P
  (P.vars.foldl
    (fun a v =>
      match D.listAt v with
      | [x] => a.insert v x
      | _ => a)
    PartialMap.empty, s.withDomains D)

end State

end BinaryCsp
