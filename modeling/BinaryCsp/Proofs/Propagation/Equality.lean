import BinaryCsp.Proofs.Propagation.Agreement
import Mathlib.Logic.Relation

/-!
# Propagating equality

If neighbors must take the same value, a value needs itself as a partner in every neighbor, and
there again in every neighbor of that one.  So what a variable can keep is decided by all variables
that it is connected with, however long the way: `Problem.greatest_iff_common` says that the
greatest arc-consistent family holds the values which all domains of a component have in common.

Hence both methods, in whatever order they take up arcs, intersect the domains of whole components
(`Propagator.equality_intersects_components`).
-/

namespace BinaryCsp

variable {V T : Type} [DecidableEq V]

namespace Problem

/-! ## Components -/

/-- A way leads from one variable to another, each step from a variable to a neighbor. -/
def Connected (P : Problem V T) : V → V → Prop :=
  Relation.ReflTransGen fun v w => w ∈ P.neighbors v

/-- The value stands in the domain of every variable of the component of `v`. -/
def Common (P : Problem V T) (D : Domains V T) (v : V) (x : T) : Prop :=
  ∀ w, P.Connected v w → x ∈ D.listAt w

variable [DecidableEq T] {P : Problem V T} (hequal : P.constraint = .equal)
include hequal

lemma check_equal_iff {v w : V} {x y : T} : P.check v x w y = true ↔ x = y := by
  rw [check, hequal]
  simp [Constraint.equal]

lemma symmetric_equal : P.Symmetric := by
  intro v w _ x y
  rw [Bool.eq_iff_iff, check_equal_iff hequal, check_equal_iff hequal, eq_comm]

/-- A family of which each value has a partner holds its values all along a way. -/
lemma ArcConsistent.of_connected {F : V → T → Prop} (hF : P.ArcConsistent F) {v w : V}
    (h : P.Connected v w) {x : T} (hx : F v x) : F w x := by
  induction h with
  | refl => exact hx
  | tail _ hstep ih =>
    obtain ⟨y, hy, hcheck⟩ := hF _ _ hstep x ih
    rwa [(check_equal_iff hequal).mp hcheck]

/-- **The greatest arc-consistent family** under equality: what all domains of a component have in
common. -/
theorem greatest_iff_common {D : Domains V T} {v : V} {x : T} :
    P.greatest D v x ↔ P.Common D v x := by
  constructor
  · rintro ⟨F, hF, hin, hx⟩ w hw
    exact hin w x (hF.of_connected hequal hw hx)
  · intro hx
    refine ⟨P.Common D, fun v w hw x hx => ⟨x, fun u hu => ?_, ?_⟩, fun v x hx => ?_, hx⟩
    · exact hx u (Relation.ReflTransGen.head hw hu)
    · exact (check_equal_iff hequal).mpr rfl
    · exact hx v Relation.ReflTransGen.refl

end Problem

namespace Propagator

variable [DecidableEq T]

/-- If all variables have values to begin with, propagation from all arcs comes to a contradiction
exactly if some variable has none in the greatest arc-consistent family. -/
lemma inconsistent_iff_of_inhabited (how : Propagator V T) (P : Problem V T) (s : State V T)
    (trail : Option (Trail V T)) (hsym : P.Symmetric) (hsome : ∀ v ∈ P.vars, s.choices P v ≠ []) :
    (how.propagate P s none trail .never).answer = .ok .inconsistent ↔
      ∃ v ∈ P.vars, ∀ x, ¬ P.greatest (s.domains P) v x := by
  have harcs : P.OnNeighbors (Option.getD none P.arcs) := P.onNeighbors_arcs
  constructor
  · intro hbad
    obtain ⟨v, hv, hnone⟩ := (keeps_supported how P s harcs trail .never
      ((P.arcConsistent_greatest _).mutuallySupported hsym) (P.holds_greatest _)).2.2 hbad
    exact ⟨v, P.mem_vars_of_neighbors_ne_nil hv, hnone⟩
  · rintro ⟨v, hv, hnone⟩
    refine (concludes how P s harcs trail).resolve_left fun hok => ?_
    obtain ⟨x, hx⟩ := exists_greatest_of_consistent how P s harcs trail hsym
      (consistentAt_of_not_mem_arcs P s) hok (hsome v hv)
    exact hnone x hx

open scoped Classical in
/-- **Propagating equality intersects whole components.**  Without a limit propagation from all arcs
comes to a conclusion, by either method and in any order.  If it finds the domains consistent, each
variable keeps of its values, in their order, those that stand in the domains of all variables it is
connected with.  If all variables have values to begin with, it comes to a contradiction exactly if
some component has no value in common. -/
theorem equality_intersects_components (how : Propagator V T) (P : Problem V T) (s : State V T)
    (trail : Option (Trail V T)) (hequal : P.constraint = .equal) :
    let out := how.propagate P s none trail .never
    (out.answer = .ok .consistent ∨ out.answer = .ok .inconsistent) ∧
      (out.answer = .ok .consistent → ∀ v, out.state.choices P v
        = (s.choices P v).filter fun x => decide (P.Common (s.domains P) v x)) ∧
      ((∀ v ∈ P.vars, s.choices P v ≠ []) → (out.answer = .ok .inconsistent ↔
        ∃ v ∈ P.vars, ∀ x, ¬ P.Common (s.domains P) v x)) := by
  intro out
  have harcs : P.OnNeighbors (Option.getD none P.arcs) := P.onNeighbors_arcs
  have hsym : P.Symmetric := Problem.symmetric_equal hequal
  refine ⟨concludes how P s harcs trail, fun hok v => ?_, fun hsome => ?_⟩
  · simp only [← Problem.greatest_iff_common hequal]
    exact choices_eq_filter_greatest how P s hsym harcs (consistentAt_of_not_mem_arcs P s) trail
      .never hok v
  · simp only [← Problem.greatest_iff_common hequal]
    exact inconsistent_iff_of_inhabited how P s trail hsym hsome

/-- Three variables in a row.  The first loses a value that its neighbor has, because the last has
it not: the way there is two steps long. -/
theorem equality_intersects_components_row :
    let P := Problem.trio false [1, 2] [1, 2] [2, 3] .equal
    let out := Propagator.propagate ⟨.ac3b, .largestTarget⟩ P .initial none none .never
    P.constraint = .equal ∧ (∀ v ∈ P.vars, State.initial.choices P v ≠ []) ∧
      P.neighbors 0 = [1] ∧ P.Connected 0 2 ∧
      out.answer = .ok .consistent ∧ out.state.choices P 0 = [2] := by
  intro P out
  have hsome : ∀ v ∈ P.vars, State.initial.choices P v ≠ [] := by decide
  obtain ⟨hconcludes, hkept, hbad⟩ :=
    equality_intersects_components ⟨.ac3b, .largestTarget⟩ P .initial none rfl
  have hshared : ∀ v, P.Common P.baseline v 2 := by
    have hall : ∀ w, 2 ∈ P.baseline.listAt w := by decide
    exact fun _ w _ => hall w
  have hok : out.answer = .ok .consistent := by
    refine hconcludes.resolve_right fun h => ?_
    obtain ⟨v, -, hnone⟩ := (hbad hsome).mp h
    exact hnone 2 (hshared v)
  have hway : P.Connected 0 2 := by
    have hfirst : P.Connected 0 1 := Relation.ReflTransGen.single (by decide)
    exact hfirst.tail (by decide)
  have hlost : ¬ P.Common P.baseline 0 1 := by
    intro h
    exact absurd (h 2 hway) (by decide)
  refine ⟨rfl, hsome, rfl, hway, hok, (hkept hok 0).trans ?_⟩
  have hstart : State.initial.choices P 0 = [1, 2] := rfl
  have hdomains : State.initial.domains P = P.baseline := rfl
  rw [hstart, hdomains]
  simp [hlost, hshared]

end Propagator

end BinaryCsp
