import BinaryCsp.Proofs.Propagation.Revision
import BinaryCsp.Proofs.Trail.Conservation

/-!
# Many trails at once

A `Session` is a problem in use: its state, and the trails that are still to be put back, each under
a name.  An `Operation` makes the current domains, supposes, prunes, propagates, infers, or restores
a trail.  Trails may be restored in any order, and trails already begun may go on growing.

`Session.Ledger` is the invariant of all of it.  What stands in the domains, what the outstanding
trails hold, and what has been pruned without a trail make up the declared domains, up to order.
Each operation moves values between the three (`Ledger.perform`), and with a declared domain without
duplicates nothing is ever in two places.  So a trail can always be put back
(`Session.trail_discipline`).
-/

namespace BinaryCsp

/-! ## Families of lists, joined -/

namespace PartialMap

variable {K A : Type} [DecidableEq K]

/-- All lists of the family, one after the other. -/
def concat (m : PartialMap K (List A)) : List A := m.entries.flatMap Prod.snd

lemma filter_key_eq_self {k : K} {es : List (K × List A)} (h : k ∉ es.map Prod.fst) :
    (es.filter fun e => !decide (e.1 = k)) = es := by
  rw [List.filter_eq_self]
  intro e he
  have hne : e.1 ≠ k := fun hk => h (hk ▸ List.mem_map_of_mem he)
  simpa using hne

lemma concat_insert (m : PartialMap K (List A)) (k : K) (l : List A) :
    ((m.insert k l).concat ++ m.listAt k).Perm (m.concat ++ l) := by
  show ((place k l m.entries).flatMap Prod.snd ++ (find k m.entries).getD []).Perm
    (m.entries.flatMap Prod.snd ++ l)
  induction m.entries with
  | nil => simp [place, find]
  | cons e es ih =>
    by_cases hk : e.1 = k
    · simp only [place, find, if_pos hk, List.flatMap_cons, Option.getD_some, List.append_assoc]
      refine List.perm_append_comm.trans ((List.perm_append_comm.append_right l).trans ?_)
      rw [List.append_assoc]
    · simp only [place, find, if_neg hk, List.flatMap_cons, List.append_assoc]
      exact ih.append_left e.2

lemma concat_erase (m : PartialMap K (List A)) (k : K) :
    ((m.erase k).concat ++ m.listAt k).Perm m.concat := by
  obtain ⟨es, hnd⟩ := m
  show ((es.filter fun e => !decide (e.1 = k)).flatMap Prod.snd ++ (find k es).getD []).Perm
    (es.flatMap Prod.snd)
  induction es with
  | nil => simp [find]
  | cons e es ih =>
    obtain ⟨hnew, hnd⟩ := List.nodup_cons.mp hnd
    by_cases hk : e.1 = k
    · subst hk
      simp only [find, List.filter_cons, decide_true, Bool.not_true, Bool.false_eq_true, if_false,
        if_true, Option.getD_some, List.flatMap_cons]
      rw [filter_key_eq_self hnew]
      exact List.perm_append_comm
    · rw [List.filter_cons_of_pos (by simpa using hk), List.flatMap_cons, List.flatMap_cons,
        List.append_assoc, find, if_neg hk]
      exact (ih hnd).append_left e.2

lemma listAt_of_not_mem {m : PartialMap K (List A)} {k : K} (h : k ∉ m) : m.listAt k = [] := by
  rw [listAt, get?_eq_none_iff.mpr h, Option.getD_none]

lemma concat_lengthen (m : PartialMap K (List A)) (k : K) (l : List A) :
    (m.insert k (m.listAt k ++ l)).concat.Perm (m.concat ++ l) := by
  refine (List.perm_append_right_iff (m.listAt k)).mp ((m.concat_insert k _).trans ?_)
  rw [List.append_assoc]
  exact List.perm_append_comm.append_left _

end PartialMap

variable {V T σ N : Type} [DecidableEq V] [DecidableEq N]

/-! ## Sessions -/

/-- The inferences that take values out of the domains. -/
inductive Rule (V T : Type) where
  | forwardChecking
  | arcConsistency (how : Propagator V T)

/-- A problem in use. -/
structure Session (N V T : Type) where
  state : State V T
  /-- The trails that are still to be put back, by name. -/
  trails : PartialMap N (Trail V T)
  /-- How many values have been pruned without a trail. -/
  untrailed : Nat

/-- What can be done with a problem in use.  A trail is given by its name; one that does not exist
begins empty. -/
inductive Operation (N V T σ : Type) where
  | materialize
  | suppose (v : V) (x : T) (name : N)
  | prune (v : V) (x : T) (name : Option N)
  | propagate (how : Propagator V T) (arcs : Option (List (Arc V))) (name : Option N)
      (limit : Limit)
  | infer (rule : Rule V T) (v : V) (x : T) (a : Assignment V T) (context : Context σ) (name : N)
  | restore (name : N)

namespace Session

/-- A problem that has not been used yet. -/
def start (assigns : Nat) : Session N V T := ⟨⟨none, assigns⟩, .empty, 0⟩

/-- All that is on outstanding trails. -/
def outstanding (s : Session N V T) : Trail V T := s.trails.concat

/-- Stores a trail under its name, if it has one; if not, `pruned` values are on no trail. -/
def store (s : Session N V T) (name : Option N) (t : Option (Trail V T)) (pruned : Nat) :
    Session N V T :=
  match name, t with
  | some name, some t => { s with trails := s.trails.insert name t }
  | _, _ => { s with untrailed := s.untrailed + pruned }

end Session

section Operations

variable [DecidableEq T] (P : Problem V T)

def Rule.inference : Rule V T → Inference P σ
  | forwardChecking => .forwardChecking P
  | arcConsistency how => .arcConsistency P how

/-- Does an operation.  The answer says whether it was refused. -/
def Operation.perform (s : Session N V T) :
    Operation N V T σ → Except (Fault V T) Unit × Session N V T
  | materialize => (.ok (), { s with state := s.state.materialize P })
  | suppose v x name =>
    match s.state.suppose P v x with
    | (.ok t, state) => (.ok (), { s with state := state, trails := s.trails.insert name t })
    | (.error f, state) => (.error f, { s with state := state })
  | prune v x name =>
    match s.state.pruneOnto P v x (name.map s.trails.listAt) with
    | .ok (state, t) => (.ok (), { s with state := state }.store name t 1)
    | .error f => (.error f, s)
  | propagate how arcs name limit =>
    let out := how.propagate P s.state arcs (name.map s.trails.listAt) limit
    (out.answer.map fun _ => (), { s with state := out.state }.store name out.trail out.prunings)
  | infer rule v x a context name =>
    match (rule.inference P).infer v x a ⟨⟨s.state, context⟩, s.trails.listAt name⟩ with
    | (answer, t) =>
      (answer.map fun _ => (), { s with state := t.state, trails := s.trails.insert name t.trail })
  | restore name =>
    match s.state.restore P (s.trails.listAt name) with
    | (answer, state) => (answer, { s with state := state, trails := s.trails.erase name })

/-- A supposition takes a fresh name, and only an outstanding trail is restored. -/
def Operation.Allowed (s : Session N V T) : Operation N V T σ → Prop
  | suppose _ _ name => name ∉ s.trails
  | restore name => name ∈ s.trails
  | _ => True

/-- What a problem can come to in use. -/
inductive Session.Reachable (σ : Type) : Session N V T → Prop where
  | start (assigns : Nat) : Reachable σ (Session.start assigns)
  | perform {s : Session N V T} (op : Operation N V T σ) (allowed : op.Allowed s)
      (h : Reachable σ s) : Reachable σ (op.perform P s).2

end Operations

/-! ## The ledger -/

lemma Trail.valuesOf_perm {s t : Trail V T} (h : s.Perm t) (v : V) :
    (Trail.valuesOf s v).Perm (Trail.valuesOf t v) := h.filterMap _

/-- **The ledger of a session**: the domains, the outstanding trails and what is lost make up the
declared domains, and before there are current domains nothing is on a trail. -/
structure Session.Ledger (P : Problem V T) (s : Session N V T) (lost : Trail V T) : Prop where
  perm : ∀ v, (s.state.choices P v ++ Trail.valuesOf s.outstanding v
    ++ Trail.valuesOf lost v).Perm (P.domain v)
  untrailed : lost.length = s.untrailed
  early : s.state.current = none → s.outstanding = []

namespace Session.Ledger

variable {P : Problem V T} {s s' : Session N V T} {lost d : Trail V T}

omit [DecidableEq N] in
lemma start (assigns : Nat) : (Session.start assigns : Session N V T).Ledger P [] where
  perm v := by
    show (P.domain v ++ [] ++ []).Perm (P.domain v)
    rw [List.append_nil, List.append_nil]
  untrailed := rfl
  early _ := rfl

omit [DecidableEq N] in
/-- Values may go from the domains to the outstanding trails. -/
lemma trailed (h : s.Ledger P lost) (hloses : s.state.Loses P s'.state d)
    (hout : s'.outstanding.Perm (s.outstanding ++ d)) (hlost : s'.untrailed = s.untrailed)
    (hcur : s'.state.current = none → s.state.current = none ∧ d = []) : s'.Ledger P lost where
  perm v := by
    refine List.Perm.trans ?_ (h.perm v)
    refine List.Perm.append_right _ ?_
    have hd := Trail.valuesOf_perm hout v
    rw [Trail.valuesOf_append] at hd
    calc (s'.state.choices P v ++ Trail.valuesOf s'.outstanding v).Perm
          (s'.state.choices P v ++ (Trail.valuesOf d v ++ Trail.valuesOf s.outstanding v)) :=
        (hd.trans List.perm_append_comm).append_left _
      _ = s'.state.choices P v ++ Trail.valuesOf d v ++ Trail.valuesOf s.outstanding v :=
        (List.append_assoc ..).symm
      List.Perm _ (s.state.choices P v ++ Trail.valuesOf s.outstanding v) :=
        (hloses v).append_right _
  untrailed := by rw [hlost, h.untrailed]
  early hnone := by
    obtain ⟨hbefore, rfl⟩ := hcur hnone
    rw [h.early hbefore] at hout
    exact hout.eq_nil

omit [DecidableEq N] in
/-- Values may go from the domains and be lost. -/
lemma pruned (h : s.Ledger P lost) (hloses : s.state.Loses P s'.state d)
    (hout : s'.outstanding = s.outstanding) (hlost : s'.untrailed = s.untrailed + d.length)
    (hcur : s'.state.current ≠ none) : s'.Ledger P (lost ++ d) where
  perm v := by
    refine List.Perm.trans ?_ (h.perm v)
    rw [hout, Trail.valuesOf_append]
    have hswap :
        (Trail.valuesOf s.outstanding v ++ (Trail.valuesOf lost v ++ Trail.valuesOf d v)).Perm
          (Trail.valuesOf d v ++ (Trail.valuesOf s.outstanding v ++ Trail.valuesOf lost v)) := by
      rw [← List.append_assoc]
      exact List.perm_append_comm
    have hback := (hloses v).append_right (Trail.valuesOf s.outstanding v ++ Trail.valuesOf lost v)
    rw [List.append_assoc] at hback ⊢
    rw [List.append_assoc]
    exact (hswap.append_left _).trans hback
  untrailed := by rw [List.length_append, h.untrailed, hlost]
  early hnone := absurd hnone hcur

omit [DecidableEq N] in
/-- Values may go back from an outstanding trail to the ends of the domains. -/
lemma restored {t : Trail V T} (h : s.Ledger P lost)
    (hchoices : ∀ v, s'.state.choices P v = s.state.choices P v ++ Trail.valuesOf t v)
    (hout : (s'.outstanding ++ t).Perm s.outstanding) (hlost : s'.untrailed = s.untrailed)
    (hcur : s'.state.current = none → s.state.current = none) : s'.Ledger P lost where
  perm v := by
    refine List.Perm.trans ?_ (h.perm v)
    refine List.Perm.append_right _ ?_
    rw [hchoices, List.append_assoc]
    refine List.Perm.append_left _ ?_
    rw [← Trail.valuesOf_append]
    exact Trail.valuesOf_perm (List.perm_append_comm.trans hout) v
  untrailed := by rw [hlost, h.untrailed]
  early hnone := by
    rw [h.early (hcur hnone)] at hout
    exact (List.append_eq_nil_iff.mp hout.eq_nil).1

/-! ## What the ledger says -/

omit [DecidableEq N] in
lemma nodup (h : s.Ledger P lost) (hdom : ∀ v, (P.domain v).Nodup) (v : V) :
    (s.state.choices P v ++ Trail.valuesOf s.outstanding v).Nodup :=
  (List.nodup_append.mp ((h.perm v).nodup_iff.mpr (hdom v))).1

omit [DecidableEq N] in
lemma mem_domain (h : s.Ledger P lost) {v : V} {x : T}
    (hx : x ∈ s.state.choices P v ++ Trail.valuesOf s.outstanding v) : x ∈ P.domain v :=
  (h.perm v).mem_iff.mp (List.mem_append_left _ hx)

variable [DecidableEq T]

/-- **Every trail can be put back.** -/
theorem restore_eq_ok (h : s.Ledger P lost) (hdom : ∀ v, (P.domain v).Nodup) (name : N) :
    ∃ state, s.state.restore P (s.trails.listAt name) = (.ok (), state) ∧
      (∀ v, state.choices P v
        = s.state.choices P v ++ Trail.valuesOf (s.trails.listAt name) v) ∧
      (state.current = none ↔ s.state.current = none) := by
  have hpart := s.trails.concat_erase name
  have hearly : s.state.current = none → s.trails.listAt name = [] := by
    intro hnone
    rw [show s.trails.concat = [] from h.early hnone] at hpart
    exact (List.append_eq_nil_iff.mp hpart.eq_nil).2
  have hdecl : ∀ e ∈ s.trails.listAt name, e.1 ∈ P.vars := by
    intro e he
    have hout : e ∈ s.outstanding := hpart.mem_iff.mp (List.mem_append_right _ he)
    have hx : e.2 ∈ s.state.choices P e.1 ++ Trail.valuesOf s.outstanding e.1 :=
      List.mem_append_right _ (Trail.mem_valuesOf.mpr hout)
    exact P.mem_vars_of_mem_domain (h.mem_domain hx)
  have hnd : ∀ v, (s.state.choices P v ++ Trail.valuesOf (s.trails.listAt name) v).Nodup := by
    intro v
    have hv := Trail.valuesOf_perm hpart v
    rw [Trail.valuesOf_append] at hv
    have hall := ((hv.append_left (s.state.choices P v)).nodup_iff).mpr (h.nodup hdom v)
    exact hall.sublist ((List.sublist_append_right _ _).append_left _)
  obtain ⟨state, heq, hchoices, hcur, -⟩ := State.restore_eq_ok P hearly hdecl hnd
  exact ⟨state, heq, hchoices, hcur⟩

/-! ## What operations do to it -/

omit [DecidableEq T] in
/-- What goes out of the domains goes to a trail, or is lost if there is none. -/
lemma store (h : s.Ledger P lost) {state : State V T} (hloses : s.state.Loses P state d)
    (hcur : state.current ≠ none) (name : Option N) :
    ∃ lost', (Session.store { s with state := state } name
      ((name.map s.trails.listAt).map (· ++ d)) d.length).Ledger P lost' := by
  cases name with
  | none => exact ⟨lost ++ d, h.pruned hloses rfl rfl hcur⟩
  | some name =>
    refine ⟨lost, h.trailed hloses (s.trails.concat_lengthen name d) rfl ?_⟩
    exact fun hnone => absurd hnone hcur

omit [DecidableEq N] [DecidableEq T] in
/-- A refused supposition moves nothing. -/
lemma materialized (h : s.Ledger P lost) :
    Session.Ledger P { s with state := s.state.materialize P } lost :=
  h.trailed (.nil s.state) (by rw [List.append_nil]; rfl) rfl nofun

/-- **Every operation keeps the ledger balanced.** -/
theorem perform (h : s.Ledger P lost) (hdom : ∀ v, (P.domain v).Nodup)
    (op : Operation N V T σ) (hallowed : op.Allowed s) :
    ∃ lost', (op.perform P s).2.Ledger P lost' := by
  cases op with
  | materialize => exact ⟨lost, h.materialized⟩
  | suppose v x name =>
    rcases State.suppose_cases P s.state v x with ⟨-, hx, heq⟩ | ⟨f, heq⟩
    · obtain ⟨hloses, hcur⟩ := State.loses_suppose ((List.nodup_append.mp (h.nodup hdom v)).1) heq
      simp only [Operation.perform, heq]
      refine ⟨lost, h.trailed hloses ?_ rfl fun hnone => absurd hnone hcur⟩
      have hinsert := s.trails.concat_insert name
        (((s.state.choices P v).filter fun y => !decide (y = x)).map fun y => (v, y))
      rw [PartialMap.listAt_of_not_mem hallowed, List.append_nil] at hinsert
      exact hinsert
    · simp only [Operation.perform, heq]
      exact ⟨lost, h.materialized⟩
  | prune v x name =>
    simp only [Operation.perform, State.pruneOnto]
    rcases hprune : s.state.prune P v x with f | state
    · exact ⟨lost, h⟩
    · obtain ⟨hloses, hcur⟩ := State.loses_prune hprune
      exact h.store hloses hcur name
  | propagate how arcs name limit =>
    obtain ⟨d, htrail, hprunings, hperm⟩ :=
      how.propagate_conserves P s.state arcs (name.map s.trails.listAt) limit
    simp only [Operation.perform, htrail, hprunings]
    exact h.store (fun v => (hperm v).1) (Option.some_ne_none _) name
  | infer rule v x a context name =>
    have hnotes : (rule.inference P : Inference P σ).Notes := by
      cases rule with
      | forwardChecking => exact Inference.notes_forwardChecking
      | arcConsistency how => exact Inference.notes_arcConsistency how
    obtain ⟨d, htrail, hloses, hcur⟩ :=
      hnotes v x a ⟨⟨s.state, context⟩, s.trails.listAt name⟩
    simp only [Operation.perform, htrail]
    exact ⟨lost, h.trailed hloses (s.trails.concat_lengthen name d) rfl hcur⟩
  | restore name =>
    obtain ⟨state, heq, hchoices, hcur⟩ := h.restore_eq_ok hdom name
    simp only [Operation.perform, heq]
    exact ⟨lost, h.restored hchoices (s.trails.concat_erase name) rfl hcur.mp⟩

end Session.Ledger

namespace Session

variable [DecidableEq T]

/-- The ledger of every session that can be reached is balanced. -/
theorem Reachable.exists_ledger {P : Problem V T} (hdom : ∀ v, (P.domain v).Nodup)
    {s : Session N V T} (h : s.Reachable P σ) : ∃ lost, s.Ledger P lost := by
  induction h with
  | start assigns => exact ⟨[], .start assigns⟩
  | perform op allowed _ ih =>
    obtain ⟨lost, hledger⟩ := ih
    exact hledger.perform hdom op allowed

/-- **The discipline of trails.**  However a problem without repeated values has been used, domains
and outstanding trails together hold no value twice and only declared ones.  So every outstanding
trail can be restored, a refused supposition or pruning changes no domain and no trail, and once all
trails are restored every domain is as declared, up to order, unless values were pruned without a
trail. -/
theorem trail_discipline (P : Problem V T) (hdom : ∀ v, (P.domain v).Nodup) {s : Session N V T}
    (h : s.Reachable P σ) :
    (∀ v, (s.state.choices P v ++ Trail.valuesOf s.outstanding v).Nodup ∧
      ∀ x ∈ s.state.choices P v ++ Trail.valuesOf s.outstanding v, x ∈ P.domain v) ∧
    (∀ name ∈ s.trails,
      ((Operation.restore name : Operation N V T σ).perform P s).1 = .ok ()) ∧
    (∀ v x name f, ((Operation.suppose v x name : Operation N V T σ).perform P s).1 = .error f →
      let after := ((Operation.suppose v x name : Operation N V T σ).perform P s).2
      after.trails = s.trails ∧ ∀ w, after.state.choices P w = s.state.choices P w) ∧
    (∀ v x name f, ((Operation.prune v x name : Operation N V T σ).perform P s).1 = .error f →
      ((Operation.prune v x name : Operation N V T σ).perform P s).2 = s) ∧
    (s.untrailed = 0 → (∀ name, name ∉ s.trails) →
      ∀ v, (s.state.choices P v).Perm (P.domain v)) := by
  obtain ⟨lost, hledger⟩ := h.exists_ledger hdom
  refine ⟨fun v => ⟨hledger.nodup hdom v, fun x hx => hledger.mem_domain hx⟩, fun name _ => ?_,
    fun v x name f hf => ?_, fun v x name f hf => ?_, fun hnone hall v => ?_⟩
  · obtain ⟨state, heq, -⟩ := hledger.restore_eq_ok hdom name
    simp only [Operation.perform, heq]
  · rcases State.suppose_cases P s.state v x with ⟨-, -, heq⟩ | ⟨g, heq⟩
    · simp only [Operation.perform, heq] at hf
      cases hf
    · simp only [Operation.perform, heq]
      exact ⟨trivial, fun w => rfl⟩
  · rcases hprune : s.state.prune P v x with g | state
    · simp only [Operation.perform, State.pruneOnto, hprune, Except.map]
    · simp only [Operation.perform, State.pruneOnto, hprune, Except.map] at hf
      cases hf
  · have hlost : lost = [] := List.length_eq_zero_iff.mp (hledger.untrailed.trans hnone)
    have hempty : s.outstanding = [] := by
      obtain ⟨state, ⟨entries, hkeys⟩, untrailed⟩ := s
      cases entries with
      | nil => rfl
      | cons e es => exact absurd List.mem_cons_self (hall e.1)
    simpa [hlost, hempty] using hledger.perm v

/-- Two numbers in ascending order.  The first is supposed, what follows for the second is inferred
on a trail of its own, and the last value of the second is pruned onto the older trail.  That trail
is put back while the younger one is outstanding, then the younger: all values are there again, in
another order. -/
theorem trail_discipline_ascending :
    let P := Problem.ascending [1, 2, 3] [1, 2, 3]
    let used : List (Operation Nat Bool Nat Unit) → Session Nat Bool Nat :=
      List.foldl (fun s op => (op.perform P s).2) (start 0)
    let chosen : List (Operation Nat Bool Nat Unit) :=
      [.suppose false 2 0, .infer .forwardChecking false 2 (PartialMap.ofList [(false, 2)])
        (.seeded 0 ()) 1, .prune true 3 (some 0)]
    let back : List (Operation Nat Bool Nat Unit) := [.restore 0, .restore 1]
    (∀ v, (P.domain v).Nodup) ∧ (used chosen).Reachable P Unit ∧
      (used chosen).trails.listAt 0 = [(false, 1), (false, 3), (true, 3)] ∧
      (used chosen).trails.listAt 1 = [(true, 1), (true, 2)] ∧
      (∀ name ∈ (used chosen).trails,
        ((Operation.restore name : Operation Nat Bool Nat Unit).perform P (used chosen)).1
          = .ok ()) ∧
      (used (chosen ++ back)).state.choices P true = [3, 1, 2] ∧
      ∀ v, ((used (chosen ++ back)).state.choices P v).Perm (P.domain v) := by
  intro P used chosen back
  have hdom : ∀ v, (P.domain v).Nodup := by decide
  have hchosen : (used chosen).Reachable P Unit :=
    .perform _ trivial (.perform _ trivial (.perform _ List.not_mem_nil (.start 0)))
  have hback : (used (chosen ++ back)).Reachable P Unit :=
    .perform (.restore 1) (by decide +kernel : 1 ∈ (used (chosen ++ [.restore 0])).trails)
      (.perform (.restore 0) (by decide +kernel : 0 ∈ (used chosen).trails) hchosen)
  obtain ⟨-, hrestore, -⟩ := trail_discipline P hdom hchosen
  obtain ⟨-, -, -, -, hall⟩ := trail_discipline P hdom hback
  have hkeys : (used (chosen ++ back)).trails.keys = [] := by decide +kernel
  have hnone : ∀ name, name ∉ (used (chosen ++ back)).trails := fun name hname => by
    rw [PartialMap.mem_def, hkeys] at hname
    cases hname
  have huntrailed : (used (chosen ++ back)).untrailed = 0 := by decide +kernel
  exact ⟨hdom, hchosen, by decide +kernel, by decide +kernel, hrestore, by decide +kernel,
    hall huntrailed hnone⟩

end Session

end BinaryCsp
