import BinaryCsp.Constraint
import BinaryCsp.Fault
import BinaryCsp.PartialMap

/-!
# Binary constraint problems

A `Problem` declares variables in an order, gives each a domain, links some of them as neighbors,
and holds one constraint that neighbors must meet.  What every accepted problem keeps is part of
the type: no variable occurs twice, exactly the declared variables have a domain, and neighborhood
is symmetric, irreflexive and listed without repetition.

`Problem.build` is the only way in from plain lists.  It reports the first thing wrong with them,
in this order: the declaration itself, stray domains, the neighbor lists entry by entry, and last
neighborhoods that only one side lists.

A problem never changes.  What a search changes is in `BinaryCsp.State`.
-/

namespace BinaryCsp

abbrev Domains (V T : Type) := PartialMap V (List T)

structure Problem (V T : Type) [DecidableEq V] where
  vars : List V
  /-- The domains as declared. -/
  baseline : Domains V T
  graph : PartialMap V (List V)
  constraint : Constraint V T
  vars_nodup : vars.Nodup
  mem_baseline : ∀ v, v ∈ baseline ↔ v ∈ vars
  neighbors_declared : ∀ v w, w ∈ graph.listAt v → w ∈ vars
  neighbors_nodup : ∀ v, (graph.listAt v).Nodup
  neighbors_irrefl : ∀ v, v ∉ graph.listAt v
  neighbors_symm : ∀ v w, w ∈ graph.listAt v → v ∈ graph.listAt w

namespace Problem

variable {V T : Type} [DecidableEq V]

/-! ## Reading a problem -/

section Reading

variable (P : Problem V T)

/-- The neighbors of a variable, in order of first mention. -/
def neighbors (v : V) : List V := P.graph.listAt v

def domain (v : V) : List T := P.baseline.listAt v

/-- Whether two assigned variables go together. -/
def check (a : V) (x : T) (b : V) (y : T) : Bool := P.constraint.check a x b y

/-- Gives an answer about a variable only if the variable is declared. -/
def ifDeclared {α : Type} (v : V) (answer : α) : Except (Fault V T) α :=
  if v ∈ P.vars then .ok answer else .error (.unknownVariable v)

def neighbors? (v : V) : Except (Fault V T) (List V) := P.ifDeclared v (P.neighbors v)

def domain? (v : V) : Except (Fault V T) (List T) := P.ifDeclared v (P.domain v)

/-- Whether two assigned neighbors go together.  Two variables that share no constraint are a
modelling mistake, not an implicit yes. -/
def check? (a : V) (x : T) (b : V) (y : T) : Except (Fault V T) Bool :=
  match P.neighbors? a with
  | .error f => .error f
  | .ok ns => if b ∈ ns then .ok (P.check a x b y) else .error (.notNeighbors a b)

end Reading

/-! ## What is wrong with a declaration -/

/-- The first variable that is declared again, or has no domain. -/
def declarationFault (domains : Domains V T) : (seen vars : List V) → Option (Fault V T)
  | _, [] => none
  | seen, v :: vs =>
    if v ∈ seen then some (.declaredTwice v)
    else if v ∈ domains then declarationFault domains (v :: seen) vs
    else some (.unknownVariable v)

theorem declarationFault_eq_none_iff {domains : Domains V T} {seen vars : List V} :
    declarationFault domains seen vars = none ↔
      vars.Nodup ∧ ∀ v ∈ vars, v ∉ seen ∧ v ∈ domains := by
  induction vars generalizing seen with
  | nil => simp [declarationFault]
  | cons v vs ih =>
    simp only [declarationFault]
    by_cases hs : v ∈ seen
    · simp [hs]
    · by_cases hd : v ∈ domains
      · simp only [hs, hd, if_false, if_true, ih, List.nodup_cons, List.mem_cons, not_or,
          forall_eq_or_imp, not_false_eq_true, and_self, true_and]
        constructor
        · rintro ⟨hn, h⟩
          exact ⟨⟨fun hv => (h v hv).1.1 rfl, hn⟩, fun w hw => ⟨(h w hw).1.2, (h w hw).2⟩⟩
        · rintro ⟨⟨hv, hn⟩, h⟩
          exact ⟨hn, fun w hw => ⟨⟨fun e => hv (e ▸ hw), (h w hw).1⟩, (h w hw).2⟩⟩
      · simp [hs, hd]

/-- The first variable with a domain that is not declared. -/
def strayFault (domains : Domains V T) (vars : List V) : Option (Fault V T) :=
  (domains.keys.find? fun v => !decide (v ∈ vars)).map .unknownVariable

theorem strayFault_eq_none_iff {domains : Domains V T} {vars : List V} :
    strayFault domains vars = none ↔ ∀ v ∈ domains, v ∈ vars := by
  simp [strayFault, PartialMap.mem_def]

/-! ## What is wrong with the neighbor lists -/

/-- The first listed neighbor that is the owner of the list, or is not declared. -/
def listFault (vars : List V) (owner : V) : List V → Option (Fault V T)
  | [] => none
  | w :: ws =>
    if w = owner then some (.selfNeighbor owner)
    else if w ∈ vars then listFault vars owner ws
    else some (.unknownVariable w)

/-- The first fault of the neighbor entries, in their order. -/
def entriesFault (vars : List V) : List (V × List V) → Option (Fault V T)
  | [] => none
  | e :: es =>
    if e.1 ∈ vars then (listFault vars e.1 e.2).or (entriesFault vars es)
    else some (.unknownVariable e.1)

theorem listFault_eq_none_iff {vars : List V} {owner : V} {ws : List V} :
    (listFault vars owner ws : Option (Fault V T)) = none ↔
      ∀ w ∈ ws, w ≠ owner ∧ w ∈ vars := by
  induction ws with
  | nil => simp [listFault]
  | cons w ws ih =>
    by_cases ho : w = owner
    · simp [listFault, ho]
    · by_cases hv : w ∈ vars <;> simp [listFault, ho, hv, ih]

theorem entriesFault_eq_none_iff {vars : List V} {es : List (V × List V)} :
    (entriesFault vars es : Option (Fault V T)) = none ↔
      ∀ e ∈ es, e.1 ∈ vars ∧ ∀ w ∈ e.2, w ≠ e.1 ∧ w ∈ vars := by
  induction es with
  | nil => simp [entriesFault]
  | cons e es ih =>
    by_cases hv : e.1 ∈ vars <;> simp [entriesFault, hv, Option.or_eq_none_iff,
      listFault_eq_none_iff, ih]

/-- The neighbors that the entries of a variable list, all entries joined, each neighbor where it
is first mentioned. -/
def joined (es : List (V × List V)) (v : V) : List V :=
  ((es.filter fun e => decide (e.1 = v)).flatMap Prod.snd).eraseDups

theorem mem_joined {es : List (V × List V)} {v w : V} :
    w ∈ joined es v ↔ ∃ e ∈ es, e.1 = v ∧ w ∈ e.2 := by
  simp [joined, and_assoc]

theorem nodup_eraseDups : (l : List V) → l.eraseDups.Nodup
  | [] => by simp
  | v :: l => by
    rw [List.eraseDups_cons, List.nodup_cons]
    exact ⟨by simp, nodup_eraseDups _⟩
termination_by l => l.length
decreasing_by exact Nat.lt_succ_of_le (List.length_filter_le _ _)

theorem joined_nodup (es : List (V × List V)) (v : V) : (joined es v).Nodup :=
  nodup_eraseDups _

/-- The first neighborhood that only one side lists: the listed variable and the owner. -/
def asymmetry (vars : List V) (graph : PartialMap V (List V)) : Option (V × V) :=
  vars.findSome? fun v =>
    ((graph.listAt v).find? fun w => !decide (v ∈ graph.listAt w)).map fun w => (w, v)

theorem asymmetry_eq_none_iff {vars : List V} {graph : PartialMap V (List V)} :
    asymmetry vars graph = none ↔
      ∀ v ∈ vars, ∀ w ∈ graph.listAt v, v ∈ graph.listAt w := by
  simp [asymmetry]

/-! ## Building a problem -/

/-- The variables meant by a declaration: those given, or the sorted keys of the domains if none
are. -/
def declared [LE V] [DecidableLE V] (given : List V) (domains : Domains V T) : List V :=
  if given.isEmpty then domains.keys.mergeSort (fun a b => decide (a ≤ b)) else given

/-- Builds a problem from its declaration, or says what is wrong with it.  Of two domain entries
of one variable the later counts; two neighbor entries of one variable are joined. -/
def build [LE V] [DecidableLE V] (given : List V) (domains : List (V × List T))
    (neighbors : List (V × List V)) (constraint : Constraint V T) :
    Except (Fault V T) (Problem V T) :=
  let doms : Domains V T := PartialMap.ofList domains
  let vars := declared given doms
  match hd : declarationFault doms [] vars with
  | some f => .error f
  | none =>
    match hs : strayFault doms vars with
    | some f => .error f
    | none =>
      match he : (entriesFault vars neighbors : Option (Fault V T)) with
      | some f => .error f
      | none =>
        have nodup := (declarationFault_eq_none_iff.1 hd).1
        let graph := PartialMap.tabulate vars nodup (joined neighbors)
        match ha : asymmetry vars graph with
        | some (listed, owner) => .error (.asymmetricNeighbors listed owner)
        | none => .ok {
            vars := vars
            baseline := doms
            graph := graph
            constraint := constraint
            vars_nodup := nodup
            mem_baseline := fun v =>
              ⟨strayFault_eq_none_iff.1 hs v,
                fun h => ((declarationFault_eq_none_iff.1 hd).2 v h).2⟩
            neighbors_declared := by
              intro v w hw
              rw [PartialMap.listAt_tabulate] at hw
              split at hw
              · obtain ⟨e, he', rfl, hw'⟩ := mem_joined.1 hw
                exact ((entriesFault_eq_none_iff.1 he e he').2 w hw').2
              · cases hw
            neighbors_nodup := by
              intro v
              rw [PartialMap.listAt_tabulate]
              split
              · exact joined_nodup _ _
              · exact List.nodup_nil
            neighbors_irrefl := by
              intro v hv
              rw [PartialMap.listAt_tabulate] at hv
              split at hv
              · obtain ⟨e, he', rfl, hw'⟩ := mem_joined.1 hv
                exact ((entriesFault_eq_none_iff.1 he e he').2 _ hw').1 rfl
              · cases hv
            neighbors_symm := by
              intro v w hw
              refine asymmetry_eq_none_iff.1 ha v ?_ w hw
              rw [PartialMap.listAt_tabulate] at hw
              split at hw
              · assumption
              · cases hw }

end Problem

end BinaryCsp
