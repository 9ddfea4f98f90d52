import BinaryCsp.Proofs.Search.Nodes
import BinaryCsp.Proofs.Search.Recursion

/-!
# The search as one loop over a memory

Here backtracking is a loop that changes one memory in place: an assignment, a list of frames and
the world.  Nothing in the types keeps these together.  A frame knows its variable but not its
value, it has a trail only while one of its values is live, and the value tried last stays in the
assignment until another replaces it or the frame goes (`Found.settle`).

* `turn` is one round of the outer loop: the goal and the limit are asked, a variable is picked, and
  a frame for it is pushed.
* `seek` is the inner loop: it looks for the topmost frame with a value that survives its inference,
  and drops the frames without.
* `nextValue` goes through the values of one frame.
* `undoAll` undoes every frame when the search is given up.

What this loop has at its head is always a stack that the search comes to
(`Backtracking.exists_stack_of_again`), for each round is one or more steps of that search
(`follows_turn`); and what the loop comes to is what the search comes to
(`Backtracking.loop_refines`).  So what is known of the search on the stack is known of the loop:
the trails of its frames account for the domains (`Backtracking.loses_of_again`), and if it finds
nothing it leaves nothing behind (`Backtracking.restored_of_done`).
-/

namespace BinaryCsp

open Assignment (Over)

variable {V T σ : Type} [DecidableEq V]

/-! ## The memory -/

/-- A variable with the values still to try.  The trail is there while a value is live. -/
structure Frame (V T : Type) where
  var : V
  untried : List T
  trail : Option (Trail V T)

/-- What the loop changes.  The topmost frame comes first. -/
structure Memory (V T σ : Type) where
  assignment : Assignment V T
  frames : List (Frame V T)
  world : World V T σ

/-- How the loop is left: an ending, and the assignment as it was then. -/
abbrev Left (V T σ : Type) := Ending V T σ × Assignment V T

/-- What has come of the values of a frame. -/
inductive Found (V T σ : Type) where
  /-- A value has survived its inference. -/
  | value (untried : List T) (trail : Trail V T) (a : Assignment V T) (w : World V T σ)
  | exhausted (a : Assignment V T) (w : World V T σ)
  | interrupted (untried : List T) (a : Assignment V T) (w : World V T σ)
  | fault (f : Fault V T) (a : Assignment V T) (w : World V T σ)

/-! ## The loop -/

section Loop

variable [DecidableEq T] {P : Problem V T}

/-- Undoes what the live value of a frame has ruled out. -/
def Frame.undo (P : Problem V T) (frame : Frame V T) (w : World V T σ) :
    Except (Fault V T) Unit × World V T σ :=
  match frame.trail with
  | none => (.ok (), w)
  | some trail => w.restore P trail

/-- Undoes every frame and takes its variable out of the assignment. -/
def undoAll (P : Problem V T) : List (Frame V T) → Assignment V T → World V T σ →
    (Except (Fault V T) Unit × World V T σ) × Assignment V T
  | [], a, w => ((.ok (), w), a)
  | frame :: frames, a, w =>
    match frame.undo P w with
    | (.error f, w) => ((.error f, w), a)
    | (.ok _, w) => undoAll P frames (a.erase frame.var) w

/-- Gives the search up. -/
def abandon (P : Problem V T) (frames : List (Frame V T)) (a : Assignment V T)
    (w : World V T σ) : Left V T σ :=
  match undoAll P frames a w with
  | ((.error f, w), a) => ((.error f, w), a)
  | ((.ok _, w), a) => ((.ok .budgetExhausted, w), a)

/-- Tries the values of a variable until one survives its inference. -/
def Backtracking.nextValue (S : Backtracking P σ) (v : V) :
    List T → Assignment V T → World V T σ → Found V T σ
  | [], a, w => .exhausted a w
  | x :: xs, a, w =>
    match P.conflicts? a v x with
    | .error f => .fault f a w
    | .ok (_ + 1) => S.nextValue v xs a w
    | .ok 0 =>
      match w.state.assign P a v x with
      | .error f => .fault f a w
      | .ok (a, s) =>
        match s.suppose P v x with
        | (.error f, s) => .fault f a { w with state := s }
        | (.ok trail, s) =>
          match S.inference.infer v x a ⟨{ w with state := s }, trail⟩ with
          | (.error f, t) => .fault f a t.toWorld
          | (.ok .consistent, t) => .value xs t.trail a t.toWorld
          | (.ok .inconsistent, t) =>
            match t.toWorld.restore P t.trail with
            | (.error f, w) => .fault f a w
            | (.ok _, w) => S.nextValue v xs a w.countBacktrack
          | (.ok .interrupted, t) =>
            match t.toWorld.restore P t.trail with
            | (.error f, w) => .fault f a w
            | (.ok _, w) => .interrupted xs a w

/-- Takes up a frame again: undoes its live value, if it has one, and counts that. -/
def Frame.takeUp (P : Problem V T) (frame : Frame V T) (w : World V T σ) :
    Except (Fault V T) Unit × World V T σ :=
  match frame.trail with
  | none => (.ok (), w)
  | some trail =>
    match w.restore P trail with
    | (.error f, w) => (.error f, w)
    | (.ok _, w) => (.ok (), w.countBacktrack)

/-- What comes of a frame, given what has come of its values, the frames below, and what is to be
done when it goes. -/
def Found.settle (P : Problem V T) (v : V) (below : List (Frame V T))
    (goOn : Assignment V T → World V T σ → Round (Memory V T σ) (Left V T σ)) :
    Found V T σ → Round (Memory V T σ) (Left V T σ)
  | .value untried trail a w => .again ⟨a, ⟨v, untried, some trail⟩ :: below, w⟩
  | .exhausted a w => goOn (a.erase v) w
  | .interrupted untried a w => .done (abandon P (⟨v, untried, none⟩ :: below) a w)
  | .fault f a w => .done ((.error f, w), a)

/-- Looks for the topmost frame with a value that survives its inference. -/
def Backtracking.seek (S : Backtracking P σ) :
    List (Frame V T) → Assignment V T → World V T σ → Round (Memory V T σ) (Left V T σ)
  | [], a, w => .done ((.ok .unsatisfiable, w), a)
  | frame :: below, a, w =>
    match frame.takeUp P w with
    | (.error f, w) => .done ((.error f, w), a)
    | (.ok _, w) =>
      (S.nextValue frame.var frame.untried a w).settle P frame.var below (S.seek below)

/-- One round of the loop. -/
def Backtracking.turn (S : Backtracking P σ) (m : Memory V T σ) :
    Round (Memory V T σ) (Left V T σ) :=
  if m.assignment.size = P.vars.length then
    .done ((.ok (.solved m.assignment), m.world), m.assignment)
  else
    match m.world.context.poll with
    | (true, c) => .done (abandon P m.frames m.assignment ⟨m.world.state, c⟩)
    | (false, c) =>
      match S.variableOrdering.select m.world.state m.assignment c.countNode with
      | (.error f, c) => .done ((.error f, ⟨m.world.state, c⟩), m.assignment)
      | (.ok none, c) =>
        .done ((.error (.noVariableSelected S.variableOrdering.name m.assignment.size
          P.vars.length), ⟨m.world.state, c⟩), m.assignment)
      | (.ok (some v), c) =>
        match S.valueOrdering.order m.world.state m.assignment v.val c with
        | (.error f, c) => .done ((.error f, ⟨m.world.state, c⟩), m.assignment)
        | (.ok xs, c) => S.seek (⟨v.val, xs, none⟩ :: m.frames) m.assignment ⟨m.world.state, c⟩

/-- Where the loop has got to after a number of rounds. -/
def Backtracking.loop (S : Backtracking P σ) (w : World V T σ) :
    Nat → Round (Memory V T σ) (Left V T σ) :=
  Round.after (fun _ => S.turn) ⟨.empty, [], w⟩

end Loop

/-! ## The stack in the memory -/

variable {P : Problem V T}

/-- The frames of a stack as the loop keeps them. -/
def Stack.frames : {a : Assignment V T} → Stack P a → List (Frame V T)
  | _, .bottom => []
  | _, .push below v _ trail untried => ⟨v.val, untried, some trail⟩ :: below.frames

/-- A stack as the memory that the loop has at its head. -/
def Stack.memory {a : Assignment V T} (stack : Stack P a) (w : World V T σ) : Memory V T σ :=
  ⟨a, stack.frames, w⟩

/-- The variables come into the assignment in the order of the frames. -/
lemma Stack.keys_eq {a : Assignment V T} (stack : Stack P a) :
    a.keys = (stack.frames.map Frame.var).reverse := by
  induction stack with
  | bottom => rfl
  | push below v x trail untried ih =>
    rw [PartialMap.keys_insert, if_neg v.property.2, ih, frames, List.map_cons, List.reverse_cons]

lemma Stack.trail_of_mem_frames {a : Assignment V T} (stack : Stack P a) :
    ∀ frame ∈ stack.frames, frame.trail ≠ none := by
  induction stack with
  | bottom => exact nofun
  | push below v x trail untried ih =>
    exact List.forall_mem_cons.mpr ⟨Option.some_ne_none _, ih⟩

/-- What the stack owes is on the trails of the frames. -/
lemma Stack.outstanding_eq {a : Assignment V T} (stack : Stack P a) :
    stack.outstanding = stack.frames.reverse.flatMap fun frame => frame.trail.getD [] := by
  induction stack with
  | bottom => rfl
  | push below v x trail untried ih =>
    rw [outstanding, frames, List.reverse_cons, List.flatMap_append, ih, List.flatMap_singleton,
      Option.getD_some]

variable [DecidableEq T]

/-- Undoing the frames of a stack undoes the stack, and leaves nothing assigned. -/
lemma Stack.undoAll_frames {a : Assignment V T} (stack : Stack P a) (w : World V T σ) :
    (undoAll P stack.frames a w).1 = stack.unwind w ∧
      ((stack.unwind w).1 = .ok () → (undoAll P stack.frames a w).2 = .empty) := by
  induction stack generalizing w with
  | bottom => exact ⟨rfl, fun _ => rfl⟩
  | push below v x trail untried ih =>
    rw [frames, undoAll, Frame.undo, unwind]
    dsimp only
    rcases w.restore P trail with ⟨f | _, w'⟩
    · refine ⟨rfl, fun h => ?_⟩
      cases h
    · dsimp only
      rw [PartialMap.erase_insert v.property.2]
      exact ih w'

lemma Stack.abandon_frames {a : Assignment V T} (stack : Stack P a) (w : World V T σ) :
    (abandon P stack.frames a w).1 = stack.giveUp w ∧
      ((stack.giveUp w).Unsuccessful → (abandon P stack.frames a w).2 = .empty) := by
  obtain ⟨hunwind, hempty⟩ := stack.undoAll_frames w
  rw [abandon, giveUp]
  rcases hleft : undoAll P stack.frames a w with ⟨⟨f | _, w'⟩, b⟩
  · rw [hleft] at hunwind
    rw [← hunwind]
    exact ⟨rfl, fun h => absurd h (Ending.not_unsuccessful_fault w' f)⟩
  · rw [hleft] at hunwind hempty
    rw [← hunwind] at hempty ⊢
    exact ⟨rfl, fun _ => hempty rfl⟩

/-! ## One round -/

section Rounds

variable (S : Backtracking P σ)

/-- One step of the search on the stack leads from one point, in its world, to another. -/
def Backtracking.Moves (e f : Point P × World V T σ) : Prop := S.step e.1 e.2 = .moves f.1 f.2

/-- What a round comes to is what the search on the stack comes to from a point: another node after
one or more steps, or the end, where nothing is assigned unless the search is successful. -/
inductive Follows (p : Point P) (w : World V T σ) : Round (Memory V T σ) (Left V T σ) → Prop where
  | again {a : Assignment V T} {stack : Stack P a} {w' : World V T σ}
      (steps : Relation.TransGen S.Moves (p, w) (.node stack, w')) :
      Follows p w (.again (stack.memory w'))
  | done {left : Left V T σ} (run : S.run p w = left.1)
      (empty : left.1.Unsuccessful → left.2 = .empty) : Follows p w (.done left)

/-- The same of a step that has been taken: its point is that node, or leads to what the round comes
to, or the step is the last. -/
inductive Next.Becomes : Next P σ → Round (Memory V T σ) (Left V T σ) → Prop where
  | node {a : Assignment V T} (stack : Stack P a) (w : World V T σ) :
      Next.Becomes (.moves (.node stack) w) (.again (stack.memory w))
  | moves {q : Point P} {w : World V T σ} {round : Round (Memory V T σ) (Left V T σ)}
      (follows : Follows S q w round) : Next.Becomes (.moves q w) round
  | ends (ending : Ending V T σ) (a : Assignment V T) (empty : ending.Unsuccessful → a = .empty) :
      Next.Becomes (.ends ending) (.done (ending, a))

variable {S}

lemma Follows.of_step {p : Point P} {w : World V T σ} {round : Round (Memory V T σ) (Left V T σ)}
    (h : (S.step p w).Becomes S round) : Follows S p w round := by
  generalize hstep : S.step p w = next at h
  cases h with
  | node stack w' => exact .again (.single hstep)
  | @moves q w' _ follows =>
    cases follows with
    | again steps => exact .again (.head (b := (q, w')) hstep steps)
    | done run empty => exact .done ((Backtracking.run_of_moves hstep).trans run) empty
  | ends ending a empty => exact .done (Backtracking.run_of_ends hstep) empty

lemma Next.Becomes.fault (f : Fault V T) (w : World V T σ) (a : Assignment V T) :
    (Next.ends (.error f, w) : Next P σ).Becomes S (.done ((.error f, w), a)) :=
  .ends _ _ fun h => absurd h (Ending.not_unsuccessful_fault w f)

lemma Next.Becomes.giveUp {a : Assignment V T} (stack : Stack P a) (w : World V T σ) :
    (Next.ends (stack.giveUp w)).Becomes S (.done (abandon P stack.frames a w)) := by
  obtain ⟨heq, hempty⟩ := stack.abandon_frames w
  have hleft : abandon P stack.frames a w
      = (stack.giveUp w, (abandon P stack.frames a w).2) := Prod.ext heq rfl
  rw [hleft]
  exact .ends _ _ hempty

variable (S)

/-- **The values of a frame.**  The assignment may still hold the value that was tried last, and if
no value is left, the frames below are taken up. -/
lemma follows_nextValue {a : Assignment V T} (below : Stack P a) (v : P.Open a)
    (back : ∀ w, Follows S (.choice below v []) w (S.seek below.frames a w)) (xs : List T)
    {b : a.Over} (hb : b.Tries v.val) (w : World V T σ) :
    Follows S (.choice below v xs) w
      ((S.nextValue v.val xs b.val w).settle P v.val below.frames (S.seek below.frames)) := by
  induction xs generalizing b w with
  | nil =>
    have herase : b.val.erase v.val = a := hb.unassign_eq
    rw [Backtracking.nextValue, Found.settle, herase]
    exact back w
  | cons x xs ih =>
    have hasked : P.conflicts? b.val v.val x = .ok (P.conflicts a v.val x) := by
      rw [Problem.conflicts?, Problem.ifDeclared, if_pos v.property.1, hb.conflicts]
    have hassign : w.state.assign P b.val v.val x
        = .ok ((b.assign v.val x).val, w.state.countAssign) := if_pos v.property.1
    have hvalue : b.assign v.val x = (Over.refl a).assign v.val x := hb.assign_eq x
    refine .of_step ?_
    rw [Backtracking.step, Backtracking.stepTry, Backtracking.nextValue, hasked]
    rcases hconflicts : P.conflicts a v.val x with _ | n
    · rw [if_pos rfl]
      dsimp only
      rw [hassign, hvalue]
      dsimp only [Over.refl, Over.assign]
      rcases w.state.countAssign.suppose P v.val x with ⟨f | trail, s⟩
      · exact .fault _ _ _
      · dsimp only
        rcases S.inference.infer v.val x (a.insert v.val x) ⟨{ w with state := s }, trail⟩
          with ⟨f | verdict, t⟩
        · exact .fault _ _ _
        · cases verdict with
          | consistent => exact .node _ _
          | inconsistent =>
            dsimp only
            rcases t.toWorld.restore P t.trail with ⟨f | _, w'⟩
            · exact .fault _ _ _
            · exact .moves (ih (Over.tries_assign v.val x) w'.countBacktrack)
          | interrupted =>
            dsimp only
            rcases t.toWorld.restore P t.trail with ⟨f | _, w'⟩
            · exact .fault _ _ _
            · -- the frame itself has nothing to undo
              have hleft : abandon P (⟨v.val, xs, none⟩ :: below.frames) (a.insert v.val x) w'
                  = abandon P below.frames ((a.insert v.val x).erase v.val) w' := rfl
              rw [Found.settle, hleft, PartialMap.erase_insert v.property.2]
              exact .giveUp below w'
    · rw [if_neg (Nat.succ_ne_zero n)]
      exact .moves (ih hb w)

/-- **A frame that goes.**  The frames below are taken up from the topmost on. -/
lemma follows_seek {a : Assignment V T} (stack : Stack P a) :
    ∀ (v : P.Open a) (w : World V T σ),
      Follows S (.choice stack v []) w (S.seek stack.frames a w) := by
  induction stack with
  | bottom => exact fun v w => .of_step (.ends _ _ fun _ => rfl)
  | push below u x trail untried ih =>
    intro v w
    refine .of_step ?_
    rw [Backtracking.step, Stack.stepBack, Stack.frames, Backtracking.seek, Frame.takeUp]
    dsimp only
    rcases w.restore P trail with ⟨f | _, w'⟩
    · exact .fault _ _ _
    · exact .moves
        (follows_nextValue S below u (ih u) untried (Over.tries_assign u.val x) w'.countBacktrack)

/-- **One round of the loop** is one or more steps of the search on the stack. -/
theorem follows_turn {a : Assignment V T} (stack : Stack P a) (w : World V T σ) :
    Follows S (.node stack) w (S.turn (stack.memory w)) := by
  refine .of_step ?_
  rw [Backtracking.step, Backtracking.stepNode, Backtracking.turn, Stack.memory]
  dsimp only
  split
  · exact .ends _ _ fun h => absurd h (Ending.not_unsuccessful_solved w a)
  · rcases w.context.poll with ⟨_ | _, c⟩
    · dsimp only
      rw [Backtracking.branch]
      rcases S.variableOrdering.select w.state a c.countNode with ⟨f | _ | v, c'⟩
      · exact .fault _ _ _
      · exact .fault _ _ _
      · dsimp only
        rcases S.valueOrdering.order w.state a v.val c' with ⟨f | xs, c''⟩
        · exact .fault _ _ _
        · exact .moves
            (follows_nextValue S stack v (follows_seek S stack v) xs (Over.tries_refl v.val) _)
    · exact .giveUp stack _

/-! ## The whole loop -/

variable {S}

lemma Backtracking.run_of_steps {e f : Point P × World V T σ} (h : Relation.TransGen S.Moves e f) :
    S.run e.1 e.2 = S.run f.1 f.2 := by
  induction h with
  | single hstep => exact run_of_moves hstep
  | tail _ hstep ih => exact ih.trans (run_of_moves hstep)

lemma Backtracking.comesAfter_of_steps {e f : Point P × World V T σ}
    (h : Relation.TransGen S.Moves e f) : Relation.TransGen ComesAfter f.1 e.1 := by
  induction h with
  | single hstep => exact .single (step_comesAfter hstep)
  | tail _ hstep ih => exact .head (step_comesAfter hstep) ih

variable (S)

/-- From a memory that holds a stack, the loop comes to what the search on that stack comes to. -/
lemma Backtracking.exists_after_memory {a : Assignment V T} (stack : Stack P a)
    (w : World V T σ) :
    ∃ n left, Round.after (fun _ => S.turn) (stack.memory w) n = .done left ∧
      left.1 = S.run (.node stack) w ∧ (left.1.Unsuccessful → left.2 = .empty) := by
  -- each round that is not the last leads to a node further on
  suffices h : ∀ p : Point P, ∀ {a : Assignment V T} (stack : Stack P a) (w : World V T σ),
      p = .node stack → ∃ n left, Round.after (fun _ => S.turn) (stack.memory w) n = .done left ∧
        left.1 = S.run (.node stack) w ∧ (left.1.Unsuccessful → left.2 = .empty) from
    h _ stack w rfl
  intro p
  induction p using comesAfter_wf.transGen.induction with
  | _ p ih =>
    rintro a stack w rfl
    have hturn := follows_turn S stack w
    generalize hround : S.turn (stack.memory w) = round at hturn
    cases hturn with
    | @again b stack' w' steps =>
      obtain ⟨n, left, hleft, hrun, hempty⟩ := ih _ (comesAfter_of_steps steps) stack' w' rfl
      exact ⟨n + 1, left, (Round.after_succ_of_again hround n).trans hleft,
        hrun.trans (run_of_steps steps).symm, hempty⟩
    | done run empty =>
      exact ⟨1, _, hround, run.symm, empty⟩

/-- **What the loop has at its head** is a stack that the search comes to. -/
theorem Backtracking.exists_stack_of_again {w : World V T σ} {n : Nat} {m : Memory V T σ}
    (h : S.loop w n = .again m) :
    ∃ (a : Assignment V T) (stack : Stack P a) (w' : World V T σ),
      m = stack.memory w' ∧ S.Reached w (.node stack) w' := by
  refine Round.kept_after (I := fun m : Memory V T σ => ∃ (a : Assignment V T)
    (stack : Stack P a) (w' : World V T σ), m = stack.memory w' ∧ S.Reached w (.node stack) w')
    ?_ ⟨_, .bottom, w, rfl, .refl⟩ h
  rintro _ _ m ⟨a, stack, w', rfl, hreached⟩ hround
  have hturn := follows_turn S stack w'
  rw [hround] at hturn
  cases hturn with
  | again steps => exact ⟨_, _, _, rfl, hreached.trans steps.to_reflTransGen⟩

/-- **The loop refines the search on the stack.**  With any orderings, any inference and any limit:
at its head the loop always has a stack that the search comes to, so the assignment has the
variables of the frames, from the bottom up, and every frame has its trail.  After finitely many
rounds the loop is left, with the ending of the search in the world that the search leaves behind;
if that is neither a solution nor a fault, nothing is assigned. -/
theorem Backtracking.loop_refines (w : World V T σ) :
    (∀ n m, S.loop w n = .again m →
      (∃ stack : Stack P m.assignment, m.frames = stack.frames ∧
        S.Reached w (.node stack) m.world) ∧
      m.assignment.keys = (m.frames.map Frame.var).reverse ∧
      ∀ frame ∈ m.frames, frame.trail ≠ none) ∧
    ∃ n left, (∀ m, n ≤ m → S.loop w m = .done left) ∧ left.1 = S.search w ∧
      (left.1.Unsuccessful → left.2 = .empty) := by
  refine ⟨fun n m hagain => ?_, ?_⟩
  · obtain ⟨a, stack, w', rfl, hreached⟩ := S.exists_stack_of_again hagain
    exact ⟨⟨stack, rfl, hreached⟩, stack.keys_eq, stack.trail_of_mem_frames⟩
  · obtain ⟨n, left, hleft, hrun, hempty⟩ := S.exists_after_memory (Stack.bottom (P := P)) w
    exact ⟨n, left, fun m hm => Round.after_of_done hleft hm, hrun, hempty⟩

/-- **The trails of the frames account for the domains.**  If the inference notes what it takes,
then at the head of the loop the domains have lost, since the start, what the trails of the frames
hold. -/
theorem Backtracking.loses_of_again (hS : S.inference.Notes) {w : World V T σ}
    (hnd : ∀ v ∈ P.vars, (w.state.choices P v).Nodup) {n : Nat} {m : Memory V T σ}
    (h : S.loop w n = .again m) :
    w.state.Loses P m.world.state (m.frames.reverse.flatMap fun frame => frame.trail.getD []) := by
  obtain ⟨a, stack, w', rfl, hreached⟩ := S.exists_stack_of_again h
  rw [Stack.memory, ← stack.outstanding_eq]
  exact hreached.induction (I := fun p w' => w.state.Loses P w'.state p.outstanding)
    (fun p w' hp => loses_step hS hnd hp) (State.Loses.nil _)

/-- **A loop that is left with nothing found leaves nothing behind**: what was taken out of the
domains is back, and nothing is assigned. -/
theorem Backtracking.restored_of_done (hS : S.inference.Notes) {w : World V T σ}
    (hnd : ∀ v ∈ P.vars, (w.state.choices P v).Nodup) {n : Nat} {left : Left V T σ}
    (h : S.loop w n = .done left) (hnone : left.1.Unsuccessful) :
    w.state.Loses P left.1.2.state [] ∧ left.2 = .empty := by
  obtain ⟨-, k, last, hlast, hsearch, hempty⟩ := S.loop_refines w
  have heq : last = left := by
    have hlater : S.loop w (n + k) = .done left := Round.after_of_done h (Nat.le_add_right n k)
    exact Round.done.inj ((hlast (n + k) (Nat.le_add_left k n)).symm.trans hlater)
  subst heq
  have hrestored : Restored P w.state (S.search w) :=
    restored_run hS hnd (p := .node .bottom) (State.Loses.nil _)
  rw [← hsearch] at hrestored
  exact ⟨hrestored hnone, hempty hnone⟩

end Rounds

end BinaryCsp
