import BinaryCsp.Proofs.ArcQueue.Sequence
import BinaryCsp.Proofs.Propagation.Revision

/-!
# Every pass ends

A pass is a loop within a loop, and both put back what they have taken: a visit queues arcs anew,
and the search for the front puts an entry back on the heap whose arc has lost priority.  That they
end all the same has nothing to do with what the order of the arcs answers, nor with the limit.

* **The front.**  `ArcQueue.look` is one look at the first entry of the heap.  It finds the front,
  or makes the heap lighter, since an entry is dropped or put back at a *lower* priority.  So
  looking ends whatever is answered (`ArcQueue.exists_found`), and it finds nothing exactly if no
  arc is queued.
* **The visits.**  A visit queues at most one arc for each variable, and only where it takes a value
  out of a domain.  So the queued arcs and, for each value that is left, as many arcs as there are
  variables, are all the arcs that can still come up (`Pass.effort`): no visit makes them more, and
  taking an arc makes them fewer (`Pass.effort_lt_of_step`).

Both together: a round of a pass is one look at the heap and, if it finds an arc, the visit of that
arc (`Pass.round`).  It makes the effort smaller, or keeps it and makes the heap lighter.
-/

namespace BinaryCsp

open Support

/-! ## Looking for the front -/

namespace ArcQueue

variable {V σ : Type} [DecidableEq V]

/-- One look at the first entry of the heap, with the state of the asking: a left-over entry is
dropped, one whose arc has lost priority is put back, and any other is the front. -/
def look (ask : Arc V → σ → Nat × σ) (w : ArcQueue V × σ) :
    Round (ArcQueue V × σ) (Option (Arc V × ArcQueue V) × σ) :=
  match _front : w.1.heap.pop? with
  | none => .done (none, w.2)
  | some (e, _) =>
    if _live : w.1.Live e then
      match ask e.arc w.2 with
      | (priority, s) =>
        if priority < e.priority then .again (w.1.lower _front priority, s)
        else .done (some (e.arc, w.1.takeFront _front), s)
    else .again (w.1.discard _front _live, w.2)

/-- Popping looks until it has found the front. -/
lemma pop_eq_look (ask : Arc V → σ → Nat × σ) (w : ArcQueue V × σ) :
    w.1.pop ask w.2 = (look ask w).resume fun u => u.1.pop ask u.2 := by
  fun_cases look ask w with
  | case1 front =>
    rw [pop]
    split <;> rename_i front' <;> cases front.symm.trans front'
    rfl
  | case2 e heap front live priority s hask lower =>
    rw [pop]
    split <;> rename_i front' <;> cases front.symm.trans front'
    simp only [live, hask, lower, ↓reduceDIte, Round.resume]
  | case3 e heap front live priority s hask fresh =>
    rw [pop]
    split <;> rename_i front' <;> cases front.symm.trans front'
    simp only [live, hask, fresh, ↓reduceDIte, Round.resume]
  | case4 e heap front idle =>
    rw [pop]
    split <;> rename_i front' <;> cases front.symm.trans front'
    simp only [idle, ↓reduceDIte, Round.resume]

variable {ask : Arc V → σ → Nat × σ}

/-- A look that finds nothing yet leaves the arcs as they are and the heap lighter. -/
lemma of_look_again {w u : ArcQueue V × σ} (h : look ask w = .again u) :
    u.1.numbers = w.1.numbers ∧ u.1.heap.weight < w.1.heap.weight := by
  revert h
  fun_cases look ask w with
  | case1 front => rintro ⟨⟩
  | case2 e heap front live priority s hask lower =>
    rintro ⟨⟩
    have hlighter : (w.1.lower front priority).heap.weight < w.1.heap.weight := weight_lower lower
    exact ⟨rfl, hlighter⟩
  | case3 e heap front live priority s hask fresh => rintro ⟨⟩
  | case4 e heap front idle =>
    rintro ⟨⟩
    have hlighter : (w.1.discard front idle).heap.weight < w.1.heap.weight := weight_discard
    exact ⟨rfl, hlighter⟩

/-- The last look finds nothing if no arc is queued, and otherwise takes one out. -/
lemma of_look_done {w : ArcQueue V × σ} {found : Option (Arc V × ArcQueue V)} {t : σ}
    (h : look ask w = .done (found, t)) :
    (found = none ↔ w.1.toList = []) ∧
      ∀ arc rest, found = some (arc, rest) → rest.size < w.1.size := by
  have hpop := pop_eq_look ask w
  rw [h, Round.resume] at hpop
  cases found with
  | none =>
    have hnil : w.1.toList = [] := List.eq_nil_iff_forall_not_mem.mpr (not_mem_of_pop_eq_none hpop)
    refine ⟨iff_of_true rfl hnil, ?_⟩
    rintro _ _ ⟨⟩
  | some found =>
    obtain ⟨arc, rest⟩ := found
    refine ⟨iff_of_false (Option.some_ne_none _) (List.ne_nil_of_mem (mem_of_pop hpop).1), ?_⟩
    rintro _ _ ⟨⟩
    exact size_of_pop hpop

/-- **Looking for the front ends**, after no more looks than the heap weighs and one, whatever is
answered at each; and it finds nothing exactly if no arc is queued. -/
theorem exists_found (ask : Nat → Arc V → σ → Nat × σ) (q : ArcQueue V) (s : σ) :
    ∃ found t, (found = none ↔ q.toList = []) ∧
      ∀ n, q.heap.weight < n → Round.after (fun n => look (ask n)) (q, s) n = .done (found, t) := by
  obtain ⟨⟨found, t⟩, h⟩ := Round.exists_done_of_measure
    (fun w : ArcQueue V × σ => w.1.heap.weight)
    (fun n w u (hu : look (ask n) w = .again u) => (of_look_again hu).2) (q, s)
  refine ⟨found, t, ?_, h⟩
  refine Round.of_after (I := fun w : ArcQueue V × σ => w.1.numbers = q.numbers)
    (R := fun found => found.1 = none ↔ q.toList = []) (fun _ w u hw hu => ?_)
    (fun _ w found hw hfound => ?_) rfl (h _ (Nat.lt_succ_self _))
  · exact (of_look_again hu).1.trans hw
  · rw [(of_look_done hfound).1, toList, toList, hw]

/-- Looking with the same answers all the time is popping. -/
lemma after_look (ask : Arc V → σ → Nat × σ) (q : ArcQueue V) (s : σ) {n : Nat}
    (hn : q.heap.weight < n) : Round.after (fun _ => look ask) (q, s) n = .done (q.pop ask s) := by
  obtain ⟨found, t, -, h⟩ := exists_found (fun _ => ask) q s
  have hpop := Round.eq_of_after (f := fun w : ArcQueue V × σ => w.1.pop ask w.2) (pop_eq_look ask)
    (h n hn)
  rw [h n hn, hpop]

end ArcQueue

/-! ## What a visit can bring up -/

variable {V T : Type} [DecidableEq V]

lemma ArcQueue.size_push_le (q : ArcQueue V) (priority : Nat) (arc : Arc V) :
    (q.push priority arc).size ≤ q.size + 1 := by
  rw [← length_toList, ← length_toList, toList_push]
  split
  · exact Nat.le_succ _
  · rw [List.length_append, List.length_singleton]

lemma Problem.length_neighbors_le (P : Problem V T) (v : V) :
    (P.neighbors v).length ≤ P.vars.length := by
  have hsub : P.neighbors v ⊆ P.vars := fun w hw => P.neighbors_declared v w hw
  exact (List.subperm_of_subset (P.neighbors_nodup v) hsub).length_le

namespace Pass

/-- A bound for the arcs that can still come up: those that are queued, and for each value that is
left one for each variable. -/
def effort (P : Problem V T) (p : Pass V T) : Nat :=
  p.queue.size + P.vars.length * p.domains.total

section Effort

variable (P : Problem V T) (order : ArcOrder V T)

lemma size_foldl_enqueue_le (arcs : List (Arc V)) (p : Pass V T) :
    (arcs.foldl (enqueue order) p).queue.size ≤ p.queue.size + arcs.length := by
  induction arcs generalizing p with
  | nil => exact Nat.le_refl _
  | cons arc arcs ih =>
    have hpush : (p.enqueue order arc).queue.size ≤ p.queue.size + 1 :=
      ArcQueue.size_push_le p.queue _ arc
    have hrest := ih (p.enqueue order arc)
    rw [List.foldl_cons, List.length_cons]
    omega

/-- At most one arc for each variable is queued again. -/
lemma size_requeue_le (v except : V) (p : Pass V T) :
    (p.requeue P order v except).queue.size ≤ p.queue.size + P.vars.length := by
  rw [requeue_eq_foldl]
  refine (size_foldl_enqueue_le order _ p).trans (Nat.add_le_add_left ?_ _)
  rw [List.length_map]
  exact (List.length_filter_le _ _).trans (P.length_neighbors_le v)

/-- Arcs are queued again in exchange for a value. -/
lemma effort_requeue_cut_le {v : V} {left : List T} {p : Pass V T} (h : p.shortens v left = true)
    (except : V) (gone : List T) :
    ((p.cut v left gone).requeue P order v except).effort P ≤ p.effort P := by
  have hsize : ((p.cut v left gone).requeue P order v except).queue.size
      ≤ p.queue.size + P.vars.length := size_requeue_le P order v except (p.cut v left gone)
  have htotal : (p.cut v left gone).domains.total + 1 ≤ p.domains.total := total_cut_lt h
  have hexchange := Nat.mul_le_mul_left P.vars.length htotal
  rw [Nat.mul_succ] at hexchange
  rw [effort, effort, domains_requeue]
  omega

lemma effort_shrink_le (v except : V) (left gone : List T) (p : Pass V T) :
    (p.shrink P order v except left gone).effort P ≤ p.effort P := by
  rw [shrink]
  split
  · rename_i hshort
    exact effort_requeue_cut_le P order hshort except gone
  · exact Nat.le_refl _

variable [DecidableEq T]

lemma effort_settleReverse_le (a b : V) (known : Partition T T) (p : Pass V T) :
    (p.settleReverse P order a b known).effort P ≤ p.effort P := by
  rw [settleReverse]
  split
  · refine (effort_shrink_le P order b a _ _ _).trans ?_
    exact Nat.add_le_add_right (PartialMap.size_erase_le _ _) _
  · exact Nat.le_refl _

lemma effort_le_of_visitAc3 {a b : V} {p q : Pass V T}
    (h : p.visitAc3 P order a b = .goesOn q) : q.effort P ≤ p.effort P := by
  rw [visitAc3] at h
  split at h
  · split at h
    · dsimp only at h
      split at h
      · rename_i hshort
        split at h
        · cases h
        · cases h
          exact effort_requeue_cut_le P order hshort b _
      · cases h
        exact Nat.le_refl _
    · cases h
  · cases h

lemma effort_le_of_visitAc3b {a b : V} {p q : Pass V T}
    (h : p.visitAc3b P order a b = .goesOn q) : q.effort P ≤ p.effort P := by
  rw [visitAc3b] at h
  split at h
  · split at h
    · dsimp only at h
      split at h
      · cases h
      · cases h
        exact (effort_settleReverse_le P order a b _ _).trans (effort_shrink_le P order a b _ _ _)
    · cases h
  · cases h

end Effort

section Steps

variable [DecidableEq T] {P : Problem V T} {how : Propagator V T} {p q : Pass V T}

/-- **A visit brings up no more arcs than it uses up values for.** -/
theorem effort_le_of_visit {arc : Arc V} (h : p.visit P how arc = .goesOn q) :
    q.effort P ≤ p.effort P := by
  rw [visit] at h
  cases hm : how.method with
  | ac3 =>
    rw [hm] at h
    exact effort_le_of_visitAc3 P how.order h
  | ac3b =>
    rw [hm] at h
    exact effort_le_of_visitAc3b P how.order h

/-- Asks for the priority of an arc, and counts the question. -/
def ask (how : Propagator V T) (D : Domains V T) (arc : Arc V) (clock : Nat) : Nat × Nat :=
  (how.order.priority clock D arc.1 arc.2, clock + 1)

/-- What a step does when the front has been found: it asks the limit and visits the arc. -/
def takeUp (P : Problem V T) (how : Propagator V T) (p : Pass V T) :
    Option (Arc V × ArcQueue V) × Nat → Visit V T
  | (none, clock) => .ends (.ok .consistent) { p with clock := clock }
  | (some (arc, rest), clock) =>
    if p.limit.poll.1 then .ends (.ok .interrupted) (p.taken rest clock)
    else (p.taken rest clock).visit P how arc

lemma step_eq_takeUp (P : Problem V T) (how : Propagator V T) (p : Pass V T) :
    p.step P how = p.takeUp P how (p.queue.pop (ask how p.domains) p.clock) := by
  rw [step, next?]
  unfold ask
  rcases p.queue.pop _ p.clock with ⟨_ | ⟨arc, rest⟩, clock⟩
  · rfl
  · simp only [takeUp, poll, taken]
    cases p.limit.poll.1 <;> rfl

/-- With a shorter queue than `n` a step goes on to less effort than `n` stood for. -/
lemma effort_lt_of_takeUp {found : Option (Arc V × ArcQueue V) × Nat} {n : Nat}
    (hfound : ∀ arc rest, found.1 = some (arc, rest) → rest.size < n)
    (h : p.takeUp P how found = .goesOn q) :
    q.effort P < n + P.vars.length * p.domains.total := by
  obtain ⟨_ | ⟨arc, rest⟩, clock⟩ := found
  · cases h
  · rw [takeUp] at h
    split at h
    · cases h
    · refine Nat.lt_of_le_of_lt (effort_le_of_visit h) ?_
      exact Nat.add_lt_add_right (hfound arc rest rfl) _

/-- **A step that goes on leaves less effort.** -/
theorem effort_lt_of_step (h : p.step P how = .goesOn q) : q.effort P < p.effort P := by
  rw [step_eq_takeUp] at h
  refine effort_lt_of_takeUp (fun arc rest hfound => ?_) h
  exact ArcQueue.size_of_pop (Prod.ext hfound rfl)

end Steps

end Pass

/-! ## Rounds -/

/-- A pass in search of its front: the pass as it was when the step began, and the queue and the
count of questions as far as the search has got. -/
structure Seeking (V T : Type) where
  pass : Pass V T
  queue : ArcQueue V
  clock : Nat

/-- A pass at the beginning of a step. -/
def Pass.seeking (p : Pass V T) : Seeking V T := ⟨p, p.queue, p.clock⟩

namespace Seeking

variable [DecidableEq T] {P : Problem V T} {how : Propagator V T}

/-- One round of a pass: a look at the heap and, if it finds the front, the visit of that arc. -/
def round (P : Problem V T) (how : Propagator V T) (k : Seeking V T) :
    Round (Seeking V T) (Except (Fault V T) Verdict × Pass V T) :=
  match ArcQueue.look (Pass.ask how k.pass.domains) (k.queue, k.clock) with
  | .again (queue, clock) => .again ⟨k.pass, queue, clock⟩
  | .done found => (k.pass.takeUp P how found).round Pass.seeking

/-- What comes of a pass in search of its front. -/
def run (P : Problem V T) (how : Propagator V T) (k : Seeking V T) :
    Except (Fault V T) Verdict × Pass V T :=
  ((k.pass.takeUp P how (k.queue.pop (Pass.ask how k.pass.domains) k.clock)).round id).resume
    (Pass.run P how)

lemma run_seeking (P : Problem V T) (how : Propagator V T) (p : Pass V T) :
    p.seeking.run P how = p.run P how := by
  rw [Pass.run_eq_step, Pass.step_eq_takeUp]
  rfl

lemma run_eq_round (k : Seeking V T) :
    k.run P how = (k.round P how).resume (run P how) := by
  rw [run, round, ArcQueue.pop_eq_look _ (k.queue, k.clock)]
  cases ArcQueue.look (Pass.ask how k.pass.domains) (k.queue, k.clock) with
  | again w => rfl
  | done found =>
    dsimp only [Round.resume]
    cases k.pass.takeUp P how found with
    | ends answer q => rfl
    | goesOn q => exact (run_seeking P how q).symm

/-- The effort that a search for the front stands for, as far as it has got. -/
def effort (P : Problem V T) (k : Seeking V T) : Nat :=
  k.queue.size + P.vars.length * k.pass.domains.total

/-- **A round that is not the last** leaves less effort, or as much and a lighter heap. -/
theorem of_round_again {k l : Seeking V T} (h : k.round P how = .again l) :
    l.effort P < k.effort P ∨
      l.effort P = k.effort P ∧ l.queue.heap.weight < k.queue.heap.weight := by
  rw [round] at h
  cases hlook : ArcQueue.look (Pass.ask how k.pass.domains) (k.queue, k.clock) with
  | again w =>
    rw [hlook] at h
    obtain ⟨hsame, hlighter⟩ := ArcQueue.of_look_again hlook
    cases h
    have hsize : w.1.size = k.queue.size := congrArg PartialMap.size hsame
    exact Or.inr ⟨congrArg (· + _) hsize, hlighter⟩
  | done found =>
    rw [hlook] at h
    dsimp only at h
    cases htake : k.pass.takeUp P how found with
    | ends answer q =>
      rw [htake] at h
      cases h
    | goesOn q =>
      rw [htake] at h
      cases h
      exact Or.inl (Pass.effort_lt_of_takeUp (ArcQueue.of_look_done hlook).2 htake)

/-- Another limit comes into force. -/
def limited (outside : Limit → Limit) (k : Seeking V T) : Seeking V T :=
  { k with pass.limit := outside k.pass.limit }

/-- **Rounds end**, also if the method, the order of the arcs and the limit are others at each. -/
theorem exists_done (P : Problem V T) (hows : Nat → Propagator V T)
    (outside : Nat → Limit → Limit) (k : Seeking V T) :
    ∃ n ending, ∀ m, n ≤ m →
      Round.after (fun n k => (limited (outside n) k).round P (hows n)) k m = .done ending := by
  refine Round.exists_done (InvImage.wf (fun k : Seeking V T => (k.effort P, k.queue.heap.weight))
    (WellFounded.prod_lex Nat.lt_wfRel.wf Nat.lt_wfRel.wf)) (fun n k l h => ?_) k
  have hless := of_round_again h
  exact Prod.lex_iff.mpr hless

end Seeking

/-! ## Passes -/

lemma Pass.effort_start_le (P : Problem V T) (how : Propagator V T) (D : Domains V T)
    (arcs : List (Arc V)) (limit : Limit) :
    (start how D arcs limit).effort P ≤ arcs.length + P.vars.length * D.total := by
  have hsize : (start how D arcs limit).queue.size ≤ 0 + arcs.length :=
    size_foldl_enqueue_le how.order arcs ⟨D, [], .empty, 0, limit, 0, 0⟩
  rw [effort, (start_frame how D arcs limit).1]
  omega

/-- A pass takes no more steps than its effort and one. -/
lemma Pass.after_step [DecidableEq T] (P : Problem V T) (how : Propagator V T) (p : Pass V T)
    {n : Nat} (hn : p.effort P < n) :
    Round.after (fun _ p => (p.step P how).round id) p n = .done (p.run P how) := by
  have hless : ∀ (_ : Nat) (p q : Pass V T), (p.step P how).round id = .again q →
      q.effort P < p.effort P := by
    intro _ p q h
    cases hstep : p.step P how with
    | ends answer r =>
      rw [hstep] at h
      cases h
    | goesOn r =>
      rw [hstep] at h
      cases h
      exact effort_lt_of_step hstep
  obtain ⟨ending, h⟩ := Round.exists_done_of_measure (effort P) hless p
  rw [h n hn, ← Round.eq_of_after (run_eq_step P how) (h n hn)]

/-- **Propagation ends, whatever the order of the arcs and the limit.**

Looking for the front of a queue ends after no more looks than the heap weighs and one, also if the
priorities are others at each look, and finds nothing exactly if no arc is queued; if they are given
once and for all, what it comes to is what `pop` returns.

A pass ends from every state, also if the method, the order of the arcs and the limit are others at
each round.  If they stay the same, the rounds and the steps from any given arcs come to what
`propagate` returns, and there are no more steps than given arcs, one arc for each variable and each
value in a domain, and one. -/
theorem Propagator.propagate_ends {V T σ : Type} [DecidableEq V] [DecidableEq T]
    (P : Problem V T) :
    (∀ (ask : Nat → Arc V → σ → Nat × σ) (q : ArcQueue V) (s : σ),
      ∃ found t, (found = none ↔ q.toList = []) ∧
        ∀ n, q.heap.weight < n →
          Round.after (fun n => ArcQueue.look (ask n)) (q, s) n = .done (found, t)) ∧
      (∀ (ask : Arc V → σ → Nat × σ) (q : ArcQueue V) (s : σ) (n : Nat), q.heap.weight < n →
        Round.after (fun _ => ArcQueue.look ask) (q, s) n = .done (q.pop ask s)) ∧
      (∀ (hows : Nat → Propagator V T) (outside : Nat → Limit → Limit) (k : Seeking V T),
        ∃ n ending, ∀ m, n ≤ m →
          Round.after (fun n k => (Seeking.limited (outside n) k).round P (hows n)) k m
            = .done ending) ∧
      ∀ (how : Propagator V T) (s : State V T) (arcs : Option (List (Arc V)))
        (trail : Option (Trail V T)) (limit : Limit),
        let start := Pass.start how (s.domains P) (arcs.getD P.arcs) limit
        let left := how.propagate P s arcs trail limit
        ∃ pass, left = ⟨left.answer, s.withDomains pass.domains, trail.map (· ++ pass.removed),
            pass.limit, pass.checks, pass.prunings⟩ ∧
          (∃ n, ∀ m, n ≤ m → Round.after (fun _ => Seeking.round P how) start.seeking m
            = .done (left.answer, pass)) ∧
          ∀ n, (arcs.getD P.arcs).length + P.vars.length * (s.domains P).total < n →
            Round.after (fun _ p => (p.step P how).round id) start n
              = .done (left.answer, pass) := by
  refine ⟨ArcQueue.exists_found, fun ask q s n hn => ArcQueue.after_look ask q s hn,
    Seeking.exists_done P, fun how s arcs trail limit => ?_⟩
  intro start left
  refine ⟨(start.run P how).2, rfl, ?_, fun n hn => ?_⟩
  · obtain ⟨n, ending, h⟩ := Seeking.exists_done P (fun _ => how) (fun _ => id) start.seeking
    have hrun : ending = start.run P how := by
      rw [← Seeking.run_seeking]
      exact Round.eq_of_after Seeking.run_eq_round (h n (Nat.le_refl n))
    exact ⟨n, fun m hm => (h m hm).trans (congrArg Round.done hrun)⟩
  · have heffort := Pass.effort_start_le P how (s.domains P) (arcs.getD P.arcs) limit
    exact Pass.after_step P how start (Nat.lt_of_le_of_lt heffort hn)

end BinaryCsp
