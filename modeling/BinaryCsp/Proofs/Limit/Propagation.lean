import BinaryCsp.Proofs.Limit.Polls
import BinaryCsp.Search.Inference

/-!
# How often propagation asks

A pass asks its limit once for each arc that it takes off the queue (`Pass.polls_step`), before it
looks at the arc.  Visiting the arc does not touch the limit, so a whole pass asks as often as it
takes an arc, and an interrupted one not once more (`Pass.exists_polls_run`).

Of the inferences only arc consistency asks at all.  None of them decides anything.
-/

namespace BinaryCsp

open Limited (limit under decided)

variable {V T σ : Type}

instance : Limited (Pass V T) where
  limit p := p.limit
  under p l := { p with limit := l }
  decided _ _ := 0
  under_limit _ := rfl
  limit_under _ _ := rfl
  under_under _ _ _ := rfl
  decided_under _ _ := rfl

instance : Limited (Visit V T) where
  limit
    | .goesOn p => limit p
    | .ends _ p => limit p
  under
    | .goesOn p, l => .goesOn (under p l)
    | .ends answer p, l => .ends answer (under p l)
  decided _ _ := 0
  under_limit visit := by cases visit <;> rfl
  limit_under visit _ := by cases visit <;> rfl
  under_under visit _ _ := by cases visit <;> rfl
  decided_under _ _ := rfl

/-- The limit has ended a pass. -/
def Visit.Interrupted (visit : Visit V T) : Prop := ∃ p, visit = .ends (.ok .interrupted) p

variable [DecidableEq V] {P : Problem V T}

namespace Pass

/-! ## The parts of a visit -/

section Parts

variable (P) (order : ArcOrder V T) (p : Pass V T) (l : Limit)

lemma requeue_under (v except : V) :
    (under p l).requeue P order v except = under (p.requeue P order v except) l := by
  rw [requeue, requeue]
  generalize (P.neighbors v).filter _ = ws
  induction ws generalizing p with
  | nil => rfl
  | cons w ws ih => exact ih (p.enqueue order (w, v))

lemma shrink_under (v except : V) (left gone : List T) :
    (under p l).shrink P order v except left gone
      = under (p.shrink P order v except left gone) l := by
  have hshort : (under p l).shortens v left = p.shortens v left := rfl
  rw [shrink, shrink, hshort]
  split
  · exact requeue_under P order (p.cut v left gone) l v except
  · rfl

variable [DecidableEq T]

lemma settleReverse_under (a b : V) (known : Support.Partition T T) :
    (under p l).settleReverse P order a b known
      = under (p.settleReverse P order a b known) l := by
  have hqueue : (under p l).queue = p.queue := rfl
  rw [settleReverse, settleReverse, hqueue]
  split
  · dsimp only
    exact shrink_under P order (countChecks _ { p with queue := p.queue.remove (b, a) }) l b a _ _
  · rfl

lemma visitAc3_under (a b : V) :
    (under p l).visitAc3 P order a b = under (p.visitAc3 P order a b) l := by
  have hcut : ∀ (p : Pass V T) (left gone : List T),
      (if (under p l).shortens a left then
        if ((under p l).cut a left gone).domains.listAt a = [] then
          Visit.ends (.ok .inconsistent) ((under p l).cut a left gone)
        else .goesOn (((under p l).cut a left gone).requeue P order a b)
      else .goesOn (under p l))
        = under (if p.shortens a left then
            if (p.cut a left gone).domains.listAt a = [] then
              Visit.ends (.ok .inconsistent) (p.cut a left gone)
            else .goesOn ((p.cut a left gone).requeue P order a b)
          else .goesOn p) l := by
    intro p left gone
    have hshort : (under p l).shortens a left = p.shortens a left := rfl
    have hdomains : ((under p l).cut a left gone).domains = (p.cut a left gone).domains := rfl
    simp only [hshort, hdomains]
    split
    · split
      · rfl
      · exact congrArg Visit.goesOn (requeue_under P order (p.cut a left gone) l a b)
    · rfl
  have hD : (under p l).domains = p.domains := rfl
  rw [visitAc3, visitAc3, hD]
  split
  · split
    · exact hcut (p.countChecks _) _ _
    · rfl
  · rfl

lemma visitAc3b_under (a b : V) :
    (under p l).visitAc3b P order a b = under (p.visitAc3b P order a b) l := by
  have hD : (under p l).domains = p.domains := rfl
  simp only [visitAc3b, hD]
  split
  · split
    · split
      · rfl
      · have hshrink := fun n left gone => shrink_under P order (countChecks n p) l a b left gone
        refine congrArg Visit.goesOn ?_
        rw [← settleReverse_under, ← shrink_under]
        rfl
    · rfl
  · rfl

end Parts

variable (how : Propagator V T)

/-- **A visit does not touch the limit.** -/
theorem handsOn_visit [DecidableEq T] (P : Problem V T) (arc : Arc V) :
    HandsOn fun p : Pass V T => p.visit P how arc where
  under_eq p l := by
    rw [visit, visit]
    cases how.method with
    | ac3 => exact visitAc3_under P how.order p l arc.1 arc.2
    | ac3b => exact visitAc3b_under P how.order p l arc.1 arc.2
  decided_eq _ := rfl

/-! ## Steps and runs -/

lemma next?_under (p : Pass V T) (l : Limit) :
    (under p l).next? how = ((p.next? how).1, under (p.next? how).2 l) := by
  have hqueue : (under p l).queue = p.queue := rfl
  have hclock : (under p l).clock = p.clock := rfl
  have hD : (under p l).domains = p.domains := rfl
  rw [next?, next?, hqueue, hclock, hD]
  rcases p.queue.pop _ p.clock with ⟨_ | ⟨arc, queue⟩, clock⟩
  · rfl
  · rfl

variable [DecidableEq T] {before : Decision → Nat}

/-- **A step asks once**, if there is an arc to take. -/
theorem exists_polls_step (P : Problem V T) (p : Pass V T) :
    ∃ k, Polls Visit.Interrupted before (fun l => (under p l).step P how) k := by
  rcases hnext : p.next? how with ⟨_ | arc, q⟩
  · refine ⟨0, polls_zero (fun l => ?_) fun _ => Nat.zero_le _⟩
    rw [step, step, next?_under, next?_under, hnext]
    rfl
  · have hask : Polls Visit.Interrupted before _ (1 + 0) := polls_ask
      (fun l => .ends (.ok .interrupted) (under q l)) (fun l => (under q l).visit P how arc)
      (fun l => ⟨⟨_, rfl⟩, rfl, fun _ => Nat.zero_le _⟩)
      (polls_zero (fun l => by
        rw [(handsOn_visit how P arc).under_eq, (handsOn_visit how P arc).under_eq,
          Limited.under_under]) fun _ => Nat.zero_le _)
    refine ⟨1, ?_⟩
    convert hask using 2 with l
    rw [step, next?_under, hnext]
    simp only [poll]
    rw [show (under q l).limit = l from rfl]
    cases l.poll.1 <;> rfl

/-- What comes of a visit. -/
def resume (P : Problem V T) : Visit V T → Except (Fault V T) Verdict × Pass V T
  | .ends answer p => (answer, p)
  | .goesOn p => p.run P how

lemma run_eq_resume (P : Problem V T) (p : Pass V T) :
    p.run P how = resume how P (p.step P how) := by
  rw [run]
  split <;> rename_i hnext <;> rw [hnext] <;> rfl

/-- **A pass asks so often, and when it is told to stop it is interrupted.** -/
theorem exists_polls_run (P : Problem V T) (p : Pass V T) :
    ∃ k, Polls (fun r => r.1 = .ok .interrupted) before (fun l => (under p l).run P how) k := by
  induction p using precedes_wf.induction with
  | h p ih =>
    obtain ⟨k, hstep⟩ : ∃ k, Polls Visit.Interrupted before (fun l => (under p l).step P how) k :=
      exists_polls_step how P p
    obtain ⟨k', hrest⟩ : ∃ k', Polls (fun r => r.1 = .ok .interrupted) before
        (fun l => resume how P (under ((under p .never).step P how) l)) k' := by
      rcases hnext : (under p .never).step P how with q | ⟨answer, q⟩
      · exact ih q (show q.Precedes (under p .never) from step_precedes hnext)
      · exact ⟨0, polls_zero (fun l => rfl) fun _ => Nat.zero_le _⟩
    refine ⟨k + k', ?_⟩
    have hrun : Polls (fun r => r.1 = .ok .interrupted) before
        (fun l => resume how P ((under p l).step P how)) (k + k') :=
      hstep.bind ?_ (fun _ => Nat.le_add_right _ _) hrest
    · convert hrun using 2 with l
      exact run_eq_resume how P (under p l)
    · rintro visit ⟨q, rfl⟩
      exact ⟨rfl, rfl, fun _ => Nat.zero_le _⟩

omit [DecidableEq T] in
lemma start_under (D : Domains V T) (arcs : List (Arc V)) (l : Limit) :
    start how D arcs l = under (start how D arcs .never) l := by
  have hfold : ∀ p : Pass V T,
      arcs.foldl (enqueue how.order) (under p l) = under (arcs.foldl (enqueue how.order) p) l := by
    induction arcs with
    | nil => exact fun _ => rfl
    | cons arc arcs ih => exact fun p => ih (p.enqueue how.order arc)
  exact hfold ⟨D, [], .empty, 0, .never, 0, 0⟩

end Pass

/-! ## Inferences -/

instance : Limited (World V T σ) where
  limit w := limit w.context
  under w l := { w with context := under w.context l }
  decided w := decided w.context
  under_limit _ := rfl
  limit_under _ _ := rfl
  under_under _ _ _ := rfl
  decided_under _ _ := rfl

instance : Limited (Trial V T σ) where
  limit t := limit t.toWorld
  under t l := { t with toWorld := under t.toWorld l }
  decided t := decided t.toWorld
  under_limit _ := rfl
  limit_under _ _ := rfl
  under_under _ _ _ := rfl
  decided_under _ _ := rfl

namespace Inference

/-- An inference that is interrupted when its limit says stop, and by nothing else. -/
def Polls (rule : Inference P σ) : Prop :=
  ∀ v x a (t : Trial V T σ), ∃ k, BinaryCsp.Polls (fun r => r.1 = .ok .interrupted) (decided t)
    (fun l => rule.infer v x a (under t l)) k

lemma polls_none : (Inference.none P : Inference P σ).Polls :=
  fun _ _ _ _ => ⟨0, polls_zero (fun _ => rfl) fun _ => Nat.le_refl _⟩

lemma handsOn_narrowAll (v : V) (x : T) (ws : List V) :
    HandsOn (narrowAll P v x ws : Trial V T σ → _) := by
  suffices h : ∀ (t : Trial V T σ) l,
      narrowAll P v x ws (under t l) = under (narrowAll P v x ws t) l ∧
        decided (narrowAll P v x ws t) = decided t from
    ⟨fun t l => (h t l).1, fun t => (h t .never).2⟩
  intro t l
  induction ws generalizing t with
  | nil => exact ⟨rfl, rfl⟩
  | cons w ws ih =>
    have hnarrow : narrow P v x w (under t l) = under (narrow P v x w t) l := rfl
    have hstate : (under (narrow P v x w t) l).state = (narrow P v x w t).state := rfl
    rw [narrowAll, narrowAll, hnarrow, hstate]
    split
    · exact ⟨rfl, rfl⟩
    · exact ⟨(ih _).1, (ih _).2⟩

lemma polls_forwardChecking : (forwardChecking P : Inference P σ).Polls := by
  intro v x a t
  have hnarrow : ∀ ws, HandsOn (narrowAll P v x ws : Trial V T σ → _) :=
    fun ws => handsOn_narrowAll v x ws
  refine ⟨0, HandsOn.polls (g := (forwardChecking P).infer v x a) ⟨fun t l => ?_, fun t => ?_⟩ t⟩
  · simp only [forwardChecking]
    cases P.neighbors? v with
    | error f => rfl
    | ok ws =>
      exact congrArg (fun r : Verdict × Trial V T σ => (Except.ok r.1, r.2))
        ((hnarrow _).under_eq { t with state := t.state.materialize P } l)
  · simp only [forwardChecking]
    cases P.neighbors? v with
    | error f => rfl
    | ok ws => exact (hnarrow _).decided_eq { t with state := t.state.materialize P }

section ArcConsistency

variable [DecidableEq T] (how : Propagator V T)

/-- What a pass makes of a trial. -/
def afterPass (t : Trial V T σ) (r : Except (Fault V T) Verdict × Pass V T) :
    Except (Fault V T) Verdict × Trial V T σ :=
  let after : Trial V T σ :=
    ⟨⟨t.state.withDomains r.2.domains, { t.context with limit := r.2.limit }⟩,
      t.trail ++ r.2.removed⟩
  match r.1 with
  | .error f => (.error f, after)
  | .ok verdict =>
    (.ok verdict, { after with
      context := after.context.count fun n =>
        { n with
          propagations := n.propagations + 1
          checks := n.checks + r.2.checks
          prunings := n.prunings + r.2.prunings } })

lemma infer_eq_afterPass {v : V} {ws : List V} (hws : P.neighbors? v = .ok ws) (x : T)
    (a : Assignment V T) (t : Trial V T σ) :
    (arcConsistency P how).infer v x a t = afterPass t ((Pass.start how (t.state.domains P)
      (ws.map fun w => (w, v)) t.context.limit).run P how) := by
  simp only [arcConsistency, hws]
  rfl

/-- **Arc consistency asks as often as its pass.** -/
lemma polls_arcConsistency : (arcConsistency P how : Inference P σ).Polls := by
  intro v x a t
  rcases hws : P.neighbors? v with f | ws
  · refine ⟨0, polls_zero (fun l => ?_) fun kind => ?_⟩
    · simp only [arcConsistency, hws]
      rfl
    · simp only [arcConsistency, hws]
      exact Nat.le_refl _
  · obtain ⟨k, hrun⟩ : ∃ k, BinaryCsp.Polls (fun r => r.1 = .ok .interrupted) (decided t)
        (fun l => (under (Pass.start how (t.state.domains P) (ws.map fun w => (w, v)) .never) l).run
          P how) k := Pass.exists_polls_run how P _
    refine ⟨k + 0, ?_⟩
    rw [show (fun l => (arcConsistency P how).infer v x a (under t l)) = fun l => afterPass t _ from
      funext fun l => by rw [infer_eq_afterPass how hws, Pass.start_under]; rfl]
    refine hrun.bind (fun r hr => ?_) (fun kind => Nat.le_add_right (decided t kind) k)
      (polls_zero (fun l => ?_) fun kind => ?_)
    · rcases r with ⟨answer, p⟩
      obtain rfl : answer = .ok .interrupted := hr
      exact ⟨rfl, rfl, fun kind => Nat.le_max_left _ _⟩
    · generalize (under (Pass.start how _ _ .never) .never).run P how = r
      rcases r with ⟨f | verdict, p⟩
      · rfl
      · rfl
    · generalize (under (Pass.start how _ _ .never) .never).run P how = r
      rcases r with ⟨f | verdict, p⟩
      · exact Nat.le_refl _
      · exact Nat.le_refl _

end ArcConsistency

end Inference

end BinaryCsp
