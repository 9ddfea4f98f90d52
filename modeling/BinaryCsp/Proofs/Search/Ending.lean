import BinaryCsp.Proofs.Search.Step

/-!
# Every search ends

That a search ends has nothing to do with what its parts answer.  `Backtracking.run` makes this
visible for parts that are given once and for all; here they may change as the search goes on.  A
`Play` says for every step which orderings and which inference are asked there, and what has come
over the world since the step before: a clock that went on, somebody who cancelled, another limit.

A step takes a value from the topmost frame for good, or opens a frame that has one variable less
to choose from, with as many values as the ordering of the day likes (`ComesAfter`).  No number
fixed in advance bounds the steps, but there is no endless descent either, and so every play comes
to an ending (`Play.ends_of_moves`).

A play that never changes is an ordinary search, and its ending is what that search returns
(`Play.resume_after`).
-/

namespace BinaryCsp

variable {V T σ : Type} [DecidableEq V] [DecidableEq T] {P : Problem V T}

/-- What a search meets with, step by step: the parts that are asked, and what happens to the world
before. -/
structure Play (P : Problem V T) (σ : Type) where
  parts : Nat → Backtracking P σ
  outside : Nat → World V T σ → World V T σ

namespace Play

/-- Where a play has led to after a number of steps.  What has ended stays as it is. -/
def after (play : Play P σ) (start : Point P) (w : World V T σ) : Nat → Next P σ
  | 0 => .moves start w
  | n + 1 =>
    match play.after start w n with
    | .ends ending => .ends ending
    | .moves p w => (play.parts n).step p (play.outside n w)

/-- The same parts at every step, and nothing from outside. -/
def steady (S : Backtracking P σ) : Play P σ := ⟨fun _ => S, fun _ w => w⟩

section After

variable {play : Play P σ} {start p : Point P} {w w' : World V T σ} {n : Nat}

lemma after_of_moves (h : play.after start w n = .moves p w') :
    play.after start w (n + 1) = (play.parts n).step p (play.outside n w') := by
  rw [after, h]

lemma after_of_ends {ending : Ending V T σ} (h : play.after start w n = .ends ending) {m : Nat}
    (hm : n ≤ m) : play.after start w m = .ends ending := by
  induction hm with
  | refl => exact h
  | step _ ih => rw [after, ih]

/-- **A play that is at some point comes to an ending.**  The induction is on the points that can
come after; the world at that point does not matter. -/
theorem ends_of_moves (h : play.after start w n = .moves p w') :
    ∃ m ending, play.after start w m = .ends ending := by
  induction p using comesAfter_wf.induction generalizing n w' with
  | _ p ih =>
    have hnext := after_of_moves h
    cases hstep : (play.parts n).step p (play.outside n w') with
    | ends ending => exact ⟨n + 1, ending, hnext.trans hstep⟩
    | moves q u => exact ih q (step_comesAfter hstep) (hnext.trans hstep)

end After

/-- What comes of a steady play is the same at every step: the ending of its search. -/
lemma resume_after (S : Backtracking P σ) (start : Point P) (w : World V T σ) (n : Nat) :
    S.resume ((steady S).after start w n) = S.run start w := by
  induction n with
  | zero => rfl
  | succ n ih =>
    rw [← ih]
    cases h : (steady S).after start w n with
    | ends ending => rw [after_of_ends h (Nat.le_succ n)]
    | moves p u =>
      have hnext : (steady S).after start w (n + 1) = S.step p u := after_of_moves h
      rw [hnext]
      exact (Backtracking.run_eq_resume p u).symm

end Play

/-- **Every search ends, whatever its parts.**  From every point and in every world a search comes
to an ending after finitely many steps: also if the orderings and the inference are others at each
step, if the orderings list as many values as they like, if the inference changes the domains as it
likes, and if no limit ever fires.  If the parts stay the same, the ending is the one that the
search returns. -/
theorem Backtracking.search_ends (P : Problem V T) :
    (∀ (play : Play P σ) (start : Point P) (w : World V T σ),
      ∃ n ending, ∀ m, n ≤ m → play.after start w m = .ends ending) ∧
      ∀ (S : Backtracking P σ) (w : World V T σ),
        ∃ n, ∀ m, n ≤ m → (Play.steady S).after (.node .bottom) w m = .ends (S.search w) := by
  have hends : ∀ (play : Play P σ) (start : Point P) (w : World V T σ),
      ∃ n ending, ∀ m, n ≤ m → play.after start w m = .ends ending := by
    intro play start w
    have hstart : play.after start w 0 = .moves start w := rfl
    obtain ⟨n, ending, h⟩ := Play.ends_of_moves hstart
    exact ⟨n, ending, fun m hm => Play.after_of_ends h hm⟩
  refine ⟨hends, fun S w => ?_⟩
  obtain ⟨n, ending, h⟩ := hends (Play.steady S) (.node .bottom) w
  have hsearch : ending = S.search w := by
    have hresume := Play.resume_after S (.node .bottom) w n
    rwa [h n (Nat.le_refl n)] at hresume
  exact ⟨n, fun m hm => (h m hm).trans (congrArg Next.ends hsearch)⟩

end BinaryCsp
