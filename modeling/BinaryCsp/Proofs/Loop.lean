import Mathlib.Order.WellFounded
import Mathlib.Tactic.Common

/-!
# Loops, round by round

A function that is defined by a loop always has a value here, so that it has one says nothing about
the loop.  What says something is how many rounds the loop takes.  `Round` is what one round comes
to, and `Round.after` where a loop has got to after a number of rounds, each of which may go by
rules of its own.

A loop is over after finitely many rounds if every round that is not the last makes something
smaller (`Round.exists_done`), and if that is a number, after no more rounds than this number and
one (`Round.exists_done_of_measure`).  What its rounds keep holds all the way (`Round.kept_after`)
and at the end (`Round.of_after`); so what it comes to is the value of each function that unfolds
along its rounds (`Round.eq_of_after`).  On given states a loop can be run by its rounds
(`Round.read_of_after`).
-/

namespace BinaryCsp

/-- What one round of a loop comes to. -/
inductive Round (S A : Type) where
  /-- Another round follows, from this state. -/
  | again (s : S)
  /-- The loop is over. -/
  | done (a : A)

namespace Round

variable {S A : Type}

/-- Where a loop has got to after a number of rounds.  When it is over it stays so. -/
def after (round : Nat → S → Round S A) (s : S) : Nat → Round S A
  | 0 => .again s
  | n + 1 =>
    match after round s n with
    | .again t => round n t
    | .done a => .done a

/-- What a loop has come to, if it is over. -/
def answer? : Round S A → Option A
  | .again _ => none
  | .done a => some a

/-- The value that a round leads to, if `value` says what comes of each state. -/
def resume (value : S → A) : Round S A → A
  | .again s => value s
  | .done a => a

variable {round : Nat → S → Round S A} {s : S} {n : Nat}

lemma after_of_done {a : A} (h : after round s n = .done a) {m : Nat} (hm : n ≤ m) :
    after round s m = .done a := by
  induction hm with
  | refl => exact h
  | step _ ih => rw [after, ih]

/-- If every round goes by the same rules, the first may be made apart. -/
lemma after_succ_of_again {loop : S → Round S A} {t : S} (h : loop s = .again t) (n : Nat) :
    after (fun _ => loop) s (n + 1) = after (fun _ => loop) t n := by
  induction n with
  | zero => exact h
  | succ n ih => rw [after, ih, after]

/-- **A loop whose rounds descend is over after finitely many.** -/
theorem exists_done {r : S → S → Prop} (hwf : WellFounded r)
    (hround : ∀ n s t, round n s = .again t → r t s) (s : S) :
    ∃ n a, ∀ m, n ≤ m → after round s m = .done a := by
  have hreached : ∀ t n, after round s n = .again t → ∃ m a, after round s m = .done a := by
    intro t
    induction t using hwf.induction with
    | _ t ih =>
      intro n hn
      have hnext : after round s (n + 1) = round n t := by rw [after, hn]
      cases hr : round n t with
      | done a => exact ⟨n + 1, a, hnext.trans hr⟩
      | again u => exact ih u (hround n t u hr) (n + 1) (hnext.trans hr)
  obtain ⟨n, a, h⟩ := hreached s 0 rfl
  exact ⟨n, a, fun m hm => after_of_done h hm⟩

/-- **A loop whose rounds make a number smaller** takes no more rounds than that number and one. -/
theorem exists_done_of_measure (measure : S → Nat)
    (hround : ∀ n s t, round n s = .again t → measure t < measure s) (s : S) :
    ∃ a, ∀ n, measure s < n → after round s n = .done a := by
  have hspent : ∀ n t, after round s n = .again t → measure t + n ≤ measure s := by
    intro n
    induction n with
    | zero =>
      rintro t ⟨⟩
      exact Nat.le_refl _
    | succ n ih =>
      intro t h
      rw [after] at h
      cases hn : after round s n with
      | done a =>
        rw [hn] at h
        cases h
      | again u =>
        rw [hn] at h
        have hu := ih u hn
        have hless := hround n u t h
        omega
  cases hlast : after round s (measure s + 1) with
  | again t => exact absurd (hspent _ t hlast) (by omega)
  | done a => exact ⟨a, fun n hn => after_of_done hlast hn⟩

/-- **What every round keeps** holds wherever the loop has got to. -/
lemma kept_after {I : S → Prop} (again : ∀ n s t, I s → round n s = .again t → I t) (hs : I s)
    {t : S} (h : after round s n = .again t) : I t := by
  induction n generalizing t with
  | zero =>
    cases h
    exact hs
  | succ n ih =>
    rw [after] at h
    cases hn : after round s n with
    | done a =>
      rw [hn] at h
      cases h
    | again u =>
      rw [hn] at h
      exact again n u t (ih hn) h

/-- **What every round keeps** holds at the end: an invariant that a round which is not the last
keeps, and from which the last one reaches its goal. -/
theorem of_after {I : S → Prop} {R : A → Prop}
    (again : ∀ n s t, I s → round n s = .again t → I t)
    (done : ∀ n s a, I s → round n s = .done a → R a)
    (hs : I s) {a : A} (h : after round s n = .done a) : R a := by
  induction n with
  | zero => cases h
  | succ n ih =>
    rw [after] at h
    cases hn : after round s n with
    | done b =>
      rw [hn] at h
      exact ih (hn.trans h)
    | again t =>
      rw [hn] at h
      exact done n t a (kept_after again hs hn) h

/-- **What a loop comes to** is the value of any function that unfolds along its rounds. -/
theorem eq_of_after {loop : S → Round S A} {f : S → A} (hf : ∀ s, f s = (loop s).resume f) {a : A}
    (h : after (fun _ => loop) s n = .done a) : a = f s := by
  refine of_after (I := fun t => f t = f s) (R := fun b => b = f s) (fun _ t u ht hu => ?_)
    (fun _ t b ht hb => ?_) rfl h
  · rw [← ht, hf t, hu, resume]
  · rw [← ht, hf t, hb, resume]

/-- What is read off the end of a loop, once enough rounds have been made. -/
lemma read_of_after {loop : S → Round S A} {f : S → A} (hf : ∀ s, f s = (loop s).resume f)
    {B : Type} {read : A → B} {b : B}
    (h : (after (fun _ => loop) s n).answer?.map read = some b) : read (f s) = b := by
  cases hafter : after (fun _ => loop) s n with
  | again t =>
    rw [hafter] at h
    cases h
  | done a =>
    rw [hafter] at h
    rw [← eq_of_after hf hafter]
    exact Option.some.inj h

end Round

end BinaryCsp
