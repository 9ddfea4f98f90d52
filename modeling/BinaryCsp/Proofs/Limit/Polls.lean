import BinaryCsp.Context
import Mathlib.Tactic.Common

/-!
# Computations that ask a limit

Searches, propagation and local search all ask one limit now and then whether to go on.  Two runs of
such a computation under different limits do the same until one of them is told to stop, so a single
number says all there is to say about the limit: how often the computation asks if it is always told
to go on.

`Polls stops base f k` states this for a computation `f` that asks `k` times.  Under a limit that
passes `k` polls it does what it does without one; and it stops at the first poll that says stop,
which it never asks again.  It also bounds what was decided on the way: a decision is taken only
after a poll that said to go on.

Composed computations add up their polls (`Polls.bind`, `polls_ask`), so it is enough to look at
each place where the limit is asked.
-/

namespace BinaryCsp

/-! ## Polls of a limit -/

namespace Limit

/-- The limit after so many polls. -/
def after (l : Limit) : Nat → Limit
  | 0 => l
  | k + 1 => after l.poll.2 k

/-- The first polls, so many of them, say to go on. -/
def Passes (l : Limit) (k : Nat) : Prop := ∀ j < k, (l.after j).poll.1 = false

/-- The first poll to say stop comes after so many others. -/
def FiresAt (l : Limit) (j : Nat) : Prop := l.Passes j ∧ (l.after j).poll.1 = true

variable {l : Limit} {j k : Nat}

lemma after_add (l : Limit) (j k : Nat) : l.after (j + k) = (l.after j).after k := by
  induction j generalizing l with
  | zero => rw [Nat.zero_add, after]
  | succ j ih => rw [Nat.succ_add, after, after, ih]

lemma passes_zero (l : Limit) : l.Passes 0 := fun _ h => absurd h (Nat.not_lt_zero _)

lemma passes_add : l.Passes (j + k) ↔ l.Passes j ∧ (l.after j).Passes k := by
  constructor
  · refine fun h => ⟨fun i hi => h i (by omega), fun i hi => ?_⟩
    rw [← after_add]
    exact h (j + i) (by omega)
  · rintro ⟨hfirst, hrest⟩ i hi
    by_cases hij : i < j
    · exact hfirst i hij
    · rw [show i = j + (i - j) by omega, after_add]
      exact hrest (i - j) (by omega)

lemma passes_one : l.Passes 1 ↔ l.poll.1 = false :=
  ⟨fun h => h 0 Nat.one_pos, fun h i hi => by rw [Nat.lt_one_iff.mp hi]; exact h⟩

lemma firesAt_zero : l.FiresAt 0 ↔ l.poll.1 = true := and_iff_right l.passes_zero

/-- A limit that fires later has passed the polls in between. -/
lemma FiresAt.after (h : l.FiresAt (j + k)) : l.Passes j ∧ (l.after j).FiresAt k := by
  obtain ⟨hpasses, hfires⟩ := h
  rw [after_add] at hfires
  exact ⟨(passes_add.mp hpasses).1, (passes_add.mp hpasses).2, hfires⟩

/-! ### Some limits -/

@[simp] lemma after_never (k : Nat) : never.after k = never := by
  induction k with
  | zero => rfl
  | succ k ih => exact ih

lemma passes_never (k : Nat) : never.Passes k := by
  intro j _
  rw [after_never]
  rfl

@[simp] lemma after_decisions (n m k : Nat) :
    (decisions n m).after k = decisions n (m + k) := by
  induction k generalizing m with
  | zero => rfl
  | succ k ih => exact (ih (m + 1)).trans (by rw [Nat.add_assoc, Nat.add_comm 1])

/-- A budget of `n` decisions passes `n` polls, and stops at the next. -/
lemma passes_decisions {n : Nat} : (decisions n 0).Passes k ↔ k ≤ n := by
  constructor
  · intro h
    by_contra hlt
    have hpoll := h n (by omega)
    rw [after_decisions] at hpoll
    simp [poll] at hpoll
  · intro h j hj
    rw [after_decisions]
    simp only [poll, decide_eq_false_iff_not]
    omega

lemma firesAt_decisions (n : Nat) : (decisions n 0).FiresAt n := by
  refine ⟨passes_decisions.mpr (Nat.le_refl n), ?_⟩
  rw [after_decisions]
  simp [poll]

/-- A clock that stands still counts its polls, and never says stop. -/
@[simp] lemma after_still (budget m k : Nat) :
    (time .still budget m).after k = time .still budget (m + k) := by
  induction k generalizing m with
  | zero => rfl
  | succ k ih => exact (ih (m + 1)).trans (by rw [Nat.add_assoc, Nat.add_comm 1])

lemma passes_still (m k : Nat) : (time .still 1 m).Passes k := by
  intro j _
  rw [after_still]
  simp [poll, Clock.still]

end Limit

/-! ## What carries a limit -/

/-- What a computation decides between two polls. -/
inductive Decision where
  /-- Which variable to branch on. -/
  | node
  /-- Which value a conflicted variable takes. -/
  | move

/-- How many decisions of a kind have been counted. -/
def Stats.decided (n : Stats) : Decision → Nat
  | .node => n.nodesVisited
  | .move => n.minConflictsSteps

/-- What carries a limit, and a count of decisions. -/
class Limited (α : Type) where
  limit : α → Limit
  under : α → Limit → α
  decided : α → Decision → Nat
  under_limit : ∀ a, under a (limit a) = a
  limit_under : ∀ a l, limit (under a l) = l
  under_under : ∀ a l l', under (under a l) l' = under a l'
  decided_under : ∀ a l, decided (under a l) = decided a

open Limited (limit under decided)

attribute [simp] Limited.under_limit Limited.limit_under Limited.under_under Limited.decided_under

instance {σ : Type} : Limited (Context σ) where
  limit c := c.limit
  under c l := { c with limit := l }
  decided c := c.stats.decided
  under_limit _ := rfl
  limit_under _ _ := rfl
  under_under _ _ _ := rfl
  decided_under _ _ := rfl

/-- An answer carries no limit. -/
instance {ρ α : Type} [Limited α] : Limited (ρ × α) where
  limit r := limit r.2
  under r l := (r.1, under r.2 l)
  decided r := decided r.2
  under_limit r := by simp
  limit_under r l := by simp
  under_under r l l' := by simp
  decided_under r l := by simp

variable {α β γ : Type} [Limited α] [Limited β] [Limited γ]

/-- A function that neither asks the limit nor decides anything. -/
structure HandsOn (g : α → β) : Prop where
  under_eq : ∀ a l, g (under a l) = under (g a) l
  decided_eq : ∀ a, decided (g a) = decided a

lemma HandsOn.limit_eq {g : α → β} (h : HandsOn g) (a : α) : limit (g a) = limit a := by
  have hself := h.under_eq a (limit a)
  rw [Limited.under_limit] at hself
  rw [hself, Limited.limit_under]

lemma HandsOn.comp {f : α → β} {g : β → γ} (hf : HandsOn f) (hg : HandsOn g) :
    HandsOn fun a => g (f a) where
  under_eq a l := by rw [hf.under_eq, hg.under_eq]
  decided_eq a := by rw [hg.decided_eq, hf.decided_eq]

/-- Functions of an answer and what goes with it are looked at for each answer. -/
lemma HandsOn.of_answers {ρ : Type} {g : ρ × α → β} (h : ∀ r, HandsOn fun a => g (r, a)) :
    HandsOn g where
  under_eq r l := (h r.1).under_eq r.2 l
  decided_eq r := (h r.1).decided_eq r.2

/-- What is done after a first part, in one way with a fault and in another with an answer. -/
lemma HandsOn.of_cases {ε ρ : Type} {f : α → Except ε ρ × β} {g : α → γ} (fault : ε → β → γ)
    (goOn : ρ → β → γ) (hf : HandsOn f) (hfault : ∀ e, HandsOn (fault e))
    (hgoOn : ∀ r, HandsOn (goOn r)) (herror : ∀ a e b, f a = (.error e, b) → g a = fault e b)
    (hok : ∀ a r b, f a = (.ok r, b) → g a = goOn r b) : HandsOn g where
  under_eq a l := by
    have hunder := hf.under_eq a l
    rcases h : f a with ⟨e | r, b⟩ <;> rw [h] at hunder
    · rw [herror a e b h, herror (under a l) e (under b l) hunder]
      exact (hfault e).under_eq b l
    · rw [hok a r b h, hok (under a l) r (under b l) hunder]
      exact (hgoOn r).under_eq b l
  decided_eq a := by
    have hdecided := hf.decided_eq a
    rcases h : f a with ⟨e | r, b⟩ <;> rw [h] at hdecided
    · rw [herror a e b h]
      exact ((hfault e).decided_eq b).trans hdecided
    · rw [hok a r b h]
      exact ((hgoOn r).decided_eq b).trans hdecided

/-! ## Polls of a computation -/

/-- A computation that depends on a limit and asks it `k` times if it is always told to go on.  What
has been decided before is given. -/
structure Polls (stops : β → Prop) (before : Decision → Nat) (f : Limit → β) (k : Nat) : Prop where
  /-- Limits that let it pass make no difference, but for being asked. -/
  passes : ∀ l, l.Passes k → f l = under (f .never) (l.after k)
  /-- Told to stop it stops, and asks no more. -/
  fires : ∀ l, ∀ j < k, l.FiresAt j → stops (f l) ∧ limit (f l) = l.after (j + 1)
  /-- There are no more decisions than polls that said to go on. -/
  decides : ∀ kind, decided (f .never) kind ≤ before kind + k
  decides_fired : ∀ l, ∀ j < k, l.FiresAt j → ∀ kind, decided (f l) kind ≤ before kind + j

section Composition

variable {stops : β → Prop} {stops' : γ → Prop} {before : Decision → Nat} {f : Limit → β}
  {k k' : Nat}

lemma Polls.under_never (h : Polls stops before f k) : under (f .never) .never = f .never := by
  conv_rhs => rw [h.passes .never (Limit.passes_never k), Limit.after_never]

/-- What never asks. -/
lemma polls_zero (hf : ∀ l, f l = under (f .never) l)
    (hdecided : ∀ kind, decided (f .never) kind ≤ before kind) : Polls stops before f 0 where
  passes l _ := hf l
  fires _ j hj := absurd hj (Nat.not_lt_zero j)
  decides := hdecided
  decides_fired _ j hj := absurd hj (Nat.not_lt_zero j)

/-- A function that hands its argument on never asks. -/
lemma HandsOn.polls {g : α → β} (h : HandsOn g) (a : α) :
    Polls stops (decided a) (fun l => g (under a l)) 0 :=
  polls_zero (fun l => by rw [h.under_eq, h.under_eq, Limited.under_under]) fun kind =>
    Nat.le_of_eq (by rw [h.decided_eq, Limited.decided_under])

/-- **One poll.**  Told to go on, one more decision may be taken. -/
theorem polls_ask (stop goOn : Limit → β)
    (hstop : ∀ l, stops (stop l) ∧ limit (stop l) = l ∧ ∀ kind, decided (stop l) kind ≤ before kind)
    (hgoOn : Polls stops (fun kind => before kind + 1) goOn k) :
    Polls stops before (fun l => if l.poll.1 then stop l.poll.2 else goOn l.poll.2) (1 + k) where
  passes l hl := by
    obtain ⟨hpoll, hrest⟩ := Limit.passes_add.mp hl
    have hpoll : l.poll.1 = false := Limit.passes_one.mp hpoll
    simp only [hpoll, Limit.after_add]
    exact hgoOn.passes _ hrest
  fires l j hj hfires := by
    cases j with
    | zero =>
      have hpoll : l.poll.1 = true := Limit.firesAt_zero.mp hfires
      simp only [hpoll, if_true]
      exact ⟨(hstop _).1, (hstop _).2.1⟩
    | succ j =>
      rw [Nat.add_comm] at hfires
      obtain ⟨hpoll, hrest⟩ := hfires.after
      have hpoll : l.poll.1 = false := Limit.passes_one.mp hpoll
      simp only [hpoll]
      exact hgoOn.fires _ j (by omega) hrest
  decides kind := by
    have h := hgoOn.decides kind
    show decided (goOn .never) kind ≤ _
    omega
  decides_fired l j hj hfires kind := by
    cases j with
    | zero =>
      have hpoll : l.poll.1 = true := Limit.firesAt_zero.mp hfires
      simp only [hpoll, if_true]
      exact (hstop _).2.2 kind
    | succ j =>
      rw [Nat.add_comm] at hfires
      obtain ⟨hpoll, hrest⟩ := hfires.after
      have hpoll : l.poll.1 = false := Limit.passes_one.mp hpoll
      simp only [hpoll]
      have h : decided (goOn l.poll.2) kind ≤ before kind + 1 + j :=
        hgoOn.decides_fired _ j (by omega) hrest kind
      show decided (goOn l.poll.2) kind ≤ _
      omega

/-- **One computation after the other.**  What the second does with a result of the first that was
not stopped depends on the limit in the same way; a result that was stopped it hands on. -/
theorem Polls.bind {g : β → γ} {between : Decision → Nat} (hf : Polls stops before f k)
    (hstop : ∀ b, stops b → stops' (g b) ∧ limit (g b) = limit b ∧
      ∀ kind, decided (g b) kind ≤ max (before kind) (decided b kind))
    (hbetween : ∀ kind, between kind ≤ before kind + k)
    (hg : Polls stops' between (fun l => g (under (f .never) l)) k') :
    Polls stops' before (fun l => g (f l)) (k + k') where
  passes l hl := by
    obtain ⟨hfirst, hrest⟩ := Limit.passes_add.mp hl
    have hpasses := hg.passes _ hrest
    rw [hf.under_never, ← Limit.after_add] at hpasses
    rw [hf.passes l hfirst]
    exact hpasses
  fires l j hj hfires := by
    by_cases hjk : j < k
    · obtain ⟨hstops, hlimit⟩ := hf.fires l j hjk hfires
      obtain ⟨hstops', hlimit', -⟩ := hstop _ hstops
      exact ⟨hstops', hlimit'.trans hlimit⟩
    · obtain ⟨i, rfl⟩ := Nat.exists_eq_add_of_le (Nat.le_of_not_lt hjk)
      obtain ⟨hfirst, hrest⟩ := hfires.after
      rw [hf.passes l hfirst, Nat.add_assoc, Limit.after_add]
      exact hg.fires _ i (by omega) hrest
  decides kind := by
    have hfirst := hbetween kind
    have hrest := hg.decides kind
    rw [hf.under_never] at hrest
    omega
  decides_fired l j hj hfires kind := by
    by_cases hjk : j < k
    · have hfirst := hf.decides_fired l j hjk hfires kind
      have hrest := (hstop _ (hf.fires l j hjk hfires).1).2.2 kind
      omega
    · obtain ⟨i, rfl⟩ := Nat.exists_eq_add_of_le (Nat.le_of_not_lt hjk)
      obtain ⟨hfirst, hrest⟩ := hfires.after
      rw [hf.passes l hfirst]
      have hlast := hg.decides_fired _ i (by omega) hrest kind
      have hbefore := hbetween kind
      omega

/-- What is done with the result, without asking. -/
lemma Polls.map {g : β → γ} (hf : Polls stops before f k) (hg : HandsOn g)
    (hstop : ∀ b, stops b → stops' (g b)) : Polls stops' before (fun l => g (f l)) k :=
  hf.bind
    (fun b hb => ⟨hstop b hb, hg.limit_eq b, fun _ => hg.decided_eq b ▸ Nat.le_max_right _ _⟩)
    hf.decides (hg.polls (f .never))

/-- If whatever is stopped is something more, then it is. -/
lemma Polls.imp (hf : Polls stops before f k) {stops' : β → Prop}
    (himp : ∀ l, stops (f l) → stops' (f l)) : Polls stops' before f k :=
  { hf with fires := fun l j hj hfires => (hf.fires l j hj hfires).imp_left (himp l) }

/-- The same with more decided before. -/
lemma Polls.of_le {between : Decision → Nat} (hf : Polls stops between f k)
    (hle : ∀ kind, between kind ≤ before kind) : Polls stops before f k :=
  { hf with
    decides := fun kind => Nat.le_trans (hf.decides kind) (Nat.add_le_add_right (hle kind) k)
    decides_fired := fun l j hj hfires kind =>
      Nat.le_trans (hf.decides_fired l j hj hfires kind) (Nat.add_le_add_right (hle kind) j) }

/-! ### Budgets -/

variable {n : Nat}

/-- A clock that stands still tells how often a computation asks. -/
lemma Polls.still (h : Polls stops before f k) :
    f (.time .still 1 0) = under (f .never) (.time .still 1 k) := by
  rw [h.passes _ (Limit.passes_still 0 k), Limit.after_still, Nat.zero_add]

/-- A budget that suffices makes no difference. -/
lemma Polls.of_budget_le (h : Polls stops before f k) (hn : k ≤ n) :
    f (.decisions n 0) = under (f .never) (.decisions n k) := by
  rw [h.passes _ (Limit.passes_decisions.mpr hn), Limit.after_decisions, Nat.zero_add]

/-- A budget that does not suffice is used up, and then asked once. -/
lemma Polls.of_budget_lt (h : Polls stops before f k) (hn : n < k) :
    stops (f (.decisions n 0)) ∧ limit (f (.decisions n 0)) = .decisions n (n + 1) := by
  have hfires := h.fires _ n hn (Limit.firesAt_decisions n)
  rwa [Limit.after_decisions, Nat.zero_add] at hfires

/-- No more is decided than the budget allows. -/
lemma Polls.decided_le_budget (h : Polls stops before f k) (n : Nat) (kind : Decision) :
    decided (f (.decisions n 0)) kind ≤ before kind + n := by
  rcases Nat.lt_or_ge n k with hn | hn
  · exact h.decides_fired _ n hn (Limit.firesAt_decisions n) kind
  · rw [h.of_budget_le hn, Limited.decided_under]
    exact Nat.le_trans (h.decides kind) (Nat.add_le_add_left hn _)

end Composition

end BinaryCsp
