import BinaryCsp.Propagation.Support
import Mathlib.Data.List.Perm.Subperm
import Mathlib.Tactic.Common

/-!
# What the search for support finds

Three groups of facts about `BinaryCsp.Support`, none of which speaks of variables.

**Nothing is lost.**  What sifting removes comes in the order of the list
(`removed_sift_sublist`).  Taking values out of a domain again, by `eraseAll`, `strike` or
`Partition.without`, leaves the rest of them (`without_perm`), and it is always as if the values
went one by one (`eraseAll_filter`, `without_eq_eraseAll`).

**Sifting is exact.**  Against targets that do not change, the values kept are those with support
(`kept_sift`, `removed_sift`).

**Partitioning is exact on the tested side.**  `Partition.Knows` says what a partition knows once
some values have been tested: which of them have support, and that every value of the other side
counted as proven gave support to one of them.  `Partition.knows_of` says that it knows that of all
values at the end.
-/

namespace BinaryCsp.Support

variable {α β : Type}

/-! ## One value -/

/-- A hit passes the test, and the rest is the list without it. -/
lemma of_hit_probe {p : α → Bool} {l rest : List α} {y : α}
    (h : (probe p l).hit = some (y, rest)) : p y = true ∧ l.Perm (y :: rest) ∧ rest.Sublist l := by
  rw [probe] at h
  cases hl : l[l.findIdx p]? with
  | none => simp [hl] at h
  | some z =>
    obtain ⟨hlt, rfl⟩ := List.getElem?_eq_some_iff.mp hl
    simp only [hl, Option.some.injEq, Prod.mk.injEq] at h
    obtain ⟨rfl, rfl⟩ := h
    refine ⟨List.findIdx_getElem (w := hlt), ?_, List.eraseIdx_sublist ..⟩
    exact (List.getElem_cons_eraseIdx_perm hlt).symm

/-- A probe finds nothing exactly if no item passes. -/
lemma hit_probe_isSome (p : α → Bool) (l : List α) : (probe p l).hit.isSome = l.any p := by
  rw [Bool.eq_iff_iff, ← Decidable.not_iff_not, Bool.not_eq_true, Option.isSome_eq_false_iff,
    Option.isNone_iff_eq_none, hit_probe_eq_none_iff]
  simp

/-! ## Sifting -/

section Sift

variable {check : α → β → Bool} {targets : Array α → List β}

/-- One more value is kept if it has support among the targets of the moment, and removed if it
has none. -/
lemma kept_step (s : Sifted α) (x : α) :
    (s.step check targets x).kept.toList
      = s.kept.toList ++ if (targets s.removed).any (check x) then [x] else [] := by
  rw [← hit_probe_isSome, Sifted.step]
  cases (probe (check x) (targets s.removed)).hit <;> simp

lemma removed_step (s : Sifted α) (x : α) :
    (s.step check targets x).removed.toList
      = s.removed.toList ++ if (targets s.removed).any (check x) then [] else [x] := by
  rw [← hit_probe_isSome, Sifted.step]
  cases (probe (check x) (targets s.removed)).hit <;> simp

/-- Further values are removed in their order. -/
lemma removed_foldl_step (check : α → β → Bool) (targets : Array α → List β) (xs : List α)
    (s : Sifted α) :
    ∃ gone, (xs.foldl (Sifted.step check targets) s).removed.toList = s.removed.toList ++ gone ∧
      gone.Sublist xs := by
  induction xs generalizing s with
  | nil => exact ⟨[], (List.append_nil _).symm, List.nil_sublist _⟩
  | cons x xs ih =>
    obtain ⟨gone, hgone, hsub⟩ := ih (s.step check targets x)
    rw [removed_step] at hgone
    split at hgone
    · rw [List.append_nil] at hgone
      exact ⟨gone, hgone, hsub.cons x⟩
    · rw [List.append_assoc] at hgone
      exact ⟨x :: gone, hgone, hsub.cons_cons x⟩

lemma removed_sift_sublist (check : α → β → Bool) (targets : Array α → List β) (xs : List α) :
    (sift check targets xs).removed.toList.Sublist xs := by
  obtain ⟨gone, hgone, hsub⟩ := removed_foldl_step check targets xs .start
  rw [sift, hgone]
  exact hsub

variable (check) (ys : List β)

lemma foldl_step_const (xs : List α) (s : Sifted α) :
    (xs.foldl (Sifted.step check fun _ => ys) s).kept.toList
        = s.kept.toList ++ xs.filter (fun x => ys.any (check x)) ∧
      (xs.foldl (Sifted.step check fun _ => ys) s).removed.toList
        = s.removed.toList ++ xs.filter (fun x => !ys.any (check x)) := by
  induction xs generalizing s with
  | nil => simp
  | cons x xs ih =>
    obtain ⟨hk, hr⟩ := ih (s.step check (fun _ => ys) x)
    rw [List.foldl_cons, hk, hr, kept_step, removed_step]
    by_cases h : ys.any (check x) = true <;> simp only [h, List.filter_cons] <;> simp

/-- **Sifting is exact** against targets that stay: the values with support are kept. -/
theorem kept_sift (xs : List α) :
    (sift check (fun _ => ys) xs).kept.toList = xs.filter fun x => ys.any (check x) := by
  simpa [Sifted.start, sift] using (foldl_step_const check ys xs .start).1

theorem removed_sift (xs : List α) :
    (sift check (fun _ => ys) xs).removed.toList = xs.filter fun x => !ys.any (check x) := by
  simpa [Sifted.start, sift] using (foldl_step_const check ys xs .start).2

end Sift

/-! ## Testing both sides -/

namespace Partition

/-- What a partition knows once the values `xs` have been tested against `ys`. -/
structure Knows (check : α → β → Bool) (xs : List α) (ys : List β) (p : Partition α β) : Prop where
  supported : p.supported.toList = xs.filter fun x => ys.any (check x)
  unsupported : p.unsupported.toList = xs.filter fun x => !ys.any (check x)
  perm : (p.proven ++ p.unproven).Perm ys
  sublist : p.unproven.Sublist ys
  /-- Every proven value has given support to a supported one. -/
  proven : ∀ y ∈ p.proven, ∃ x ∈ p.supported.toList, check x y = true
  /-- Support was given by somebody. -/
  proven_ne_nil : p.supported.toList ≠ [] → p.proven ≠ []

variable {check : α → β → Bool} {xs : List α} {ys : List β} {p : Partition α β}

lemma knows_start (check : α → β → Bool) (ys : List β) : Knows check [] ys (start ys) where
  supported := rfl
  unsupported := rfl
  perm := by simp [start]
  sublist := by simp [start]
  proven := by simp [start]
  proven_ne_nil := by simp [start]

/-- A value has support if it finds some among the unproven values or among the proven ones. -/
lemma Knows.any_eq (h : Knows check xs ys p) (x : α) :
    ys.any (check x) = (p.unproven.any (check x) || p.proven.any (check x)) := by
  rw [← h.perm.any_eq, List.any_append, Bool.or_comm]

/-- Double support: the hit moves from the unproven values to the proven ones. -/
lemma step_of_double {x : α} {y : β} {rest : List β}
    (h : (probe (check x) p.unproven).hit = some (y, rest)) :
    p.step check x = { p with
      supported := p.supported.push x
      unproven := rest
      proven := p.proven ++ [y]
      checks := p.checks + (probe (check x) p.unproven).tested } := by
  simp only [Partition.step, h]

/-- Single support: the hit is proven already, so the other side does not change. -/
lemma step_of_single {x : α} {hit : β × List β} (hd : (probe (check x) p.unproven).hit = none)
    (hs : (probe (check x) p.proven).hit = some hit) :
    p.step check x = { p with
      supported := p.supported.push x
      checks := p.checks + (probe (check x) p.unproven).tested
        + (probe (check x) p.proven).tested } := by
  simp only [Partition.step, hd, hs]

lemma step_of_none {x : α} (hd : (probe (check x) p.unproven).hit = none)
    (hs : (probe (check x) p.proven).hit = none) :
    p.step check x = { p with
      unsupported := p.unsupported.push x
      checks := p.checks + (probe (check x) p.unproven).tested
        + (probe (check x) p.proven).tested } := by
  simp only [Partition.step, hd, hs]

/-- **One more value**: the partition then knows of it as well. -/
lemma Knows.step (h : Knows check xs ys p) (x : α) :
    Knows check (xs ++ [x]) ys (p.step check x) := by
  have hd := hit_probe_isSome (check x) p.unproven
  have hs := hit_probe_isSome (check x) p.proven
  have hany := h.any_eq x
  rw [← hd, ← hs] at hany
  rcases hdouble : (probe (check x) p.unproven).hit with - | ⟨y, rest⟩
  · rcases hsingle : (probe (check x) p.proven).hit with - | ⟨z, rest⟩
    · rw [hdouble, hsingle, Option.isSome_none, Bool.or_self] at hany
      rw [step_of_none hdouble hsingle]
      refine ⟨?_, ?_, h.perm, h.sublist, h.proven, h.proven_ne_nil⟩
      · rw [List.filter_append, List.filter_singleton, hany, h.supported]
        simp
      · rw [List.filter_append, List.filter_singleton, hany, ← h.unsupported]
        simp
    · rw [hdouble, hsingle, Option.isSome_none, Option.isSome_some, Bool.false_or] at hany
      rw [step_of_single hdouble hsingle]
      refine ⟨?_, ?_, h.perm, h.sublist, fun y hy => ?_, fun _ hn => ?_⟩
      · rw [List.filter_append, List.filter_singleton, hany, ← h.supported]
        simp
      · rw [List.filter_append, List.filter_singleton, hany, h.unsupported]
        simp
      · obtain ⟨w, hw, hc⟩ := h.proven y hy
        exact ⟨w, by simp [hw], hc⟩
      · have := (of_hit_probe hsingle).2.1.length_eq
        simp [show p.proven = [] from hn] at this
  · obtain ⟨hc, hperm, hsub⟩ := of_hit_probe hdouble
    rw [hdouble, Option.isSome_some, Bool.true_or] at hany
    rw [step_of_double hdouble]
    refine ⟨?_, ?_, ?_, hsub.trans h.sublist, fun z hz => ?_, by simp⟩
    · rw [List.filter_append, List.filter_singleton, hany, ← h.supported]
      simp
    · rw [List.filter_append, List.filter_singleton, hany, h.unsupported]
      simp
    · rw [List.append_assoc]
      exact (hperm.symm.append_left p.proven).trans h.perm
    · rcases List.mem_append.mp hz with hz | hz
      · obtain ⟨w, hw, hcw⟩ := h.proven z hz
        exact ⟨w, by simp [hw], hcw⟩
      · obtain rfl := List.mem_singleton.mp hz
        exact ⟨x, by simp, hc⟩

/-- **A partition knows of all values** once all have been tested. -/
theorem knows_of (check : α → β → Bool) (xs : List α) (ys : List β) :
    Knows check xs ys (of check xs ys) := by
  have run : ∀ (rest done : List α) (p : Partition α β), Knows check done ys p →
      Knows check (done ++ rest) ys (rest.foldl (Partition.step check) p) := by
    intro rest
    induction rest with
    | nil => intro done p h; simpa using h
    | cons x rest ih =>
      intro done p h
      simpa using ih (done ++ [x]) _ (h.step x)
  exact run xs [] _ (knows_start check ys)

end Partition

/-! ## Removing values -/

section Removing

variable [DecidableEq α]

lemma eraseAll_eq_diff (l gone : List α) : eraseAll l gone = l.diff gone :=
  (List.diff_eq_foldl l gone).symm

lemma eraseAll_sublist (l gone : List α) : (eraseAll l gone).Sublist l := by
  rw [eraseAll_eq_diff]
  exact List.diff_sublist l gone

lemma eraseAll_perm {l gone : List α} (h : gone.Subperm l) :
    (eraseAll l gone ++ gone).Perm l := by
  rw [eraseAll_eq_diff]
  refine List.perm_append_comm.trans (List.subperm_append_diff_self_of_count_le ?_)
  exact List.subperm_ext_iff.mp h

/-- Erasing the values that fail a test leaves those that pass it. -/
lemma eraseAll_filter (q : α → Bool) (l : List α) :
    eraseAll l (l.filter fun x => !q x) = l.filter q := by
  rw [eraseAll_eq_diff]
  induction l with
  | nil => rfl
  | cons x l ih =>
    by_cases hx : q x = true
    · have hstays : x ∉ l.filter fun x => !q x := by simp [hx]
      simp only [List.filter_cons, hx, Bool.not_true, Bool.false_eq_true, if_false, if_true]
      rw [List.cons_diff_of_not_mem hstays, ih]
    · simp only [List.filter_cons, hx, Bool.not_false, if_true]
      rw [List.diff_cons, List.erase_cons_head, ih]
      rfl

/-- The array in front of what `strike` still looks at never changes. -/
lemma foldl_strikeStep (l gone : List α) (seen : Array α) :
    (l.foldl strikeStep (seen, gone)).1.toList = seen.toList ++ strike l gone := by
  have key : ∀ (l gone : List α) (seen : Array α), (l.foldl strikeStep (seen, gone)).1.toList
      = seen.toList ++ (l.foldl strikeStep (#[], gone)).1.toList := by
    intro l
    induction l with
    | nil => intro gone seen; simp
    | cons x l ih =>
      intro gone seen
      cases gone with
      | nil =>
        simp only [List.foldl_cons, strikeStep]
        rw [ih [] (seen.push x), ih [] (#[].push x)]
        simp
      | cons y ys =>
        simp only [List.foldl_cons, strikeStep]
        split
        · exact ih ys seen
        · rw [ih _ (seen.push x), ih _ (#[].push x)]
          simp
  exact key l gone seen

lemma strike_nil (gone : List α) : strike [] gone = [] := rfl

lemma strike_cons_nil (x : α) (l : List α) : strike (x :: l) [] = x :: strike l [] := by
  change (l.foldl strikeStep (#[x], [])).1.toList = _
  rw [foldl_strikeStep]
  rfl

lemma strike_cons_cons (x y : α) (l ys : List α) :
    strike (x :: l) (y :: ys) = if x = y then strike l ys else x :: strike l (y :: ys) := by
  change (l.foldl strikeStep (if x = y then (#[], ys) else (#[x], y :: ys))).1.toList = _
  split <;> rw [foldl_strikeStep] <;> rfl

lemma strike_sublist (l gone : List α) : (strike l gone).Sublist l := by
  induction l generalizing gone with
  | nil => exact .refl _
  | cons x l ih =>
    cases gone with
    | nil => rw [strike_cons_nil]; exact (ih []).cons_cons x
    | cons y ys =>
      rw [strike_cons_cons]
      split
      · exact (ih ys).cons x
      · exact (ih _).cons_cons x

lemma strike_perm {l gone : List α} (h : gone.Sublist l) : (strike l gone ++ gone).Perm l := by
  induction l generalizing gone with
  | nil => simp [List.sublist_nil.mp h, strike_nil]
  | cons x l ih =>
    cases gone with
    | nil => rw [strike_cons_nil]; exact (ih (List.nil_sublist l)).cons x
    | cons y ys =>
      rw [strike_cons_cons]
      split
      · rename_i hxy
        subst hxy
        exact List.perm_middle.trans ((ih h.of_cons_cons).cons x)
      · rename_i hxy
        rcases List.sublist_cons_iff.mp h with h | ⟨r, hr, -⟩
        · exact (ih h).cons x
        · exact absurd (List.cons.inj hr).1.symm hxy

/-- Striking out the values that fail a test leaves those that pass it. -/
lemma strike_filter (q : α → Bool) (l : List α) :
    strike l (l.filter fun x => !q x) = l.filter q := by
  induction l with
  | nil => rfl
  | cons x l ih =>
    by_cases hx : q x = true
    · simp only [List.filter_cons, hx, Bool.not_true, Bool.false_eq_true, if_false, if_true]
      rw [← ih]
      rcases hg : l.filter fun x => !q x with - | ⟨y, ys⟩
      · rw [strike_cons_nil]
      · have hy : y ∈ l.filter fun x => !q x := by simp [hg]
        have hxy : x ≠ y := by
          rintro rfl
          simp [hx] at hy
        rw [strike_cons_cons, if_neg hxy]
    · simp only [List.filter_cons, hx, Bool.not_false, if_true]
      rw [strike_cons_cons, if_pos rfl]
      exact ih

variable {β' : Type} (known : Partition β' α)

lemma without_sublist (ys gone : List α) : (known.without ys gone).Sublist ys := by
  rw [Partition.without]
  split
  · exact eraseAll_sublist ys gone
  · exact strike_sublist ys gone

/-- Among values of which some have given support and the others have not, those of the others
that fail a test go one by one.  If none of them has given support in another place then no equal
value is left, and it does not matter that all go at once. -/
lemma without_eq_eraseAll {ys : List α} (hperm : (known.proven ++ known.unproven).Perm ys)
    (hsub : known.unproven.Sublist ys) (q : α → Bool) :
    known.without ys (known.unproven.filter fun y => !q y)
      = eraseAll ys (known.unproven.filter fun y => !q y) := by
  rw [Partition.without]
  split
  · rfl
  · rename_i hno
    set gone := known.unproven.filter fun y => !q y with hgone
    have hproven : ∀ y ∈ known.proven, y ∉ gone := by
      intro y hy hmem
      exact hno (List.any_eq_true.mpr ⟨y, hmem, decide_eq_true hy⟩)
    -- what goes is all of `ys` that has a value of it
    have hall : gone = ys.filter fun y => decide (y ∈ gone) := by
      have hunproven : (known.unproven.filter fun y => decide (y ∈ gone)) = gone := by
        refine List.filter_congr fun y hy => ?_
        rw [hgone, Bool.eq_iff_iff, decide_eq_true_iff, List.mem_filter]
        exact and_iff_right hy
      have hnone : (known.proven.filter fun y => decide (y ∈ gone)) = [] :=
        List.filter_eq_nil_iff.mpr fun y hy => by simpa using hproven y hy
      have hlen := (hperm.filter fun y => decide (y ∈ gone)).length_eq
      rw [List.filter_append, hnone, hunproven, List.nil_append] at hlen
      refine List.Sublist.eq_of_length ?_ hlen
      have hkeep := hsub.filter fun y => decide (y ∈ gone)
      rwa [hunproven] at hkeep
    have hstrike := strike_filter (fun y => !decide (y ∈ gone)) ys
    have herase := eraseAll_filter (fun y => !decide (y ∈ gone)) ys
    simp only [Bool.not_not, ← hall] at hstrike herase
    rw [hstrike, herase]

/-- **What goes and what is left make up the whole.** -/
theorem without_perm {ys gone : List α} (h : gone.Sublist ys) :
    (known.without ys gone ++ gone).Perm ys := by
  rw [Partition.without]
  split
  · exact eraseAll_perm h.subperm
  · exact strike_perm h

end Removing

end BinaryCsp.Support
