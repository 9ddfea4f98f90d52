import BinaryCsp.MapColouring
import BinaryCsp.Proofs.Acceptance
import BinaryCsp.Proofs.Solutions

/-!
# The problem of a map is to colour it

`MapColouring.problem` enters each border in the neighbor lists of both its regions and leaves it to
the building of problems what to make of them.  So borders may come again, in either orientation,
and a border that has a region twice or names a region that is not on the map is found out there
(`MapColouring.wellFormed_iff`).

`MapColouring.IsColouring` says what a colouring is, in terms of regions, borders and colours alone:
a colour of the list for every region, and two different ones at each border.  Those are the
assignments that pass the goal test (`MapColouring.problem_exact`).
-/

namespace BinaryCsp.MapColouring

variable {R : Type} [DecidableEq R]

/-! ## Maps and colourings -/

/-- The regions are different, and each border joins two of them. -/
def IsMap (regions : List R) (borders : List (R × R)) : Prop :=
  regions.Nodup ∧ ∀ b ∈ borders, b.1 ∈ regions ∧ b.2 ∈ regions ∧ b.1 ≠ b.2

/-- Some border joins two regions, whichever of them it names first. -/
def Adjacent (borders : List (R × R)) (v w : R) : Prop := (v, w) ∈ borders ∨ (w, v) ∈ borders

/-- Every region has a colour of the list, and the two sides of a border have different ones. -/
structure IsColouring (regions : List R) (borders : List (R × R)) (colours : List Colour)
    (a : Assignment R Colour) : Prop where
  covers : ∀ r, r ∈ a ↔ r ∈ regions
  listed : ∀ r c, a.get? r = some c → c ∈ colours
  differ : ∀ b ∈ borders, a.get? b.1 ≠ a.get? b.2

/-! ## Borders as neighbor lists -/

section Links

variable {regions : List R} {borders : List (R × R)} {colours : List Colour}

omit [DecidableEq R] in
lemma map_fst_domains : (regions.map fun r => (r, colours)).map Prod.fst = regions := by
  simp [Function.comp_def]

omit [DecidableEq R] in
lemma mem_links {e : R × List R} :
    e ∈ links borders ↔ ∃ b ∈ borders, e = (b.1, [b.2]) ∨ e = (b.2, [b.1]) := by
  simp [links]

/-- **Each border is entered on both sides.** -/
theorem mem_mentioned_links {v w : R} :
    w ∈ Problem.mentioned (links borders) v ↔ Adjacent borders v w := by
  simp only [Problem.mentioned, List.mem_flatMap, List.mem_filter, decide_eq_true_eq]
  constructor
  · rintro ⟨e, ⟨he, rfl⟩, hw⟩
    obtain ⟨b, hb, rfl | rfl⟩ := mem_links.mp he
    · obtain rfl := List.mem_singleton.mp hw
      exact Or.inl hb
    · obtain rfl := List.mem_singleton.mp hw
      exact Or.inr hb
  · rintro (h | h)
    · exact ⟨(v, [w]), ⟨mem_links.mpr ⟨_, h, Or.inl rfl⟩, rfl⟩, List.mem_singleton_self w⟩
    · exact ⟨(v, [w]), ⟨mem_links.mpr ⟨_, h, Or.inr rfl⟩, rfl⟩, List.mem_singleton_self w⟩

/-- **The declaration of a map is well-formed** exactly if it is one. -/
theorem wellFormed_iff :
    Problem.WellFormed regions (regions.map fun r => (r, colours)) (links borders) ↔
      IsMap regions borders := by
  constructor
  · intro h
    refine ⟨h.nodup, fun b hb => ?_⟩
    have hfirst : (b.1, [b.2]) ∈ links borders := mem_links.mpr ⟨b, hb, Or.inl rfl⟩
    obtain ⟨hmem, hne⟩ := h.others _ hfirst b.2 (List.mem_singleton_self _)
    exact ⟨h.owners _ hfirst, hmem, hne.symm⟩
  · rintro ⟨hnodup, hborders⟩
    refine ⟨hnodup, fun v => by simp, fun e he => ?_, fun e he w hw => ?_, fun v w hw => ?_⟩
    · obtain ⟨b, hb, rfl | rfl⟩ := mem_links.mp he
      · exact (hborders b hb).1
      · exact (hborders b hb).2.1
    · obtain ⟨b, hb, rfl | rfl⟩ := mem_links.mp he
      all_goals obtain rfl := List.mem_singleton.mp hw
      · exact ⟨(hborders b hb).2.1, (hborders b hb).2.2.symm⟩
      · exact ⟨(hborders b hb).1, (hborders b hb).2.2⟩
    · exact mem_mentioned_links.mpr (mem_mentioned_links.mp hw).symm

end Links

/-! ## The problem -/

section Problems

variable [LE R] [DecidableLE R] {regions : List R} {borders : List (R × R)}
  {colours : List Colour}

lemma declared_regions :
    Problem.declared regions (PartialMap.ofList (regions.map fun r => (r, colours))) = regions := by
  have h := Problem.declared_fst (regions.map fun r => (r, colours))
  rwa [map_fst_domains] at h

/-- **Maps are accepted**, and nothing else. -/
theorem exists_problem_iff :
    (∃ P, problem regions borders colours = .ok P) ↔ IsMap regions borders := by
  have h : (∃ P, problem regions borders colours = .ok P) ↔ Problem.WellFormed _ _ _ :=
    Problem.exists_build_iff
  rw [declared_regions, wellFormed_iff] at h
  exact h

/-- What an accepted map comes to. -/
lemma of_problem {P : Problem R Colour} (h : problem regions borders colours = .ok P) :
    P.vars = regions ∧ (∀ v ∈ regions, P.domain v = colours) ∧
      (∀ v w, w ∈ P.neighbors v ↔ Adjacent borders v w) ∧
      ∀ v x w y, P.check v x w y = true ↔ x ≠ y := by
  obtain ⟨hvars, hbaseline, hconstraint, -, hneighbors⟩ := Problem.of_build h
  rw [declared_regions] at hvars
  refine ⟨hvars, fun v hv => ?_, fun v w => ?_, fun v x w y => ?_⟩
  · have hnodup : ((regions.map fun r => (r, colours)).map Prod.fst).Nodup := by
      rw [map_fst_domains]
      exact hvars ▸ P.vars_nodup
    have hget : P.baseline.get? v = some colours := by
      rw [hbaseline, PartialMap.get?_ofList hnodup]
      exact List.mem_map.mpr ⟨v, hv, rfl⟩
    rw [Problem.domain, PartialMap.listAt, hget, Option.getD_some]
  · rw [hneighbors, ← Problem.mem_mentioned, mem_mentioned_links]
  · rw [Problem.check, hconstraint]
    simp [Constraint.notEqual]

/-- **Solutions are colourings.** -/
theorem isSolution_iff {P : Problem R Colour} (h : problem regions borders colours = .ok P)
    {a : Assignment R Colour} :
    P.IsSolution P.domain a ↔ IsColouring regions borders colours a := by
  obtain ⟨hvars, hdomain, hneighbors, hcheck⟩ := of_problem h
  constructor
  · rintro ⟨hdeclared, hchosen, hchecked⟩
    have hcovers : ∀ r, r ∈ a ↔ r ∈ regions := fun r => hvars ▸ hdeclared r
    refine ⟨hcovers, fun r c hc => ?_, fun b hb heq => ?_⟩
    · rw [← hdomain r ((hcovers r).mp (PartialMap.mem_iff_exists.mpr ⟨c, hc⟩))]
      exact hchosen r c hc
    · have hn : b.2 ∈ P.neighbors b.1 := (hneighbors _ _).mpr (Or.inl hb)
      have hmem : b.1 ∈ a := (hdeclared _).mpr (P.neighbors_declared _ _ (P.neighbors_symm _ _ hn))
      obtain ⟨c, hc⟩ := PartialMap.mem_iff_exists.mp hmem
      exact (hcheck _ _ _ _).mp (hchecked b.1 b.2 hn c c hc (heq ▸ hc)) rfl
  · rintro ⟨hcovers, hlisted, hdiffer⟩
    refine ⟨fun v => hvars ▸ hcovers v, fun v x hx => ?_, fun v w hw x y hx hy => ?_⟩
    · rw [hdomain v ((hcovers v).mp (PartialMap.mem_iff_exists.mpr ⟨x, hx⟩))]
      exact hlisted v x hx
    · refine (hcheck _ _ _ _).mpr ?_
      rintro rfl
      rcases (hneighbors v w).mp hw with hb | hb
      · exact hdiffer _ hb (hx.trans hy.symm)
      · exact hdiffer _ hb (hy.trans hx.symm)

/-- **The problem of a map is to colour it.**  Regions and borders make a problem exactly if the
regions are different and each border joins two of them.  Then two regions are neighbors exactly if
some border joins them, and the assignments that pass the goal test with values from the domains are
exactly the colourings. -/
theorem problem_exact {R : Type} [DecidableEq R] [LE R] [DecidableLE R] (regions : List R)
    (borders : List (R × R)) (colours : List Colour) :
    ((∃ P, problem regions borders colours = .ok P) ↔ IsMap regions borders) ∧
      ∀ P, problem regions borders colours = .ok P →
        P.vars = regions ∧ (∀ v w, w ∈ P.neighbors v ↔ Adjacent borders v w) ∧
        ∀ a : Assignment R Colour, P.goalTest a = true ∧ a.Within P.domain ↔
          IsColouring regions borders colours a := by
  refine ⟨exists_problem_iff, fun P hP => ?_⟩
  obtain ⟨hvars, -, hneighbors, -⟩ := of_problem hP
  exact ⟨hvars, hneighbors, fun a => Problem.goalTest_and_within_iff.trans (isSolution_iff hP)⟩

/-- The map of Australia is accepted, Tasmania has no neighbors, and three colours are enough. -/
theorem problem_exact_australia :
    ∃ P, australia = .ok P ∧ (∀ w, w ∉ P.neighbors "T") ∧
      ∃ a : Assignment String Colour, P.goalTest a = true ∧ a.Within P.domain := by
  let regions := ["WA", "NT", "SA", "Q", "NSW", "V", "T"]
  let borders := [("WA", "NT"), ("WA", "SA"), ("NT", "SA"), ("NT", "Q"), ("SA", "Q"), ("SA", "NSW"),
    ("SA", "V"), ("Q", "NSW"), ("NSW", "V")]
  let colouring := [("WA", Colour.red), ("NT", .green), ("SA", .blue), ("Q", .red),
    ("NSW", .green), ("V", .red), ("T", .red)]
  obtain ⟨haccepted, hexact⟩ := problem_exact regions borders Colour.rgb
  obtain ⟨P, hP⟩ := haccepted.mpr ⟨by decide, by decide⟩
  obtain ⟨-, hneighbors, hcolourings⟩ := hexact P hP
  refine ⟨P, hP, fun w hw => ?_, .ofList colouring,
    (hcolourings _).mpr ⟨fun r => ?_, ?_, by decide⟩⟩
  · have halone : ∀ b ∈ borders, b.1 ≠ "T" ∧ b.2 ≠ "T" := by decide
    rcases (hneighbors "T" w).mp hw with hb | hb
    · exact (halone _ hb).1 rfl
    · exact (halone _ hb).2 rfl
  · rw [PartialMap.mem_def, PartialMap.keys_ofList (by decide)]
    exact Iff.rfl
  · intro r c hc
    have hlisted : ∀ e ∈ colouring, e.2 ∈ Colour.rgb := by decide
    exact hlisted _ ((PartialMap.get?_ofList (by decide)).mp hc)

end Problems

end BinaryCsp.MapColouring
