import BinaryCsp.Proofs.Propagation.Singletons
import Mathlib.Data.List.Nodup
import Mathlib.Data.List.ProdSigma

/-!
# Testing two domains against each other

What `Support.Partition.of` learns from testing the values of one domain against those of another,
and which pairs of values it evaluates on the way.

* **Which pairs.**  `Partition.ofM` is the test with every evaluation left to a monad: it has no
  predicate to look at and can only ask.  `Partition.noted` lets a predicate answer and notes each
  pair.  It comes to the same partition (`Partition.noted_spec`), and `Partition.Asks` says of the
  noted pairs that they are as many as were counted, that none comes up more often than it can be
  formed, and that the answers for them decide the outcome.
* **Positions.**  A domain may hold a value twice.  The test goes by the answers alone, so to test
  values is to test their positions (`Partition.of_eq_map_noted`), and no position comes twice.
  `Partition.Exact` says what is then known of each position, and `Partition.exact_noted` that the
  test finds it out.
* **What becomes of the domains.**  A value that has given support is not among those that settling
  the reverse arc may remove, and if some value has support, some value has given it.  So a visit
  leaves values in every domain that had some (`Pass.tested_visitAc3b`), whether or not its arc
  joins neighbors, and so does a whole pass, whatever it answers (`Pass.ac3b_empties_no_domain`).
-/

namespace BinaryCsp

namespace Support

variable {α β γ δ : Type}

/-! ## Probing -/

lemma probe_cons (p : β → Bool) (y : β) (ys : List β) :
    probe p (y :: ys) = if p y then ⟨1, some (y, ys)⟩
      else ⟨(probe p ys).tested + 1, (probe p ys).hit.map fun e => (e.1, y :: e.2)⟩ := by
  rw [probe, probe, List.findIdx_cons]
  cases p y with
  | true => simp
  | false => cases h : ys[ys.findIdx p]? <;> simp [h]

lemma probe_map (p : δ → Bool) (g : β → δ) (ys : List β) :
    probe p (ys.map g) = ⟨(probe (fun y => p (g y)) ys).tested,
      (probe (fun y => p (g y)) ys).hit.map fun e => (g e.1, e.2.map g)⟩ := by
  induction ys with
  | nil => rfl
  | cons y ys ih =>
    rw [List.map_cons, probe_cons, probe_cons, ih]
    cases p (g y) <;> simp [Function.comp_def]

/-- The items that a probe looks at. -/
def probed (p : β → Bool) (ys : List β) : List β := ys.take (probe p ys).tested

lemma probed_cons (p : β → Bool) (y : β) (ys : List β) :
    probed p (y :: ys) = y :: if p y then [] else probed p ys := by
  rw [probed, probe_cons]
  cases p y <;> simp [probed]

lemma length_probed (p : β → Bool) (ys : List β) :
    (probed p ys).length = (probe p ys).tested := by
  rw [probed, List.length_take, Nat.min_eq_left (tested_probe_le p ys)]

lemma probed_sublist (p : β → Bool) (ys : List β) : (probed p ys).Sublist ys :=
  List.take_sublist ..

/-- The answers for the items that a probe looks at decide what it finds. -/
lemma probe_congr {p q : β → Bool} {ys : List β} (h : ∀ y ∈ probed p ys, q y = p y) :
    probe q ys = probe p ys := by
  induction ys with
  | nil => rfl
  | cons y ys ih =>
    rw [probed_cons] at h
    have hfirst : q y = p y := h y List.mem_cons_self
    rw [probe_cons, probe_cons, hfirst]
    cases hy : p y with
    | true => rfl
    | false =>
      have hlater : probe q ys = probe p ys := ih fun z hz => h z (by simp [hy, hz])
      rw [hlater]

/-! ## Asking -/

section Asking

variable {m : Type → Type} [Monad m]

/-- Tests the items of a list in order, each by a question, up to the first one that passes. -/
def probeM (ask : β → m Bool) : List β → m (Probe β)
  | [] => return ⟨0, none⟩
  | y :: ys => do
    if ← ask y then
      return ⟨1, some (y, ys)⟩
    else
      let later ← probeM ask ys
      return ⟨later.tested + 1, later.hit.map fun e => (e.1, y :: e.2)⟩

/-- Tests one more value, each pair by a question. -/
def Partition.stepM (ask : α → β → m Bool) (p : Partition α β) (x : α) : m (Partition α β) := do
  let double ← probeM (ask x) p.unproven
  match double.hit with
  | some (y, rest) =>
    return { p with
      supported := p.supported.push x
      unproven := rest
      proven := p.proven ++ [y]
      checks := p.checks + double.tested }
  | none =>
    let single ← probeM (ask x) p.proven
    match single.hit with
    | some _ =>
      return { p with
        supported := p.supported.push x
        checks := p.checks + double.tested + single.tested }
    | none =>
      return { p with
        unsupported := p.unsupported.push x
        checks := p.checks + double.tested + single.tested }

/-- Tests the values of one side, in order, against those of the other, each pair by a question. -/
def Partition.ofM (ask : α → β → m Bool) (xs : List α) (ys : List β) : m (Partition α β) :=
  xs.foldlM (stepM ask) (start ys)

end Asking

/-- Answers by a predicate, and notes the pair that was asked about. -/
def noting (check : α → β → Bool) (x : α) (y : β) : StateM (List (α × β)) Bool := do
  modify (· ++ [(x, y)])
  return check x y

/-- The test with all its questions noted: the partition, and the pairs in the order in which they
were asked about. -/
def Partition.noted (check : α → β → Bool) (xs : List α) (ys : List β) :
    Partition α β × List (α × β) :=
  ((ofM (noting check) xs ys).run []).run

/-- A probe asks about the items that it looks at. -/
lemma run_probeM_noting (check : α → β → Bool) (x : α) (ys : List β) (log : List (α × β)) :
    (probeM (noting check x) ys).run log = pure (probe (check x) ys,
      log ++ (probed (check x) ys).map (Prod.mk x)) := by
  induction ys generalizing log with
  | nil => simp [probeM, probe, probed]
  | cons y ys ih =>
    rw [probe_cons, probed_cons]
    cases h : check x y <;> simp [probeM, noting, h, ih]

namespace Partition

section Noted

variable {check : α → β → Bool} {done xs : List α} {ys : List β} {p : Partition α β}

/-- The pairs that testing the values `xs` asks about, from a partition on. -/
structure Asks (check : α → β → Bool) (xs : List α) (ys : List β) (p : Partition α β)
    (asked : List (α × β)) : Prop where
  run : ∀ log, (xs.foldlM (stepM (noting check)) p).run log
    = pure (xs.foldl (Partition.step check) p, log ++ asked)
  /-- No pair comes up more often than it can be formed. -/
  subperm : asked.Subperm (xs ×ˢ ys)
  checks : (xs.foldl (Partition.step check) p).checks = p.checks + asked.length
  /-- The answers for these pairs decide the outcome. -/
  congr : ∀ check' : α → β → Bool, (∀ e ∈ asked, check' e.1 e.2 = check e.1 e.2) →
    xs.foldl (Partition.step check') p = xs.foldl (Partition.step check) p

/-- One more value is asked about together with values of the other side: the unproven ones up to a
hit, and without a hit the proven ones as well. -/
lemma Knows.exists_asks_singleton (h : p.Knows check done ys) (x : α) :
    ∃ asked, Asks check [x] ys p asked := by
  have hpairs : ∀ l : List β, l.Subperm ys → (l.map (Prod.mk x)).Subperm ([x] ×ˢ ys) := by
    intro l hl
    simpa using hl.map fun _ _ heq => (Prod.mk.inj heq).2
  have hdouble := probed_sublist (check x) p.unproven
  have hsingle := probed_sublist (check x) p.proven
  -- only a hit among the unproven values spares the proven ones
  rcases hd : (probe (check x) p.unproven).hit with - | ⟨y, rest⟩
  · refine ⟨(probed (check x) p.unproven ++ probed (check x) p.proven).map (Prod.mk x), ?_⟩
    exact {
      run := fun log => by
        cases hs : (probe (check x) p.proven).hit <;>
          simp [stepM, Partition.step, run_probeM_noting, hd, hs]
      subperm := by
        have hall := (List.perm_append_comm.trans h.perm).subperm
        exact hpairs _ ((hdouble.append hsingle).subperm.trans hall)
      checks := by
        rw [List.length_map, List.length_append, length_probed, length_probed, ← Nat.add_assoc]
        cases hs : (probe (check x) p.proven).hit <;> simp [Partition.step, hd, hs]
      congr := fun check' hagree => by
        have hfirst : probe (check' x) p.unproven = probe (check x) p.unproven := probe_congr
          fun y hy => hagree (x, y) (List.mem_map_of_mem (List.mem_append_left _ hy))
        have hlater : probe (check' x) p.proven = probe (check x) p.proven := probe_congr
          fun y hy => hagree (x, y) (List.mem_map_of_mem (List.mem_append_right _ hy))
        simp only [List.foldl_cons, List.foldl_nil, Partition.step, hfirst, hlater] }
  · refine ⟨(probed (check x) p.unproven).map (Prod.mk x), ?_⟩
    exact {
      run := fun log => by simp [stepM, Partition.step, run_probeM_noting, hd]
      subperm := hpairs _ (hdouble.trans h.sublist).subperm
      checks := by
        rw [List.length_map, length_probed]
        simp [Partition.step, hd]
      congr := fun check' hagree => by
        have hfirst : probe (check' x) p.unproven = probe (check x) p.unproven := probe_congr
          fun y hy => hagree (x, y) (List.mem_map_of_mem hy)
        simp only [List.foldl_cons, List.foldl_nil, Partition.step, hfirst, hd] }

/-- What is asked about first, and what is asked about from there on. -/
lemma Asks.cons {x : α} {first later : List (α × β)} (h : Asks check [x] ys p first)
    (h' : Asks check xs ys (p.step check x) later) :
    Asks check (x :: xs) ys p (first ++ later) where
  run log := by
    have hfirst : (p.stepM (noting check) x).run log = pure (p.step check x, log ++ first) := by
      simpa using h.run log
    rw [List.foldlM_cons, StateT.run_bind, hfirst, pure_bind]
    simpa using h'.run (log ++ first)
  subperm := by
    have hboth := h.subperm.append h'.subperm
    simpa [List.product_cons] using hboth
  checks := by
    have hfirst : (p.step check x).checks = p.checks + first.length := h.checks
    rw [List.foldl_cons, h'.checks, hfirst, List.length_append, Nat.add_assoc]
  congr check' hagree := by
    have hfirst : p.step check' x = p.step check x :=
      h.congr check' fun e he => hagree e (List.mem_append_left _ he)
    rw [List.foldl_cons, List.foldl_cons, hfirst]
    exact h'.congr check' fun e he => hagree e (List.mem_append_right _ he)

/-- Whatever values a partition knows of, testing more of them asks about pairs. -/
lemma Knows.exists_asks (h : p.Knows check done ys) (xs : List α) :
    ∃ asked, Asks check xs ys p asked := by
  induction xs generalizing done p with
  | nil => exact ⟨[], by simp, by simp, by simp, by simp⟩
  | cons x xs ih =>
    obtain ⟨first, hfirst⟩ := h.exists_asks_singleton x
    obtain ⟨later, hlater⟩ := ih (h.step x)
    exact ⟨first ++ later, hfirst.cons hlater⟩

/-- **Noting the questions changes nothing**, and the noted pairs are those that the test asks
about. -/
theorem noted_spec (check : α → β → Bool) (xs : List α) (ys : List β) :
    (noted check xs ys).1 = of check xs ys ∧
      Asks check xs ys (start ys) (noted check xs ys).2 := by
  obtain ⟨asked, h⟩ := (knows_start check ys).exists_asks xs
  have hnoted : noted check xs ys = (of check xs ys, asked) := by
    rw [noted, ofM, h.run]
    rfl
  rw [hnoted]
  exact ⟨rfl, h⟩

end Noted

/-! ## Positions -/

/-- The same partition with other values in place of its own. -/
def map (f : α → γ) (g : β → δ) (p : Partition α β) : Partition γ δ where
  supported := p.supported.map f
  unsupported := p.unsupported.map f
  unproven := p.unproven.map g
  proven := p.proven.map g
  checks := p.checks

section Map

variable (check : γ → δ → Bool) (f : α → γ) (g : β → δ)

lemma step_map (p : Partition α β) (x : α) :
    (p.map f g).step check (f x) = (p.step (fun x y => check (f x) (g y)) x).map f g := by
  rw [Partition.step, Partition.step]
  simp only [map, probe_map]
  cases (probe (fun y => check (f x) (g y)) p.unproven).hit with
  | some e => simp
  | none => cases (probe (fun y => check (f x) (g y)) p.proven).hit <;> simp

/-- The test goes by the answers of the predicate alone. -/
theorem of_map (xs : List α) (ys : List β) :
    of check (xs.map f) (ys.map g) = (of (fun x y => check (f x) (g y)) xs ys).map f g := by
  have run : ∀ p : Partition α β, xs.foldl (fun q x => q.step check (f x)) (p.map f g)
      = (xs.foldl (Partition.step fun x y => check (f x) (g y)) p).map f g := by
    induction xs with
    | nil => exact fun _ => rfl
    | cons x xs ih =>
      intro p
      rw [List.foldl_cons, List.foldl_cons, step_map, ih]
  have hstart : start (ys.map g) = (start ys : Partition α β).map f g := by simp [start, map]
  rw [of, of, List.foldl_map, hstart, run]

end Map

/-- **To test values is to test their positions.** -/
theorem of_eq_map_noted (check : α → β → Bool) (xs : List α) (ys : List β) :
    of check xs ys = (noted (fun i j => check (xs.get i) (ys.get j)) (List.finRange xs.length)
      (List.finRange ys.length)).1.map xs.get ys.get := by
  rw [(noted_spec _ _ _).1, ← of_map, List.map_get_finRange, List.map_get_finRange]

/-- What is known of the positions of two sides, and of the pairs that were asked about, once each
position of this side has been tested against those of the other. -/
structure Exact {m n : Nat} (check : Fin m → Fin n → Bool) (known : Partition (Fin m) (Fin n))
    (asked : List (Fin m × Fin n)) : Prop where
  /-- The supported positions are those with support. -/
  mem_supported : ∀ i, i ∈ known.supported ↔ ∃ j, check i j = true
  mem_unsupported : ∀ i, i ∈ known.unsupported ↔ i ∉ known.supported
  /-- Each proven position supports a supported one. -/
  of_mem_proven : ∀ j ∈ known.proven, ∃ i ∈ known.supported, check i j = true
  mem_unproven : ∀ j, j ∈ known.unproven ↔ j ∉ known.proven
  /-- Some position is proven if some is supported. -/
  exists_proven : ∀ i ∈ known.supported, ∃ j, j ∈ known.proven
  /-- No pair was asked about twice. -/
  asked_nodup : asked.Nodup
  /-- The answers for the pairs that were asked about decide the outcome. -/
  asked_suffices : ∀ check' : Fin m → Fin n → Bool,
    (∀ e ∈ asked, check' e.1 e.2 = check e.1 e.2) →
      of check' (List.finRange m) (List.finRange n) = known
  checks_eq : known.checks = asked.length
  checks_le : known.checks ≤ m * n

/-- What a test of all positions knows and asks about is exact. -/
lemma Exact.of_asks {m n : Nat} {check : Fin m → Fin n → Bool} {known : Partition (Fin m) (Fin n)}
    {asked : List (Fin m × Fin n)} (hof : known = of check (List.finRange m) (List.finRange n))
    (hasks : Asks check (List.finRange m) (List.finRange n) (start (List.finRange n)) asked) :
    known.Exact check asked := by
  have h : known.Knows check (List.finRange m) (List.finRange n) := hof ▸ knows_of ..
  have hsupported : ∀ i, i ∈ known.supported ↔ ∃ j, check i j = true := by
    intro i
    rw [← Array.mem_toList_iff, h.supported]
    simp
  have hsides : (known.proven ++ known.unproven).Nodup :=
    h.perm.nodup_iff.mpr (List.nodup_finRange n)
  have hcount : known.checks = asked.length := by
    rw [hof, of, hasks.checks]
    exact Nat.zero_add _
  exact {
    mem_supported := hsupported
    mem_unsupported := fun i => by
      rw [hsupported, ← Array.mem_toList_iff, h.unsupported]
      simp
    of_mem_proven := fun j hj => by simpa using h.proven j hj
    mem_unproven := fun j => by
      have hmem := List.mem_append.mp (h.perm.mem_iff.mpr (List.mem_finRange j))
      exact ⟨fun hj hproven => List.disjoint_of_nodup_append hsides hproven hj, hmem.resolve_left⟩
    exists_proven := fun i hi => by
      refine List.exists_mem_of_ne_nil _ (h.proven_ne_nil fun hnil => ?_)
      rw [← Array.mem_toList_iff, hnil] at hi
      exact List.not_mem_nil hi
    asked_nodup := by
      have hpairs := (List.nodup_finRange m).product (List.nodup_finRange n)
      obtain ⟨l, hperm, hsublist⟩ := hasks.subperm
      exact hperm.nodup_iff.mp (hpairs.sublist hsublist)
    asked_suffices := fun check' hagree => by
      rw [hof]
      exact hasks.congr check' hagree
    checks_eq := hcount
    checks_le :=
      calc known.checks = asked.length := hcount
        _ ≤ (List.finRange m ×ˢ List.finRange n).length := hasks.subperm.length_le
        _ = m * n := by rw [List.length_product, List.length_finRange, List.length_finRange] }

/-- **The test is exact.** -/
theorem exact_noted {m n : Nat} (check : Fin m → Fin n → Bool) :
    (noted check (List.finRange m) (List.finRange n)).1.Exact check
      (noted check (List.finRange m) (List.finRange n)).2 := by
  obtain ⟨hof, hasks⟩ := noted_spec check (List.finRange m) (List.finRange n)
  exact .of_asks hof hasks

end Partition

end Support

open Support

variable {V T : Type} [DecidableEq V] {P : Problem V T}

/-! ## Visits -/

namespace Pass

variable {order : ArcOrder V T} {a b v : V} {p : Pass V T}

lemma checks_requeue (v except : V) (p : Pass V T) :
    (p.requeue P order v except).checks = p.checks := by
  rw [requeue]
  generalize (P.neighbors v).filter _ = ws
  induction ws generalizing p with
  | nil => rfl
  | cons w ws ih =>
    rw [List.foldl_cons, ih]
    rfl

lemma checks_shrink (v except : V) (left gone : List T) (p : Pass V T) :
    (p.shrink P order v except left gone).checks = p.checks := by
  rw [shrink]
  split
  · exact checks_requeue v except _
  · rfl

variable [DecidableEq T]

/-- Settling the reverse arc empties no domain, if it finds the one it settles as it was tested. -/
lemma listAt_settleReverse_ne_nil {check : T → T → Bool} {xs ys : List T} {known : Partition T T}
    (hknown : known.Knows check xs ys) (hsome : known.supported.toList ≠ [])
    (htested : (b, a) ∈ p.queue → p.domains.listAt b = ys) (hv : p.domains.listAt v ≠ []) :
    (p.settleReverse P order a b known).domains.listAt v ≠ [] := by
  by_cases hqueued : (b, a) ∈ p.queue
  · rw [← htested hqueued] at hknown
    rcases settleReverse_cases hknown hsome with hsame | ⟨t, left, gone, hD, -, hsub, hleft, heq⟩
    · rw [hsame]
      exact hv
    · rw [heq]
      exact listAt_shrink_ne_nil (hD ▸ hsub) (fun _ => hleft) (hD ▸ hv)
  · rw [settleReverse, if_neg hqueued]
    exact hv

/-- What a visit of the arc `(a, b)` comes to once it knows a partition of both domains. -/
inductive Tested (P : Problem V T) (order : ArcOrder V T) (a b : V) (known : Partition T T)
    (p : Pass V T) : Visit V T → Prop
  /-- No value of `a` has support, and nothing is removed. -/
  | contradiction (unsupported : known.supported = #[]) :
      Tested P order a b known p (.ends (.ok .inconsistent) (p.countChecks known.checks))
  /-- The values of `a` without support go, and then the reverse arc is settled: no domain that had
  values is left without. -/
  | goesOn (r : Pass V T) (supported : known.supported ≠ #[])
      (checks : r.checks = p.checks + known.checks)
      (listAt : ∀ v, r.domains.listAt v
        = if a = v then known.supported.toList else p.domains.listAt v)
      (left : ∀ v, p.domains.listAt v ≠ [] →
        (r.settleReverse P order a b known).domains.listAt v ≠ []) :
      Tested P order a b known p (.goesOn (r.settleReverse P order a b known))

lemma Tested.listAt_ne_nil {known : Partition T T} {visit : Visit V T}
    (h : p.Tested P order a b known visit) (hv : p.domains.listAt v ≠ []) :
    visit.pass.domains.listAt v ≠ [] := by
  cases h with
  | contradiction => exact hv
  | goesOn r _ _ _ left => exact left v hv

/-- **A visit between declared variables goes by the partition of their domains**, provided that its
arc has been taken off the queue. -/
theorem tested_visitAc3b (ha : a ∈ P.vars) (hb : b ∈ P.vars) (hfresh : (a, b) ∉ p.queue) :
    p.Tested P order a b (Partition.of (fun x y => P.check a x b y) (p.domains.listAt a)
      (p.domains.listAt b)) (p.visitAc3b P order a b) := by
  have hknown := Partition.knows_of (fun x y => P.check a x b y) (p.domains.listAt a)
    (p.domains.listAt b)
  rw [visitAc3b, if_pos ha, if_pos hb]
  generalize Partition.of (fun x y => P.check a x b y) (p.domains.listAt a) (p.domains.listAt b)
    = known at hknown ⊢
  dsimp only
  split
  · rename_i hnone
    exact .contradiction (Array.isEmpty_iff.mp hnone)
  · rename_i hnone
    have hsome : known.supported ≠ #[] := fun hnil => hnone (Array.isEmpty_iff.mpr hnil)
    have hsome' : known.supported.toList ≠ [] := fun hnil => hsome (Array.toList_eq_nil_iff.mp hnil)
    have hsub : known.supported.toList.Sublist (p.domains.listAt a) := by
      rw [hknown.supported]
      exact List.filter_sublist
    obtain ⟨r, hr⟩ : ∃ r, (p.countChecks known.checks).shrink P order a b known.supported.toList
      known.unsupported.toList = r := ⟨_, rfl⟩
    have hlist : ∀ v, r.domains.listAt v
        = if a = v then known.supported.toList else p.domains.listAt v := by
      rw [← hr]
      exact listAt_shrink (p := p.countChecks known.checks) P order hsub
    -- an arc from a variable to itself is its own reverse, and it is not queued
    have htested : (b, a) ∈ r.queue → r.domains.listAt b = p.domains.listAt b := by
      rw [hlist, ← hr, mem_shrink]
      intro hqueued
      refine if_neg ?_
      rintro rfl
      exact hqueued.elim (fun h => h.2.2.2 rfl) hfresh
    rw [hr]
    refine .goesOn r hsome (by rw [← hr, checks_shrink]; rfl) hlist fun v hv => ?_
    refine listAt_settleReverse_ne_nil hknown hsome' htested ?_
    rw [hlist]
    split
    · exact hsome'
    · exact hv

/-! ## Passes -/

variable {how : Propagator V T}

/-- A step of `ac3b` leaves values in every domain that had some. -/
lemma listAt_ne_nil_of_step_ac3b (hm : how.method = .ac3b) (hv : p.domains.listAt v ≠ []) :
    (p.step P how).pass.domains.listAt v ≠ [] := by
  rcases step_cases P how p with ⟨clock, hstep, -⟩ | ⟨⟨a, b⟩, rest, clock, -, hrest, hstep⟩
  · rw [hstep]
    exact hv
  · rw [hstep]
    split
    · exact hv
    · rw [visit, hm]
      dsimp only
      have hfresh : (a, b) ∉ (p.taken rest clock).queue := fun h => ((hrest _).mp h).1 rfl
      by_cases ha : a ∈ P.vars
      · by_cases hb : b ∈ P.vars
        · exact (tested_visitAc3b ha hb hfresh).listAt_ne_nil hv
        · rw [visitAc3b, if_pos ha, if_neg hb]
          exact hv
      · rw [visitAc3b, if_neg ha]
        exact hv

/-- **`ac3b` empties no domain**, whatever arcs it visits and whatever it answers. -/
theorem ac3b_empties_no_domain (hm : how.method = .ac3b) (hv : p.domains.listAt v ≠ []) :
    (p.run P how).2.domains.listAt v ≠ [] :=
  run_preserves (I := fun p => p.domains.listAt v ≠ [])
    (fun _ hv => listAt_ne_nil_of_step_ac3b hm hv) hv

end Pass

/-! ## The propagator -/

namespace Propagator

variable [DecidableEq T]

open Support.Partition in
/-- **`ac3b` tests the domains of an arc exactly.**  Take any current domains and any two declared
variables, and test the positions of one domain against those of the other, with all questions
noted.  The supported positions then are those that have support; each proven position supports a
supported one, and there is one if any position is supported; no pair is asked about twice, nothing
but the answers for these pairs decides the outcome, and the counter says how many they are, which
is at most the product of the lengths.  What a visit of the arc works with is this partition, with
values for positions: it counts those questions, ends if nothing is supported, and otherwise cuts
the first domain down to the supported values and goes on to the reverse arc, which empties no
domain.  Hence no pass empties a domain, whatever arcs are given. -/
theorem ac3b_tests_exactly (order : ArcOrder V T) (P : Problem V T) :
    let how : Propagator V T := ⟨.ac3b, order⟩
    (∀ D : Domains V T, ∀ a ∈ P.vars, ∀ b ∈ P.vars,
      let xs := D.listAt a
      let ys := D.listAt b
      let check := fun i j => P.check a (xs.get i) b (ys.get j)
      let test := noted check (List.finRange xs.length) (List.finRange ys.length)
      test.1.Exact check test.2 ∧ of (P.check a · b) xs ys = test.1.map xs.get ys.get ∧
        ∀ p q : Pass V T, p.domains = D → p.next? how = (some (a, b), q) →
          q.Tested P order a b (test.1.map xs.get ys.get) (q.visit P how (a, b))) ∧
      ∀ s arcs trail limit v, s.choices P v ≠ [] →
        (how.propagate P s arcs trail limit).state.choices P v ≠ [] := by
  intro how
  refine ⟨fun D a ha b hb => ?_, fun s arcs trail limit v hv => ?_⟩
  · have hof := of_eq_map_noted (P.check a · b) (D.listAt a) (D.listAt b)
    refine ⟨exact_noted _, hof, ?_⟩
    rintro p q rfl hnext
    rcases Pass.next?_cases how p with ⟨clock, hnone, -⟩ | ⟨arc, rest, clock, hsome, -, hrest⟩
    · cases hnone.symm.trans hnext
    · cases hsome.symm.trans hnext
      rw [← hof]
      have hfresh : (a, b) ∉ rest := fun h => ((hrest _).mp h).1 rfl
      exact Pass.tested_visitAc3b (p := { p with queue := rest, clock := clock }) ha hb hfresh
  · refine Pass.ac3b_empties_no_domain rfl ?_
    rw [(Pass.start_frame how _ _ limit).1]
    exact hv

open Support.Partition in
/-- Two numbers in ascending order, both arcs queued.  The numbers 1 and 2 of the first find support
in the numbers 2 and 3 of the second, one each, and of the nine pairs seven are asked about. -/
theorem ac3b_tests_exactly_ascending :
    let xs := [1, 2, 3]
    let P := Problem.ascending xs xs
    let how : Propagator Bool Nat := ⟨.ac3b, .insertion⟩
    let p := Pass.start how P.baseline [(false, true), (true, false)] .never
    let q := (p.next? how).2
    let check := fun i j : Fin 3 => P.check false (xs.get i) true (xs.get j)
    let test := noted check (List.finRange 3) (List.finRange 3)
    (test.1.supported = #[0, 1] ∧ test.1.proven = [1, 2] ∧
        test.2 = [(0, 0), (0, 1), (1, 0), (1, 2), (2, 0), (2, 1), (2, 2)]) ∧
      (false ∈ P.vars ∧ true ∈ P.vars ∧ p.next? how = (some (false, true), q) ∧
        (true, false) ∈ q.queue ∧ State.initial.choices P true ≠ []) ∧
      test.1.Exact check test.2 ∧
      q.Tested P .insertion false true (test.1.map xs.get xs.get) (q.visit P how (false, true)) ∧
      (how.propagate P .initial none none .never).state.choices P true ≠ [] := by
  intro xs P how p q check test
  have hnext : p.next? how = (some (false, true), q) :=
    Prod.ext (show (p.next? how).1 = some (false, true) by decide +kernel) rfl
  have hqueued : (true, false) ∈ q.queue := by decide +kernel
  have hsome : State.initial.choices P true ≠ [] := by decide
  obtain ⟨htest, hleft⟩ := ac3b_tests_exactly .insertion P
  obtain ⟨hexact, -, hvisit⟩ := htest P.baseline false (by decide) true (by decide)
  exact ⟨⟨by decide, by decide, by decide⟩, ⟨by decide, by decide, hnext, hqueued, hsome⟩, hexact,
    hvisit p q rfl hnext, hleft .initial none none .never true hsome⟩

end Propagator

end BinaryCsp
