import BinaryCsp.Proofs.Search.BuiltIn
import BinaryCsp.Proofs.Solutions

/-!
# What a search keeps in order

Two facts about a stack of frames are carried through a search.  Both read the stack downwards and
put the trail of each frame back on the way, so that at each frame they speak of the values that
stood in the domains when that frame was entered.

* `Stack.Level`: all trails together lead back to the domains at the start, and the values a frame
  has not tried yet stand in the domain of its variable.
* `Stack.Awaits`: a given solution can still be found from some frame, since the assignment below it
  agrees with the solution, no value of the solution is ruled out there, and the solution's value
  for its variable has not been tried.

Restoring a trail turns the fact about a frame into the fact about the frame below by definition;
trying a value only needs that the facts do not depend on the order of the domains
(`Stack.Level.perm`, `Stack.Awaits.mono`).
-/

namespace BinaryCsp

variable {V T σ : Type} [DecidableEq V] {P : Problem V T}

/-! ## Assignments on the way to a solution -/

/-- What one assignment says the other says, too. -/
def Assignment.Agrees (a τ : Assignment V T) : Prop :=
  ∀ v x, a.get? v = some x → τ.get? v = some x

lemma Assignment.Agrees.insert {a τ : Assignment V T} (h : a.Agrees τ) {v : V} {x : T}
    (hx : τ.get? v = some x) : Assignment.Agrees (a.insert v x) τ := by
  intro w y hy
  rw [PartialMap.get?_insert] at hy
  split at hy
  · rename_i hw
    rw [← hw, ← Option.some.inj hy]
    exact hx
  · exact h w y hy

/-- A value that goes with its neighbors in both orders may be added. -/
lemma Problem.Consistent.insert_of_both {a : Assignment V T} (h : P.Consistent a) {v : V} {x : T}
    (hfrom : ∀ w ∈ P.neighbors v, ∀ y, a.get? w = some y → P.check v x w y = true)
    (hto : ∀ w ∈ P.neighbors v, ∀ y, a.get? w = some y → P.check w y v x = true) :
    P.Consistent (a.insert v x) := by
  intro u w hw y z hy hz
  rw [PartialMap.get?_insert] at hy hz
  split at hy
  · rename_i hu
    subst hu
    obtain rfl := Option.some.inj hy
    rw [if_neg (P.ne_of_mem_neighbors hw)] at hz
    exact hfrom w hw z hz
  · split at hz
    · rename_i hv
      subst hv
      obtain rfl := Option.some.inj hz
      exact hto u (P.neighbors_symm u v hw) y hy
    · exact h u w hw y z hy hz

/-- A value without a conflict may be added, if the order of asking does not matter. -/
lemma Problem.Consistent.insert (hsym : P.Symmetric) {a : Assignment V T} (h : P.Consistent a)
    {v : V} {x : T} (hx : P.conflicts a v x = 0) : P.Consistent (a.insert v x) := by
  have hgoes := Problem.conflicts_eq_zero_iff.mp hx
  exact h.insert_of_both hgoes fun w hw y hy => (hsym v w hw x y).symm.trans (hgoes w hw y hy)

/-- What is consistent stays so when a value is taken out. -/
lemma Problem.Consistent.of_insert {a : Assignment V T} {v : V} {x : T} (hv : v ∉ a)
    (h : P.Consistent (a.insert v x)) : P.Consistent a := by
  have hkeep : ∀ u y, a.get? u = some y → (a.insert v x).get? u = some y := by
    intro u y hy
    rw [PartialMap.get?_insert, if_neg]
    · exact hy
    · rintro rfl
      rw [PartialMap.get?_eq_none_iff.mpr hv] at hy
      cases hy
  intro u w hw y z hy hz
  exact h u w hw y z (hkeep u y hy) (hkeep w z hz)

/-! ## Frames -/

/-- The lists with the values of a trail at their ends. -/
def Trail.onto (t : Trail V T) (avail : V → List T) (v : V) : List T :=
  avail v ++ Trail.valuesOf t v

namespace Stack

/-- Undoing the frames one by one leads from the lists back to those of the start; on the way the
untried values of each frame stand in the list of its variable.  Once there is a frame, current
domains have been made. -/
def Level (start : V → List T) (made : Prop) :
    {a : Assignment V T} → Stack P a → (V → List T) → Prop
  | _, .bottom, avail => ∀ v, (avail v).Perm (start v)
  | _, .push below v x trail untried, avail =>
    made ∧ (∀ e ∈ trail, e.1 ∈ P.vars) ∧ x ∈ Trail.onto trail avail v.val ∧
      untried ⊆ Trail.onto trail avail v.val ∧ below.Level start made (Trail.onto trail avail)

/-- A solution can still be found from an untried value of some frame. -/
def Awaits (τ : Assignment V T) : {a : Assignment V T} → Stack P a → (V → List T) → Prop
  | _, .bottom, _ => False
  | _, .push (a := a) below v _ trail untried, avail =>
    (a.Agrees τ ∧ τ.Within (Trail.onto trail avail) ∧ ∃ y ∈ untried, τ.get? v.val = some y) ∨
      below.Awaits τ (Trail.onto trail avail)

section Level

variable {start : V → List T} {made : Prop} {a : Assignment V T} {stack : Stack P a}
  {avail avail' : V → List T}

lemma Level.perm (h : stack.Level start made avail) (hperm : ∀ v, (avail v).Perm (avail' v)) :
    stack.Level start made avail' := by
  induction stack generalizing avail avail' with
  | bottom => exact fun v => (hperm v).symm.trans (h v)
  | push below v x trail untried ih =>
    obtain ⟨hmade, hdecl, hx, huntried, hbelow⟩ := h
    have honto : ∀ w, (Trail.onto trail avail w).Perm (Trail.onto trail avail' w) :=
      fun w => (hperm w).append_right _
    exact ⟨hmade, hdecl, (honto v.val).mem_iff.mp hx,
      fun y hy => (honto v.val).mem_iff.mp (huntried hy), ih hbelow honto⟩

/-- The lists of a level hold values of the start only. -/
lemma Level.subset (h : stack.Level start made avail) (v : V) : avail v ⊆ start v := by
  induction stack generalizing avail with
  | bottom => exact (h v).subset
  | push below u x trail untried ih =>
    obtain ⟨-, -, -, -, hbelow⟩ := h
    exact List.Subset.trans (List.subset_append_left _ _) (ih hbelow)

lemma Level.nodup (hstart : ∀ v, (start v).Nodup) (h : stack.Level start made avail) (v : V) :
    (avail v).Nodup := by
  induction stack generalizing avail with
  | bottom => exact (h v).nodup_iff.mpr (hstart v)
  | push below u x trail untried ih =>
    obtain ⟨-, -, -, -, hbelow⟩ := h
    exact (List.nodup_append.mp (ih hbelow)).1

lemma Level.imp {made' : Prop} (h : stack.Level start made avail) (hmade : made → made') :
    stack.Level start made' avail := by
  induction stack generalizing avail with
  | bottom => exact h
  | push below u x trail untried ih =>
    obtain ⟨hm, hdecl, hx, huntried, hbelow⟩ := h
    exact ⟨hmade hm, hdecl, hx, huntried, ih hbelow⟩

/-- The assignment of the frames has values of the start only, and only for declared variables. -/
lemma Level.assignment (h : stack.Level start made avail) :
    a.Within start ∧ ∀ v ∈ a, v ∈ P.vars := by
  induction stack generalizing avail with
  | bottom => exact ⟨nofun, fun v hv => absurd hv List.not_mem_nil⟩
  | push below u x trail untried ih =>
    obtain ⟨-, -, hx, -, hbelow⟩ := h
    obtain ⟨hwithin, hdecl⟩ := ih hbelow
    constructor
    · exact hwithin.insert (hbelow.subset _ hx)
    · intro v hv
      rcases PartialMap.mem_insert.mp hv with rfl | hv
      · exact u.property.1
      · exact hdecl v hv

lemma Awaits.mono {τ : Assignment V T} (h : stack.Awaits τ avail)
    (hsub : ∀ v, avail v ⊆ avail' v) : stack.Awaits τ avail' := by
  induction stack generalizing avail avail' with
  | bottom => exact h
  | push below v x trail untried ih =>
    have honto : ∀ w, Trail.onto trail avail w ⊆ Trail.onto trail avail' w := by
      intro w y hy
      rcases List.mem_append.mp hy with hy | hy
      · exact List.mem_append_left _ (hsub w hy)
      · exact List.mem_append_right _ hy
    rcases h with ⟨hagrees, hwithin, hy⟩ | h
    · exact Or.inl ⟨hagrees, hwithin.mono honto, hy⟩
    · exact Or.inr (ih h honto)

end Level

end Stack

/-! ## Points -/

namespace Point

/-- The frames of a point are in order, and so are the values of a choice. -/
def Level (start : V → List T) (made : Prop) (avail : V → List T) : Point P → Prop
  | .node stack => stack.Level start made avail
  | .choice below v untried => untried ⊆ avail v.val ∧ below.Level start made avail

/-- What has been lost above a choice can be put back, and leads to the same order. -/
lemma Level.onto {start : V → List T} {made made' : Prop} {a : Assignment V T}
    {below : Stack P a} {v : P.Open a}
    {untried : List T} {s s' : State V T} {t : Trail V T}
    (h : (choice below v untried).Level start made (s.choices P)) (hloses : s.Loses P s' t)
    (hmade : made → made') :
    untried ⊆ Trail.onto t (s'.choices P) v.val ∧
      below.Level start made' (Trail.onto t (s'.choices P)) := by
  obtain ⟨huntried, hlevel⟩ := h
  exact ⟨fun y hy => (hloses v.val).mem_iff.mpr (huntried hy),
    (hlevel.perm fun u => (hloses u).symm).imp hmade⟩

/-- A solution can still be found, at the point itself or from a frame. -/
def Awaits (τ : Assignment V T) (avail : V → List T) : Point P → Prop
  | .node (a := a) stack => (a.Agrees τ ∧ τ.Within avail) ∨ stack.Awaits τ avail
  | .choice (a := a) below v untried =>
    (a.Agrees τ ∧ τ.Within avail ∧ ∃ y ∈ untried, τ.get? v.val = some y) ∨ below.Awaits τ avail

lemma Awaits.mono {τ : Assignment V T} {avail avail' : V → List T} {a : Assignment V T}
    {below : Stack P a} {v : P.Open a} {untried : List T}
    (h : (choice below v untried).Awaits τ avail) (hsub : ∀ v, avail v ⊆ avail' v) :
    (choice below v untried).Awaits τ avail' :=
  h.imp (fun h => ⟨h.1, h.2.1.mono hsub, h.2.2⟩) fun h => Stack.Awaits.mono h hsub

/-- A solution awaited from a choice has the first value there, or it is awaited from the rest. -/
lemma Awaits.uncons {τ : Assignment V T} {avail : V → List T} {a : Assignment V T}
    {below : Stack P a} {v : P.Open a} {x : T} {xs : List T}
    (h : (choice below v (x :: xs)).Awaits τ avail) :
    (a.Agrees τ ∧ τ.Within avail ∧ τ.get? v.val = some x) ∨
      (choice below v xs).Awaits τ avail := by
  rcases h with ⟨hagrees, hwithin, y, hy, hτ⟩ | h
  · rcases List.mem_cons.mp hy with rfl | hy
    · exact Or.inl ⟨hagrees, hwithin, hτ⟩
    · exact Or.inr (Or.inl ⟨hagrees, hwithin, y, hy, hτ⟩)
  · exact Or.inr (Or.inr h)

/-- The assignment of the frames of a point. -/
def assignment : Point P → Assignment V T
  | .node (a := a) _ => a
  | .choice (a := a) _ _ _ => a

end Point

end BinaryCsp
