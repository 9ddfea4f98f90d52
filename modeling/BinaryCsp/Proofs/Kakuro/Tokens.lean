import BinaryCsp.Kakuro.Reading
import Mathlib.Data.List.TakeWhile
import Mathlib.Tactic.Common

/-!
# What a square may look like

The words that stand for a square, as a grammar without a word of how they are read: a star, a bar,
or two sides around a backslash, each blank or a numeral, and not both blank.  The backslash is the
first of the word.  A numeral is a row of digits, perhaps after a plus sign, that writes a number of
32 bits; leading zeros are allowed.

`readSquare` reads exactly these words, each as the square that it stands for
(`readSquare_eq_ok_iff`).
-/

namespace BinaryCsp.Kakuro

/-! ## The grammar -/

/-- A numeral of 32 bits and its number. -/
def IsNumeral (cs : List Char) (n : Nat) : Prop :=
  ∃ ds : List Char, ds ≠ [] ∧ (∀ c ∈ ds, c.isDigit = true) ∧ (cs = ds ∨ cs = '+' :: ds) ∧
    Nat.ofDigitChars 10 ds 0 = n ∧ n < UInt32.size

/-- One side of a clue and the sum that it gives. -/
inductive IsSide : List Char → Option Nat → Prop where
  | blank : IsSide [] none
  | numeral {cs : List Char} {n : Nat} (h : IsNumeral cs n) : IsSide cs (some n)

/-- A word and the square that it stands for. -/
inductive IsToken : List Char → Square → Prop where
  | blocked : IsToken ['*'] .blocked
  | empty : IsToken ['_'] .empty
  | clue {down right : List Char} {n m : Option Nat} (hdown : IsSide down n)
      (hright : IsSide right m) (first : '\\' ∉ down) (some : n ≠ none ∨ m ≠ none) :
      IsToken (down ++ '\\' :: right) (.clue n m)

/-! ## Sides -/

lemma IsNumeral.ne_nil {cs : List Char} {n : Nat} (h : IsNumeral cs n) : cs ≠ [] := by
  obtain ⟨ds, hne, -, rfl | rfl, -⟩ := h
  · exact hne
  · exact List.cons_ne_nil _ _

lemma le_largestSum_iff {n : Nat} : n ≤ largestSum ↔ n < UInt32.size :=
  Nat.le_sub_one_iff_lt (by decide)

lemma digitsValue_eq (ds : List Char) : Text.digitsValue ds = Nat.ofDigitChars 10 ds 0 :=
  Nat.ofDigitChars_eq_foldl.symm

/-- The digits of a numeral do not start with its sign. -/
lemma head?_ne_plus {ds : List Char} (h : ∀ c ∈ ds, c.isDigit = true) : ds.head? ≠ some '+' :=
  fun hplus => absurd (h _ (List.mem_of_head? hplus)) (by decide)

lemma numeral?_eq_some_iff {cs : List Char} {n : Nat} :
    Text.numeral? cs = some n ↔ ∃ ds : List Char, ds ≠ [] ∧ (∀ c ∈ ds, c.isDigit = true) ∧
      (cs = ds ∨ cs = '+' :: ds) ∧ Nat.ofDigitChars 10 ds 0 = n := by
  constructor
  · intro h
    obtain ⟨ds, hds⟩ : ∃ ds, ds = if cs.head? = some '+' then cs.drop 1 else cs := ⟨_, rfl⟩
    rw [Text.numeral?, ← hds, Option.ite_none_right_eq_some, List.all_eq_true, digitsValue_eq,
      Option.some.injEq] at h
    obtain ⟨⟨hne, hdigits⟩, hn⟩ := h
    refine ⟨ds, hne, hdigits, ?_, hn⟩
    split at hds
    · rename_i hplus
      obtain ⟨es, rfl⟩ := List.head?_eq_some_iff.mp hplus
      exact Or.inr (congrArg _ hds.symm)
    · exact Or.inl hds.symm
  · rintro ⟨ds, hne, hdigits, rfl | rfl, rfl⟩
    · rw [Text.numeral?, if_neg (head?_ne_plus hdigits), if_pos ⟨hne, List.all_eq_true.mpr hdigits⟩,
        digitsValue_eq]
    · rw [Text.numeral?, if_pos (List.head?_cons), List.drop_one, List.tail_cons,
        if_pos ⟨hne, List.all_eq_true.mpr hdigits⟩, digitsValue_eq]

/-- **A side is read** if it is one. -/
theorem readSide_eq_some_iff {cs : List Char} {side : Option Nat} :
    readSide cs = some side ↔ IsSide cs side := by
  rw [readSide]
  split
  · rename_i hnil
    rw [hnil, Option.some.injEq]
    constructor
    · rintro rfl
      exact .blank
    · rintro (_ | h)
      · rfl
      · exact absurd rfl h.ne_nil
  · rename_i hne
    constructor
    · intro h
      split at h
      · rename_i n hn
        rw [Option.ite_none_right_eq_some, le_largestSum_iff] at h
        obtain ⟨hlt, hside⟩ := h
        cases hside
        obtain ⟨ds, hds, hdigits, hcs, hvalue⟩ := numeral?_eq_some_iff.mp hn
        exact .numeral ⟨ds, hds, hdigits, hcs, hvalue, hlt⟩
      · cases h
    · rintro (_ | ⟨ds, hds, hdigits, hcs, hn, hlt⟩)
      · exact absurd rfl hne
      · rw [numeral?_eq_some_iff.mpr ⟨ds, hds, hdigits, hcs, hn⟩]
        exact if_pos (le_largestSum_iff.mpr hlt)

/-! ## Squares -/

/-- A word with a backslash consists of what stands in front of the first one and behind it. -/
lemma eq_append_of_mem {w : List Char} (h : '\\' ∈ w) :
    w = w.takeWhile (· != '\\') ++ '\\' :: (w.dropWhile (· != '\\')).drop 1 ∧
      '\\' ∉ w.takeWhile (· != '\\') := by
  constructor
  · have hrest : w.dropWhile (· != '\\') ≠ [] := by
      rw [ne_eq, List.dropWhile_eq_nil_iff]
      exact fun hall => absurd (hall _ h) (by decide)
    obtain ⟨c, cs, hcs⟩ := List.exists_cons_of_ne_nil hrest
    have hc := List.head?_dropWhile_not (· != '\\') w
    rw [hcs, List.head?_cons] at hc
    obtain rfl : c = '\\' := by simpa using hc
    conv_lhs => rw [← List.takeWhile_append_dropWhile (p := (· != '\\')) (l := w), hcs]
    rw [hcs]
    rfl
  · intro hmem
    exact absurd (List.mem_takeWhile_imp hmem) (by decide)

/-- Two sides around a backslash are read one by one. -/
lemma readSquare_append {down right : List Char} (h : '\\' ∉ down) :
    readSquare (down ++ '\\' :: right) = match readSide down, readSide right with
      | some none, some none => .error .emptyClue
      | some n, some m => .ok (.clue n m)
      | _, _ => .error (.badClue (String.ofList (down ++ '\\' :: right))) := by
  obtain ⟨w, hw⟩ : ∃ w, w = down ++ '\\' :: right := ⟨_, rfl⟩
  have hmem : '\\' ∈ w := hw ▸ List.mem_append_right _ List.mem_cons_self
  have hstar : w ≠ ['*'] := by
    rintro rfl
    exact absurd hmem (by decide)
  have hbar : w ≠ ['_'] := by
    rintro rfl
    exact absurd hmem (by decide)
  have hfront : ∀ c ∈ down, (c != '\\') = true := by
    intro c hc
    refine bne_iff_ne.mpr ?_
    rintro rfl
    exact h hc
  have hleft : w.takeWhile (· != '\\') = down := by
    rw [hw, List.takeWhile_append_of_pos hfront]
    exact List.append_nil _
  have hrest : (w.dropWhile (· != '\\')).drop 1 = right := by
    rw [hw, List.dropWhile_append_of_pos hfront]
    rfl
  rewrite [← hw, readSquare, if_neg hstar, if_neg hbar, if_pos hmem, hleft, hrest]
  rfl

/-- **The words that are read** are those of the grammar. -/
theorem readSquare_eq_ok_iff {w : List Char} {s : Square} :
    readSquare w = .ok s ↔ IsToken w s := by
  constructor
  · intro h
    by_cases hmem : '\\' ∈ w
    · obtain ⟨hsplit, hfirst⟩ := eq_append_of_mem hmem
      rw [hsplit] at h ⊢
      rw [readSquare_append hfirst] at h
      split at h
      · cases h
      · rename_i n m hsome hdown hright
        cases h
        refine .clue (readSide_eq_some_iff.mp hdown) (readSide_eq_some_iff.mp hright) hfirst ?_
        by_contra hnone
        simp only [not_or, not_not] at hnone
        exact hsome hnone.1 hnone.2
      · cases h
    · rw [readSquare] at h
      split at h
      · rename_i hw
        cases h
        exact hw ▸ .blocked
      · split at h
        · rename_i hw
          cases h
          exact hw ▸ .empty
        · cases h
  · rintro (_ | _ | @⟨down, right, n, m, hdown, hright, hfirst, hsome⟩)
    · rfl
    · rfl
    · rw [readSquare_append hfirst, readSide_eq_some_iff.mpr hdown, readSide_eq_some_iff.mpr hright]
      cases n with
      | some n => rfl
      | none =>
        cases m with
        | some m => rfl
        | none => simp at hsome

end BinaryCsp.Kakuro
