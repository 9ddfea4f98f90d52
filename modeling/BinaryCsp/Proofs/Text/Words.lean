import BinaryCsp.Text.Blank
import BinaryCsp.Text.Numeral
import Mathlib.Data.List.DropRight
import Mathlib.Tactic.Common

/-!
# Writing what is read

The cutting functions of `Text.Blank` and the numerals of `Text.Numeral`, seen from the side of
somebody who writes: which text is cut into the given lines and words, and which digits are read as
a given number.

* Lines that end in a line feed each are read back, followed by an empty line (`lines_flatMap`).
* Words with blanks between them are read back however many blanks stand in front of each
  (`words_intercalate_padded`).
* A text without the blanks at its ends starts as its first word does (`head?_trim`).
* The decimal digits of a number are read back (`numeral?_toDigits`).
-/

namespace BinaryCsp.Text

/-! ## Pieces -/

lemma pieces_eq_splitOnP (separates : Char → Bool) (cs : List Char) :
    pieces separates cs = cs.splitOnP separates := by
  induction cs with
  | nil => rfl
  | cons c cs ih =>
    rw [pieces, List.splitOnP_cons_eq_if_modifyHead, ih]
    split
    · rfl
    · obtain ⟨w, ws, h⟩ := List.exists_cons_of_ne_nil (List.splitOnP_ne_nil separates cs)
      rw [h]
      rfl

/-- Lines that are ended by a line feed each. -/
theorem lines_flatMap {ls : List (List Char)} (h : ∀ l ∈ ls, '\n' ∉ l) :
    lines (ls.flatMap (· ++ ['\n'])) = ls ++ [[]] := by
  rw [lines, pieces_eq_splitOnP]
  induction ls with
  | nil => rfl
  | cons l ls ih =>
    have hl : ∀ c ∈ l, (c == '\n') = false := by
      intro c hc
      refine beq_eq_false_iff_ne.mpr ?_
      rintro rfl
      exact h l List.mem_cons_self hc
    rw [List.flatMap_cons, List.append_assoc, List.singleton_append,
      List.splitOnP_append_cons_of_forall_mem hl '\n' rfl,
      ih fun l hl => h l (List.mem_cons_of_mem _ hl), List.cons_append]

/-! ## Words -/

/-- Something that is read as one word. -/
structure IsWord (w : List Char) : Prop where
  ne_nil : w ≠ []
  not_blank : ∀ c ∈ w, isBlank c = false

lemma words_cons {c : Char} (hc : isBlank c = true) (cs : List Char) :
    words (c :: cs) = words cs := by
  rw [words, pieces, if_pos hc, List.filter_cons_of_neg (by simp)]
  rfl

lemma words_replicate (n : Nat) (cs : List Char) :
    words (List.replicate n ' ' ++ cs) = words cs := by
  induction n with
  | zero => rfl
  | succ n ih => rw [List.replicate_succ, List.cons_append, words_cons rfl, ih]

namespace IsWord

variable {w : List Char} (hw : IsWord w)

include hw

lemma words_eq : words w = [w] := by
  rw [words, pieces_eq_splitOnP, List.splitOnP_eq_singleton hw.not_blank,
    List.filter_cons_of_pos (by simpa using hw.ne_nil), List.filter_nil]

lemma words_append_cons {c : Char} (hc : isBlank c = true) (cs : List Char) :
    words (w ++ c :: cs) = w :: words cs := by
  rw [words, pieces_eq_splitOnP, List.splitOnP_append_cons_of_forall_mem hw.not_blank c hc,
    List.filter_cons_of_pos (by simpa using hw.ne_nil), words, pieces_eq_splitOnP]

end IsWord

/-- **Words with blanks between them are read back**, whatever they are padded with. -/
theorem words_intercalate_padded {ws : List (List Char)} (h : ∀ w ∈ ws, IsWord w)
    (pad : List Char → Nat) :
    words ([' '].intercalate (ws.map fun w => List.replicate (pad w) ' ' ++ w)) = ws := by
  induction ws with
  | nil => rfl
  | cons w ws ih =>
    have hw := h w List.mem_cons_self
    have ih := ih fun v hv => h v (List.mem_cons_of_mem _ hv)
    cases ws with
    | nil =>
      rw [List.map_singleton, List.intercalate_singleton, words_replicate, hw.words_eq]
    | cons v vs =>
      rw [List.map_cons, List.intercalate_cons_of_ne_nil (by simp), List.append_assoc,
        List.append_assoc, words_replicate, List.singleton_append, hw.words_append_cons rfl, ih]

/-- The only blank in padded words with blanks between them is the one that is written. -/
lemma not_mem_intercalate_padded {ws : List (List Char)} (h : ∀ w ∈ ws, IsWord w)
    (pad : List Char → Nat) {c : Char} (hc : isBlank c = true) (hne : c ≠ ' ') :
    c ∉ [' '].intercalate (ws.map fun w => List.replicate (pad w) ' ' ++ w) := by
  have hpadded : ∀ w ∈ ws, c ∉ List.replicate (pad w) ' ' ++ w := by
    intro w hw hmem
    rcases List.mem_append.mp hmem with hmem | hmem
    · exact hne (List.eq_of_mem_replicate hmem)
    · cases ((h w hw).not_blank c hmem).symm.trans hc
  induction ws with
  | nil => exact List.not_mem_nil
  | cons w ws ih =>
    have ih := ih (fun v hv => h v (List.mem_cons_of_mem _ hv))
      fun v hv => hpadded v (List.mem_cons_of_mem _ hv)
    have hw := hpadded w List.mem_cons_self
    cases ws with
    | nil => rwa [List.map_singleton, List.intercalate_singleton]
    | cons v vs =>
      rw [List.map_cons, List.intercalate_cons_of_ne_nil (by simp), List.mem_append,
        List.mem_append, List.mem_singleton]
      rintro ((hmem | hblank) | hmem)
      · exact hw hmem
      · exact hne hblank
      · exact ih hmem

/-! ## Trimming -/

/-- A text without the blanks at its ends. -/
def trim (cs : List Char) : List Char := (cs.dropWhile isBlank).rdropWhile isBlank

lemma words_dropWhile (cs : List Char) : words (cs.dropWhile isBlank) = words cs := by
  induction cs with
  | nil => rfl
  | cons c cs ih =>
    rw [List.dropWhile_cons]
    split
    · rename_i hc
      rw [ih, words_cons hc]
    · rfl

/-- A text that does not start with a blank starts with its first word. -/
lemma exists_words_cons {c : Char} (hc : isBlank c = false) (cs : List Char) :
    ∃ w ws, words (c :: cs) = (c :: w) :: ws := by
  rw [words, pieces, hc]
  cases pieces isBlank cs with
  | nil => exact ⟨[], [], rfl⟩
  | cons w ws => exact ⟨w, _, rfl⟩

/-- **A trimmed text starts as its first word does.** -/
theorem head?_trim (cs : List Char) : (trim cs).head? = (words cs).head?.bind List.head? := by
  rw [trim, ← words_dropWhile]
  have hfirst := List.head?_dropWhile_not isBlank cs
  cases hcs : cs.dropWhile isBlank with
  | nil => rfl
  | cons c ds =>
    rw [hcs] at hfirst
    have hc : isBlank c = false := hfirst
    obtain ⟨w, ws, hwords⟩ := exists_words_cons hc ds
    have hne : (c :: ds).rdropWhile isBlank ≠ [] := by
      rw [ne_eq, List.rdropWhile_eq_nil_iff]
      intro hall
      cases hc.symm.trans (hall c List.mem_cons_self)
    obtain ⟨b, bs, hb⟩ := List.exists_cons_of_ne_nil hne
    obtain ⟨t, ht⟩ := List.rdropWhile_prefix isBlank (c :: ds)
    rw [hb, List.cons_append] at ht
    rw [hb, hwords, (List.cons.inj ht).1]
    rfl

/-! ## Numerals -/

lemma isBlank_of_isDigit {c : Char} (h : c.isDigit = true) : isBlank c = false := by
  have hlow : 48 ≤ c.toNat ∧ c.toNat ≤ 57 := by
    simpa [Char.isDigit, UInt32.le_iff_toNat_le] using h
  simp only [isBlank, Bool.or_eq_false_iff, Bool.and_eq_false_iff, decide_eq_false_iff_not,
    beq_eq_false_iff_ne]
  omega

lemma isDigit_of_mem_toDigits {n : Nat} {c : Char} (h : c ∈ Nat.toDigits 10 n) :
    c.isDigit = true :=
  Nat.isDigit_of_mem_toDigits (by decide) (by decide) h

lemma digitsValue_toDigits (n : Nat) : digitsValue (Nat.toDigits 10 n) = n := by
  rw [digitsValue]
  exact Nat.ofDigitChars_eq_foldl.symm.trans Nat.ofDigitChars_ten_toDigits

/-- **The digits of a number are read as that number.** -/
theorem numeral?_toDigits (n : Nat) : numeral? (Nat.toDigits 10 n) = some n := by
  have hplus : (Nat.toDigits 10 n).head? ≠ some '+' := fun h =>
    absurd (isDigit_of_mem_toDigits (List.mem_of_head? h)) (by decide)
  have hdigits : (Nat.toDigits 10 n).all isDigit = true :=
    List.all_eq_true.mpr fun c hc => isDigit_of_mem_toDigits hc
  rw [numeral?, if_neg hplus, if_pos ⟨Nat.toDigits_ne_nil, hdigits⟩, digitsValue_toDigits]

end BinaryCsp.Text
