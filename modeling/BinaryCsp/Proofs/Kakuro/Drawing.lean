import BinaryCsp.Kakuro.Drawing
import BinaryCsp.Proofs.Kakuro.Reading
import BinaryCsp.Proofs.Text.Words

/-!
# Reading what was drawn

A drawing pads its squares with blanks and ends its rows with line feeds, and reading cuts all that
away again: the words of a drawing are the texts of the squares, whatever digits are filled in and
whatever the width of the columns (`Grid.wording_drawWith`).  If no digit is filled in each text is
read as its square (`readSquare_squareText`).

So a well-formed grid is read back as it was drawn, and as every grid that is read is well formed,
drawing what was read changes a text once and never again.
-/

namespace BinaryCsp.Kakuro

open Text (IsWord)

/-! ## Squares -/

lemma toList_sideText (side : Option Nat) :
    (sideText side).toList = (side.map (Nat.toDigits 10)).getD [] := by
  cases side with
  | none => rfl
  | some n => exact Nat.toList_repr

lemma isDigit_of_mem_sideText {side : Option Nat} {c : Char} (h : c ∈ (sideText side).toList) :
    c.isDigit = true := by
  rw [toList_sideText] at h
  cases side with
  | none => cases h
  | some n => exact Text.isDigit_of_mem_toDigits h

/-- A side is read as it was written. -/
lemma readSide_sideText {side : Option Nat} (h : ∀ n ∈ side, n ≤ largestSum) :
    readSide (sideText side).toList = some side := by
  rw [toList_sideText]
  cases side with
  | none => rfl
  | some n =>
    rw [Option.map_some, Option.getD_some, readSide, if_neg Nat.toDigits_ne_nil,
      Text.numeral?_toDigits]
    exact if_pos (h n rfl)

lemma toList_squareText_blocked (digit : Option Nat) :
    (squareText digit .blocked).toList = ['*'] := by
  rw [squareText]
  rfl

lemma toList_squareText_empty (digit : Option Nat) :
    (squareText digit .empty).toList = (digit.map (Nat.toDigits 10)).getD ['_'] := by
  cases digit with
  | none => rfl
  | some n => exact Nat.toList_repr

lemma toList_squareText_clue (digit down right : Option Nat) :
    (squareText digit (.clue down right)).toList
      = (sideText down).toList ++ '\\' :: (sideText right).toList := by
  rw [squareText, String.toList_append, String.toList_append, List.append_assoc]
  rfl

/-- **A square is read as it was written.** -/
theorem readSquare_squareText {s : Square} (h : s.WellFormed) :
    readSquare (squareText none s).toList = .ok s := by
  cases s with
  | blocked => rfl
  | empty => rfl
  | clue down right =>
    obtain ⟨hsome, hdown, hright⟩ := h
    have hfirst : '\\' ∉ (sideText down).toList :=
      fun hmem => absurd (isDigit_of_mem_sideText hmem) (by decide)
    rw [toList_squareText_clue]
    exact readSquare_eq_ok_iff.mpr <| .clue (readSide_eq_some_iff.mp (readSide_sideText hdown))
      (readSide_eq_some_iff.mp (readSide_sideText hright)) hfirst hsome

lemma squareText_ne_nil (digit : Option Nat) (s : Square) : (squareText digit s).toList ≠ [] := by
  cases s with
  | blocked => simp [toList_squareText_blocked]
  | empty => cases digit <;> simp [toList_squareText_empty]
  | clue down right => simp [toList_squareText_clue]

lemma mem_squareText {digit : Option Nat} {s : Square} {c : Char}
    (h : c ∈ (squareText digit s).toList) :
    c = '*' ∨ c = '_' ∨ c = '\\' ∨ c.isDigit = true := by
  cases s with
  | blocked =>
    rw [toList_squareText_blocked] at h
    exact Or.inl (List.mem_singleton.mp h)
  | empty =>
    rw [toList_squareText_empty] at h
    cases digit with
    | none => exact Or.inr (Or.inl (List.mem_singleton.mp h))
    | some n => exact Or.inr (Or.inr (Or.inr (Text.isDigit_of_mem_toDigits h)))
  | clue down right =>
    rw [toList_squareText_clue] at h
    rcases List.mem_append.mp h with h | h
    · exact Or.inr (Or.inr (Or.inr (isDigit_of_mem_sideText h)))
    · rcases List.mem_cons.mp h with rfl | h
      · exact Or.inr (Or.inr (Or.inl rfl))
      · exact Or.inr (Or.inr (Or.inr (isDigit_of_mem_sideText h)))

/-- The text of a square is one word. -/
lemma isWord_squareText (digit : Option Nat) (s : Square) : IsWord (squareText digit s).toList := by
  refine ⟨squareText_ne_nil digit s, fun c hc => ?_⟩
  rcases mem_squareText hc with rfl | rfl | rfl | hc
  · rfl
  · rfl
  · rfl
  · exact Text.isBlank_of_isDigit hc

/-- No square makes its line a comment. -/
lemma isSignificant_of_squareText {ws : List (List Char)} (hne : ws ≠ [])
    (h : ∀ w ∈ ws, ∃ digit s, w = (squareText digit s).toList) : isSignificant ws = true := by
  obtain ⟨w, ws, rfl⟩ := List.exists_cons_of_ne_nil hne
  obtain ⟨digit, s, rfl⟩ := h w List.mem_cons_self
  refine bne_iff_ne.mpr fun hhead => ?_
  rcases mem_squareText (List.mem_of_head? hhead) with hc | hc | hc | hc <;>
    exact absurd hc (by decide)

/-! ## Rows -/

lemma toList_pushn_blank (n : Nat) : ("".pushn ' ' n).toList = List.replicate n ' ' := by
  induction n with
  | zero => rfl
  | succ n ih =>
    rw [String.pushn_eq_repeat_push] at ih ⊢
    rw [Nat.repeat, String.toList_push, ih, List.replicate_succ']

lemma toList_padLeft (width : Nat) (s : String) :
    (padLeft width s).toList = List.replicate (width - s.toList.length) ' ' ++ s.toList := by
  rw [padLeft, String.toList_append, toList_pushn_blank, String.length_toList]

lemma map_zipIdx_fst {α β : Type} (f : α → β) (l : List α) :
    l.zipIdx.map (fun e => f e.1) = l.map f := by
  conv_rhs => rw [← List.zipIdx_map_fst 0 l, List.map_map]
  rfl

namespace Grid

/-- The words of a text are those of its lines, without the lines that do not count. -/
lemma wording_eq (text : String) :
    wording text = ((Text.lines text.toList).map Text.words).filter isSignificant := by
  have hlines :
      ((Text.lines text.toList).zipIdx.map fun l => (l.2 + 1, Text.words l.1)).map Prod.snd
        = (Text.lines text.toList).map Text.words := by
    rw [List.map_map]
    exact map_zipIdx_fst Text.words _
  rw [← hlines, List.filter_map]
  rfl

/-- A drawing, line by line. -/
lemma toList_drawWith (g : Grid) (digitAt : Nat × Nat → Option Nat) :
    ∃ width, (g.drawWith digitAt).toList = ((g.texts digitAt).map fun row =>
      [' '].intercalate ((row.map String.toList).map fun w =>
        List.replicate (width - w.length) ' ' ++ w)).flatMap (· ++ ['\n']) := by
  refine ⟨(((g.texts digitAt).flatten.map String.length).max?).getD 1, ?_⟩
  rw [drawWith, String.toList_join, List.flatMap_map, List.flatMap_map]
  refine List.flatMap_congr fun row _ => ?_
  rw [String.toList_append, String.toList_intercalate, List.map_map, List.map_map]
  refine congrArg (· ++ ['\n']) (congrArg ([' '].intercalate ·) (List.map_congr_left fun s _ => ?_))
  exact toList_padLeft _ s

/-- The texts of a grid, row by row: as many as there are squares, each the text of one. -/
lemma of_mem_texts {g : Grid} {digitAt : Nat × Nat → Option Nat} {row : List String}
    (h : row ∈ g.texts digitAt) :
    (∃ squares ∈ g.rows, row.length = squares.length) ∧
      ∀ t ∈ row, ∃ digit s, t = squareText digit s := by
  obtain ⟨⟨squares, i⟩, hsquares, rfl⟩ := List.mem_map.mp h
  refine ⟨⟨squares, List.fst_mem_of_mem_zipIdx hsquares, ?_⟩, fun t ht => ?_⟩
  · rw [List.length_map, List.length_zipIdx]
  · obtain ⟨⟨s, j⟩, -, rfl⟩ := List.mem_map.mp ht
    exact ⟨_, s, rfl⟩

/-- **The words of a drawing are the texts of its squares**, with whatever digits it is filled. -/
theorem wording_drawWith {g : Grid} (h : ∀ row ∈ g.rows, row ≠ [])
    (digitAt : Nat × Nat → Option Nat) :
    wording (g.drawWith digitAt) = (g.texts digitAt).map (·.map String.toList) := by
  have hwords : ∀ row ∈ g.texts digitAt, ∀ w ∈ row.map String.toList, IsWord w := by
    intro row hrow w hw
    obtain ⟨t, ht, rfl⟩ := List.mem_map.mp hw
    obtain ⟨digit, s, rfl⟩ := (of_mem_texts hrow).2 t ht
    exact isWord_squareText digit s
  have hsignificant : ∀ ws ∈ (g.texts digitAt).map (·.map String.toList),
      isSignificant ws = true := by
    intro ws hws
    obtain ⟨row, hrow, rfl⟩ := List.mem_map.mp hws
    obtain ⟨⟨squares, hsquares, hlength⟩, htexts⟩ := of_mem_texts hrow
    refine isSignificant_of_squareText ?_ fun w hw => ?_
    · rw [ne_eq, List.map_eq_nil_iff, ← List.length_eq_zero_iff, hlength, List.length_eq_zero_iff]
      exact h squares hsquares
    · obtain ⟨t, ht, rfl⟩ := List.mem_map.mp hw
      obtain ⟨digit, s, rfl⟩ := htexts t ht
      exact ⟨digit, s, rfl⟩
  obtain ⟨width, hdrawing⟩ := toList_drawWith g digitAt
  rw [wording_eq, hdrawing, Text.lines_flatMap, List.map_append, List.filter_append, List.map_map]
  · have hread : (g.texts digitAt).map (Text.words ∘ fun row => [' '].intercalate
        ((row.map String.toList).map fun w => List.replicate (width - w.length) ' ' ++ w))
          = (g.texts digitAt).map (·.map String.toList) :=
      List.map_congr_left fun row hrow =>
        Text.words_intercalate_padded (hwords row hrow) fun w => width - w.length
    rw [hread, List.filter_eq_self.mpr hsignificant]
    exact List.append_nil _
  · intro line hline
    obtain ⟨row, hrow, rfl⟩ := List.mem_map.mp hline
    exact Text.not_mem_intercalate_padded (hwords row hrow) (fun w => width - w.length) rfl
      (by decide)

/-! ## There and back -/

lemma texts_none (g : Grid) : g.texts (fun _ => none) = g.rows.map (·.map (squareText none)) := by
  rw [texts]
  refine (map_zipIdx_fst (fun row : List Square => row.zipIdx.map fun s => squareText none s.1)
    g.rows).trans ?_
  exact List.map_congr_left fun row _ => map_zipIdx_fst (squareText none) row

/-- The texts of a well-formed grid are read as its rows. -/
lemma reads_texts {g : Grid} (h : g.WellFormed) :
    List.Forall₂ Reads ((g.texts fun _ => none).map (·.map String.toList)) g.rows := by
  rw [texts_none, List.forall₂_map_left_iff, List.forall₂_map_left_iff, List.forall₂_same]
  intro row hrow
  rw [Reads, List.forall₂_map_left_iff, List.forall₂_map_left_iff, List.forall₂_same]
  exact fun s hs => readSquare_squareText (h.squares row hrow s hs)

/-- **A well-formed grid is read as it was drawn.** -/
theorem read_draw {g : Grid} (h : g.WellFormed) : Grid.read g.draw = .ok g := by
  have hrows : ∀ row ∈ g.rows, row ≠ [] := by
    rintro row hrow rfl
    have hpos := h.breadth_pos
    rw [← h.rectangular [] hrow] at hpos
    exact Nat.lt_irrefl 0 hpos
  refine read_eq_ok_iff.mpr ⟨?_, h.rows_ne_nil, h.rectangular, h.reaches⟩
  rw [draw, wording_drawWith hrows]
  exact reads_texts h

/-- Reads a grid and draws it. -/
def tidy (text : String) : Except ReadFault String := (Grid.read text).map draw

/-- **Reading and drawing are inverse to each other.**  Every grid that is read is well formed, and
every well-formed grid is read as it was drawn.  So a text that has been read and drawn, whatever it
looked like at first, stays the same when it is read and drawn again. -/
theorem read_draw_inverse :
    (∀ text g, Grid.read text = .ok g → g.WellFormed) ∧
      (∀ g : Grid, g.WellFormed → Grid.read g.draw = .ok g) ∧
      ∀ text drawn, tidy text = .ok drawn → tidy drawn = .ok drawn := by
  refine ⟨fun text g => wellFormed_of_read, fun g => read_draw, fun text drawn h => ?_⟩
  rw [tidy] at h
  cases hread : Grid.read text with
  | error f =>
    rw [hread] at h
    cases h
  | ok g =>
    rw [hread] at h
    cases h
    rw [tidy, read_draw (wellFormed_of_read hread)]
    rfl

/-- A text with a comment, an empty line, signs, leading zeros and all kinds of blanks. -/
theorem read_draw_inverse_untidy :
    let text := "# sums\n\n  *\t+003\\ \n\\1 _\n"
    let g : Grid := ⟨[[.blocked, .clue (some 3) none], [.clue none (some 1), .empty]]⟩
    Grid.read text = .ok g ∧ g.WellFormed ∧ Grid.read g.draw = .ok g ∧
      tidy g.draw = .ok g.draw := by
  intro text g
  have hread : Grid.read text = .ok g := by decide +kernel
  obtain ⟨hwell, hinverse, htidy⟩ := read_draw_inverse
  refine ⟨hread, hwell text g hread, hinverse g (hwell text g hread), htidy text g.draw ?_⟩
  rw [tidy, hread]
  rfl

end Grid

end BinaryCsp.Kakuro
