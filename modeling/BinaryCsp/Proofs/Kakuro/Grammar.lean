import BinaryCsp.Proofs.Kakuro.Reading
import BinaryCsp.Proofs.Text.Words

/-!
# Which texts are grids, and which line is to blame

The grammar of grids, line by line and word by word, with no word of how a text is read.  A line is
*significant* if it is neither empty nor a comment once it is trimmed (`Significant`), and the
significant lines are the rows, each with its number in the whole text (`writtenRows`).  A text is
grammatical if there is a row, every word stands for a square, all rows have the same number of
words, and what stands next to a clue, in the direction in which it demands a sum, is an empty
square (`Grammatical`).

Of a text that is not, one line is to blame (`Blamed`), and `Grid.read` names that line.  Rows come
before clues: a row that does not fit the first one hides every clue, since the clues are looked at
in a second walk over the squares, where lines that do not count are gone and rows have other
numbers than their lines.
-/

namespace BinaryCsp.Kakuro

/-! ## Rows -/

/-- A line that counts: after trimming it is neither empty nor a comment. -/
def Significant (line : List Char) : Prop :=
  Text.trim line ≠ [] ∧ (Text.trim line).head? ≠ some '#'

instance (line : List Char) : Decidable (Significant line) :=
  inferInstanceAs (Decidable (_ ∧ _))

/-- A row as it is written: the number of its line and the words of that. -/
abbrev WrittenRow := Nat × List (List Char)

/-- The rows that a text writes.  Lines count from one, and those that are no rows count too. -/
def writtenRows (text : String) : List WrittenRow :=
  (((Text.lines text.toList).zipIdx 1).filter fun l => decide (Significant l.1)).map
    fun l => (l.2, Text.words l.1)

/-- A line counts if its first word does not make it a comment. -/
lemma isSignificant_words (line : List Char) :
    isSignificant (Text.words line) = true ↔ Significant line := by
  have hne : ∀ w ∈ Text.words line, w ≠ [] := fun w hw => by simpa using (List.mem_filter.mp hw).2
  rw [Significant, ne_eq, ← List.head?_eq_none_iff, Text.head?_trim]
  cases hwords : Text.words line with
  | nil => simp [isSignificant]
  | cons w ws =>
    obtain ⟨c, cs, rfl⟩ := List.exists_cons_of_ne_nil (hne w (hwords ▸ List.mem_cons_self))
    simp [isSignificant]

lemma significantLines_eq (text : String) : significantLines text = writtenRows text := by
  rw [significantLines, writtenRows, List.zipIdx_succ, List.filter_map, List.filter_map,
    List.map_map]
  refine congrArg _ (List.filter_congr fun l _ => ?_)
  exact Bool.eq_iff_iff.mpr ((isSignificant_words l.1).trans decide_eq_true_iff.symm)

/-- A row that can stand below a first row of `n` words. -/
def Fits (n : Nat) (row : WrittenRow) : Prop :=
  (∀ w ∈ row.2, ∃ s, IsToken w s) ∧ row.2.length = n

lemma exists_reads_iff {ws : List (List Char)} :
    (∃ row, Reads ws row) ↔ ∀ w ∈ ws, ∃ s, IsToken w s := by
  induction ws with
  | nil => exact iff_of_true ⟨[], .nil⟩ nofun
  | cons w ws ih =>
    rw [List.forall_mem_cons, ← ih]
    constructor
    · rintro ⟨_, _ | ⟨hw, hws⟩⟩
      exact ⟨⟨_, readSquare_eq_ok_iff.mp hw⟩, _, hws⟩
    · rintro ⟨⟨s, hs⟩, row, hrow⟩
      exact ⟨s :: row, .cons (readSquare_eq_ok_iff.mpr hs) hrow⟩

/-- Rows that are read as squares of one number fit it. -/
lemma fits_of_reads {ls : List WrittenRow} {grid : List (List Square)} {n : Nat}
    (h : List.Forall₂ (fun l row => Reads l.2 row) ls grid) (hall : ∀ row ∈ grid, row.length = n) :
    ∀ r ∈ ls, Fits n r := by
  intro r hr
  obtain ⟨row, hrow, hread⟩ := exists_of_mem_right h.flip hr
  exact ⟨exists_reads_iff.mp ⟨row, hread⟩, hread.length_eq.trans (hall row hrow)⟩

/-- What keeps a row from being read is that it does not fit. -/
lemma not_fits_of_readRow {length : Option Nat} {line : Nat} {ws : List (List Char)} {f : Flaw}
    (h : readRow length ws = .error f) : ¬ Fits (length.getD ws.length) (line, ws) := by
  rintro ⟨htokens, hlength⟩
  obtain ⟨row, hrow⟩ := exists_reads_iff.mpr htokens
  have hok : readRow length ws = .ok row := by
    refine readRow_eq_ok_iff.mpr ⟨hrow, ?_⟩
    rintro n rfl
    exact hrow.length_eq.symm.trans hlength
  cases h.symm.trans hok

/-- **The first row that does not fit is named.** -/
theorem exists_of_readRows_eq_error {length : Option Nat} {ls : List WrittenRow} {f : ReadFault}
    (h : readRows length ls = .error f) :
    ∃ first before row after, ls.head? = some first ∧ ls = before ++ row :: after ∧
      row.1 = f.line ∧ (∀ r ∈ before, Fits (length.getD first.2.length) r) ∧
        ¬ Fits (length.getD first.2.length) row := by
  induction ls generalizing length with
  | nil => cases h
  | cons l ls ih =>
    obtain ⟨line, ws⟩ := l
    rw [readRows] at h
    split at h
    · rename_i flaw hflaw
      cases h
      exact ⟨(line, ws), [], (line, ws), ls, rfl, rfl, rfl, List.forall_mem_nil _,
        not_fits_of_readRow hflaw⟩
    · rename_i row hrow
      obtain ⟨hreads, hlength⟩ := readRow_eq_ok_iff.mp hrow
      split at h
      · rename_i f' hrest
        cases h
        obtain ⟨next, before, bad, after, -, hls, hline, hbefore, hbad⟩ := ih hrest
        rw [Option.getD_some, ← hreads.length_eq] at hbefore hbad
        refine ⟨(line, ws), (line, ws) :: before, bad, after, rfl, ?_, hline, ?_, hbad⟩
        · rw [hls, List.cons_append]
        · refine List.forall_mem_cons.mpr ⟨⟨exists_reads_iff.mp ⟨row, hreads⟩, ?_⟩, hbefore⟩
          cases length with
          | none => rfl
          | some n => exact hreads.length_eq.trans (hlength n rfl)
      · cases h

/-- Rows keep the numbers of their lines. -/
lemma fst_of_readRows {length : Option Nat} {ls : List WrittenRow}
    {rows : List (Nat × List Square)} (h : readRows length ls = .ok rows) :
    rows.map Prod.fst = ls.map Prod.fst := by
  induction ls generalizing length rows with
  | nil =>
    cases h
    rfl
  | cons l ls ih =>
    rw [readRows] at h
    split at h
    · cases h
    · split at h
      · cases h
      · rename_i rows' hrest
        cases h
        rw [List.map_cons, List.map_cons, ih hrest]

/-! ## Clues -/

/-- The word at a place of a table of words. -/
def wordAt (rows : List WrittenRow) (p : Nat × Nat) : Option (List Char) :=
  rows[p.1]?.bind fun row => row.2[p.2]?

/-- A place, and a direction to look in from there. -/
abbrev Heading := (Nat × Nat) × Direction

/-- The place that is looked at. -/
def Heading.next : Heading → Nat × Nat
  | ((row, col), .down) => (row + 1, col)
  | ((row, col), .right) => (row, col + 1)

/-- Row by row, and down before right at one place. -/
def Heading.Before (a b : Heading) : Prop :=
  Kakuro.Before a.1 b.1 ∨ a.1 = b.1 ∧ a.2 = .down ∧ b.2 = .right

/-- A clue demands a sum here, but what it looks at is not an empty square. -/
def Dangles (rows : List WrittenRow) (a : Heading) : Prop :=
  (∃ w s, wordAt rows a.1 = some w ∧ IsToken w s ∧ s.sum? a.2 ≠ none) ∧
    wordAt rows a.next ≠ some ['_']

def Clue.heading (c : Clue) : Heading := ((c.row, c.col), c.direction)

lemma Clue.next_heading (c : Clue) : c.heading.next = c.nth 0 := by
  obtain ⟨row, col, d, n⟩ := c
  cases d <;> rfl

section Words

variable {ls : List WrittenRow} {g : Grid} (h : List.Forall₂ (fun l row => Reads l.2 row) ls g.rows)

/-- Entries of lists that go together go together. -/
lemma rel_getElem? {α β : Type} {R : α → β → Prop} {l : List α} {u : List β}
    (h : List.Forall₂ R l u) (i : Nat) : Option.Rel R l[i]? u[i]? := by
  induction h generalizing i with
  | nil => exact .none
  | cons hab _ ih =>
    cases i with
    | zero => exact .some hab
    | succ i => exact ih i

include h

lemma rel_wordAt (p : Nat × Nat) :
    Option.Rel (fun w s => readSquare w = .ok s) (wordAt ls p) (g.square? p.1 p.2) := by
  have hrow := rel_getElem? h p.1
  rw [wordAt, Grid.square?]
  generalize ls[p.1]? = l, g.rows[p.1]? = r at hrow
  cases hrow with
  | none => exact .none
  | some hreads => exact rel_getElem? hreads p.2

/-- What lies at a place is what the word there stands for. -/
lemma square?_eq_some_iff_word {p : Nat × Nat} {s : Square} :
    g.square? p.1 p.2 = some s ↔ ∃ w, wordAt ls p = some w ∧ IsToken w s := by
  have hplace := rel_wordAt h p
  generalize wordAt ls p = word, g.square? p.1 p.2 = square at hplace
  cases hplace with
  | none => simp
  | @some w s' hread =>
    constructor
    · rintro ⟨⟩
      exact ⟨w, rfl, readSquare_eq_ok_iff.mp hread⟩
    · rintro ⟨_, ⟨⟩, htoken⟩
      cases hread.symm.trans (readSquare_eq_ok_iff.mpr htoken)
      rfl

lemma emptyAt_iff_word {p : Nat × Nat} : g.EmptyAt p ↔ wordAt ls p = some ['_'] := by
  rw [Grid.EmptyAt, square?_eq_some_iff_word h]
  constructor
  · rintro ⟨_, hw, ⟨⟩⟩
    exact hw
  · exact fun hw => ⟨_, hw, .empty⟩

/-- A clue has its row. -/
lemma exists_row_of_demands {c : Clue} (hc : g.Demands c) : ∃ row, ls[c.row]? = some row := by
  obtain ⟨s, hs, -⟩ := hc
  obtain ⟨w, hw, -⟩ := (square?_eq_some_iff_word h (p := (c.row, c.col))).mp hs
  obtain ⟨row, hrow, -⟩ := Option.bind_eq_some_iff.mp hw
  exact ⟨row, hrow⟩

/-- What dangles is a clue of the grid without an empty square ahead. -/
lemma dangles_iff {a : Heading} :
    Dangles ls a ↔ ∃ c, g.Demands c ∧ c.heading = a ∧ ¬ g.EmptyAt (c.nth 0) := by
  rw [Dangles, ne_eq (wordAt ls a.next), ← emptyAt_iff_word h]
  constructor
  · rintro ⟨⟨w, s, hw, htoken, hsum⟩, hempty⟩
    obtain ⟨n, hn⟩ := Option.ne_none_iff_exists'.mp hsum
    refine ⟨⟨a.1.1, a.1.2, a.2, n⟩, ⟨s, ?_, hn⟩, rfl, ?_⟩
    · exact (square?_eq_some_iff_word h).mpr ⟨w, hw, htoken⟩
    · rwa [← Clue.next_heading]
  · rintro ⟨c, ⟨s, hs, hn⟩, rfl, hempty⟩
    obtain ⟨w, hw, htoken⟩ := (square?_eq_some_iff_word h (p := (c.row, c.col))).mp hs
    refine ⟨⟨w, s, hw, htoken, ?_⟩, ?_⟩
    · rw [Clue.heading, hn]
      exact Option.some_ne_none _
    · rwa [Clue.next_heading]

end Words

namespace Grid

variable {g : Grid}

lemma pairwise_clues (g : Grid) : g.clues.Pairwise fun c e => c.heading.Before e.heading := by
  rw [clues, List.pairwise_flatMap]
  constructor
  · rintro ⟨row, col, s⟩ -
    cases s with
    | blocked => exact .nil
    | empty => exact .nil
    | clue down right =>
      cases down <;> cases right <;> simp [Square.clues, Clue.heading, Heading.Before]
  · refine g.pairwise_places.imp fun hbefore => ?_
    intro c hc e he
    obtain ⟨hcrow, hccol, -⟩ := Square.mem_clues.mp hc
    obtain ⟨herow, hecol, -⟩ := Square.mem_clues.mp he
    rw [Clue.heading, Clue.heading, hcrow, hccol, herow, hecol]
    exact Or.inl hbefore

/-- The clue that is found comes before all others with nothing ahead. -/
lemma of_idleClue?_eq_some {c : Clue} (h : g.idleClue? = some c) :
    (g.Demands c ∧ ¬ g.EmptyAt (c.nth 0)) ∧
      ∀ e, g.Demands e → ¬ g.EmptyAt (e.nth 0) → e = c ∨ c.heading.Before e.heading := by
  obtain ⟨hempty, above, below, hclues, habove⟩ := List.find?_eq_some_iff_append.mp h
  have hc : c ∈ g.clues := hclues ▸ List.mem_append_right _ List.mem_cons_self
  refine ⟨⟨mem_clues.mp hc, isEmpty_run_iff.mp hempty⟩, fun e he hidle => ?_⟩
  have horder := g.pairwise_clues
  rw [hclues] at horder
  have hmem := mem_clues.mpr he
  rw [hclues, List.mem_append, List.mem_cons] at hmem
  rcases hmem with hmem | rfl | hmem
  · have hrun := habove e hmem
    rw [isEmpty_run_iff.mpr hidle] at hrun
    cases hrun
  · exact Or.inl rfl
  · exact Or.inr (List.rel_of_pairwise_cons (List.pairwise_append.mp horder).2.1 hmem)

end Grid

/-! ## Texts -/

/-- **The grammar of grids.** -/
structure Grammatical (text : String) : Prop where
  written : writtenRows text ≠ []
  tokens : ∀ row ∈ writtenRows text, ∀ w ∈ row.2, ∃ s, IsToken w s
  /-- All rows have the same number of words. -/
  even : ∀ row ∈ writtenRows text, ∀ row' ∈ writtenRows text, row.2.length = row'.2.length
  /-- Every demand of a clue is followed by an empty square. -/
  followed : ∀ a, ¬ Dangles (writtenRows text) a

/-- **The line to blame** for a text that is no grid. -/
inductive Blamed (text : String) : Nat → Prop where
  /-- There is no row, and no line stands for that. -/
  | nothing (h : writtenRows text = []) : Blamed text 0
  /-- The first row that has a word that stands for nothing, or not as many words as the very first
  one. -/
  | row {first row : WrittenRow} {above below : List WrittenRow}
      (head : (writtenRows text).head? = some first)
      (split : writtenRows text = above ++ row :: below)
      (fits : ∀ r ∈ above, Fits first.2.length r) (misfit : ¬ Fits first.2.length row) :
      Blamed text row.1
  /-- All rows are good, and a clue of this one is the first that dangles. -/
  | clue {n : Nat} {a : Heading} {row : WrittenRow} (fits : ∀ r ∈ writtenRows text, Fits n r)
      (dangles : Dangles (writtenRows text) a)
      (least : ∀ b, Dangles (writtenRows text) b → b = a ∨ a.Before b)
      (place : (writtenRows text)[a.1.1]? = some row) : Blamed text row.1

lemma Heading.Before.asymm {a b : Heading} (h : a.Before b) : ¬ b.Before a := by
  obtain ⟨p, d⟩ := a
  obtain ⟨q, e⟩ := b
  simp only [Heading.Before, Kakuro.Before] at h ⊢
  rintro (hplace | ⟨hplace, rfl, rfl⟩)
  · rcases h with h | ⟨rfl, -⟩
    · omega
    · omega
  · rcases h with h | ⟨-, hdirection, -⟩
    · rw [hplace] at h
      omega
    · cases hdirection

/-- A list has one first entry that does not fit. -/
lemma eq_of_first_misfit {n : Nat} {row row' : WrittenRow}
    {above below above' below' : List WrittenRow}
    (h : above ++ row :: below = above' ++ row' :: below') (fits : ∀ r ∈ above, Fits n r)
    (misfit : ¬ Fits n row) (fits' : ∀ r ∈ above', Fits n r) (misfit' : ¬ Fits n row') :
    row = row' := by
  induction above generalizing above' with
  | nil =>
    cases above' with
    | nil => exact (List.cons.inj h).1
    | cons r above' =>
      obtain ⟨rfl, -⟩ := List.cons.inj h
      exact absurd (fits' row List.mem_cons_self) misfit
  | cons r above ih =>
    obtain ⟨hr, fits⟩ := List.forall_mem_cons.mp fits
    cases above' with
    | nil =>
      obtain ⟨rfl, -⟩ := List.cons.inj h
      exact absurd hr misfit'
    | cons r' above' =>
      exact ih (List.cons.inj h).2 fits (List.forall_mem_cons.mp fits').2

/-- Rows that fit some length fit that of the first. -/
lemma fits_first {n : Nat} {ls : List WrittenRow} {first row : WrittenRow}
    (h : ∀ r ∈ ls, Fits n r) (hhead : ls.head? = some first) (hrow : row ∈ ls) :
    Fits first.2.length row := by
  rw [(h first (List.mem_of_head? hhead)).2]
  exact h row hrow

section Text

variable {text : String}

/-- One line is to blame at most. -/
lemma Blamed.unique {n m : Nat} (h : Blamed text n) (h' : Blamed text m) : n = m := by
  cases h with
  | nothing hnil =>
    cases h' with
    | nothing => rfl
    | row hhead => simp [hnil] at hhead
    | clue _ _ _ hplace => simp [hnil] at hplace
  | row hhead hsplit hfits hmisfit =>
    cases h' with
    | nothing hnil => simp [hnil] at hhead
    | row hhead' hsplit' hfits' hmisfit' =>
      cases hhead.symm.trans hhead'
      have hsame := eq_of_first_misfit (hsplit.symm.trans hsplit') hfits hmisfit hfits' hmisfit'
      exact congrArg Prod.fst hsame
    | clue hfits' =>
      exact absurd (fits_first hfits' hhead (hsplit ▸ List.mem_append_cons_self)) hmisfit
  | clue hfits hdangles hleast hplace =>
    cases h' with
    | nothing hnil => simp [hnil] at hplace
    | row hhead hsplit _ hmisfit =>
      exact absurd (fits_first hfits hhead (hsplit ▸ List.mem_append_cons_self)) hmisfit
    | clue _ hdangles' hleast' hplace' =>
      rcases hleast _ hdangles' with rfl | hbefore
      · exact congrArg Prod.fst (Option.some.inj (hplace.symm.trans hplace'))
      · rcases hleast' _ hdangles with rfl | hbefore'
        · exact absurd hbefore hbefore.asymm
        · exact absurd hbefore' hbefore.asymm

/-- No line of a text that is a grid is to blame. -/
lemma Grammatical.not_blamed (h : Grammatical text) (n : Nat) : ¬ Blamed text n := by
  rintro (hnil | ⟨hhead, hsplit, -, hmisfit⟩ | ⟨-, hdangles, -, -⟩)
  · exact h.written hnil
  · have hrow := hsplit ▸ List.mem_append_cons_self
    exact hmisfit ⟨h.tokens _ hrow, h.even _ hrow _ (List.mem_of_head? hhead)⟩
  · exact h.followed _ hdangles

lemma reads_of_read {g : Grid} (h : Grid.read text = .ok g) :
    List.Forall₂ (fun l row => Reads l.2 row) (writtenRows text) g.rows := by
  rw [← List.forall₂_map_left_iff, ← significantLines_eq]
  exact (Grid.read_eq_ok_iff.mp h).1

/-- A text that is read is a grid. -/
lemma grammatical_of_read {g : Grid} (h : Grid.read text = .ok g) : Grammatical text := by
  obtain ⟨-, hne, hall, hreaches⟩ := Grid.read_eq_ok_iff.mp h
  have hreads := reads_of_read h
  have hfits := fits_of_reads hreads hall
  refine ⟨?_, fun row h => (hfits row h).1, ?_, ?_⟩
  · intro hnil
    rw [hnil, List.forall₂_nil_left_iff] at hreads
    exact hne hreads
  · exact fun row h row' h' => (hfits row h).2.trans (hfits row' h').2.symm
  · intro a ha
    obtain ⟨c, hc, -, hidle⟩ := (dangles_iff hreads).mp ha
    exact hidle (hreaches c hc)

/-- A text that is not read has its fault in the line to blame. -/
lemma blamed_of_read {f : ReadFault} (h : Grid.read text = .error f) : Blamed text f.line := by
  rw [Grid.read, significantLines_eq] at h
  split at h
  · rename_i hrows
    cases h
    obtain ⟨first, above, row, below, hhead, hsplit, hline, hfits, hmisfit⟩ :=
      exists_of_readRows_eq_error hrows
    exact hline ▸ .row hhead hsplit hfits hmisfit
  · rename_i hrows
    cases h
    exact .nothing (List.map_eq_nil_iff.mp (fst_of_readRows hrows).symm)
  · rename_i rows _ hrows
    dsimp only at h
    split at h
    · cases h
    · rename_i c hidle
      cases h
      obtain ⟨hreads, n, -, hall⟩ := reads_of_readRows hrows
      have hfits := fits_of_reads hreads hall
      obtain ⟨⟨hc, hempty⟩, hleast⟩ := Grid.of_idleClue?_eq_some hidle
      -- The row of the clue has its number among those that were kept.
      obtain ⟨row, hrow⟩ := exists_row_of_demands hreads hc
      have hline : ((rows.map Prod.fst)[c.row]?).getD 0 = row.1 := by
        rw [fst_of_readRows hrows, List.getElem?_map, hrow, Option.map_some, Option.getD_some]
      rw [hline]
      refine .clue hfits ((dangles_iff hreads).mpr ⟨c, hc, rfl, hempty⟩) ?_ hrow
      intro b hb
      obtain ⟨e, he, rfl, hempty'⟩ := (dangles_iff hreads).mp hb
      exact (hleast e he hempty').imp_left (congrArg _)

end Text

/-- **What is read is the grammar, and the line named is the one to blame.**  The texts that are
grids, and no others, are read as the squares that their words stand for.  For any other text there
is exactly one line to blame, and the fault that is returned names it. -/
theorem Grid.read_exact (text : String) :
    ((∃ g, Grid.read text = .ok g) ↔ Grammatical text) ∧
      (∀ g, Grid.read text = .ok g →
        List.Forall₂ (fun row squares => List.Forall₂ IsToken row.2 squares) (writtenRows text)
          g.rows) ∧
      (¬ Grammatical text →
        ∃ f, Grid.read text = .error f ∧ ∀ n, Blamed text n ↔ n = f.line) := by
  refine ⟨⟨fun ⟨_, h⟩ => grammatical_of_read h, fun h => ?_⟩, fun g h => ?_, ?_⟩
  · cases hread : Grid.read text with
    | ok g => exact ⟨g, rfl⟩
    | error f => exact absurd (blamed_of_read hread) (h.not_blamed f.line)
  · exact (reads_of_read h).imp fun _ _ hrow => hrow.imp fun _ _ => readSquare_eq_ok_iff.mp
  · intro h
    cases hread : Grid.read text with
    | ok g => exact absurd (grammatical_of_read hread) h
    | error f =>
      refine ⟨f, rfl, fun n => ⟨fun hn => hn.unique (blamed_of_read hread), ?_⟩⟩
      rintro rfl
      exact blamed_of_read hread

/-- The third line of a text is its second row if the first is a comment. -/
example : Grid.read "# a comment\n\\3 _ _\n* *\n" = .error ⟨3, .rowLength 3 2⟩ := by
  decide +kernel

end BinaryCsp.Kakuro
