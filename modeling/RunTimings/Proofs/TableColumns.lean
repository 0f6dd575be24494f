import Mathlib.Data.List.Basic
import Mathlib.Data.List.Forall2
import Mathlib.Order.Bounds.Basic
import RunTimings.Proofs.TableLines

/-! # Table columns — rows that stand under each other

    The column of names is measured in bytes and filled up by characters.  Rows of
    names in any characters are as wide as each other all the same, since no text
    has more characters than bytes, and the width is that of the longest name.

    * `isGreatest_nameWidth` — what the width of the column of names is.
    * `IsFileRow` and `IsStepRow` are the rows said without the code that makes
      them; `IsFileRow.length_eq` is how wide a row is.
    * `meanText_cases` — no number is printed as the word for a missing one.
    * **`tables_in_columns`** — all of this, of the lines of a report. -/

namespace RunTimings

open RunTimings.Text

/-! ## The width of the names -/

/-- A text has no more characters than bytes. -/
theorem length_le_utf8ByteSize (text : String) : text.length ≤ text.utf8ByteSize := by
  have hchars : ∀ chars : List Char, chars.length ≤ (String.ofList chars).utf8ByteSize := by
    intro chars
    induction chars with
    | nil => exact Nat.zero_le _
    | cons c rest ih =>
        have hsize := c.utf8Size_pos
        rw [String.ofList_cons, String.utf8ByteSize_append, String.utf8ByteSize_singleton,
          List.length_cons]
        omega
  have hall := hchars text.toList
  rwa [String.ofList_toList, String.length_toList] at hall

/-- The widths that the column of names has to have room for: that of its title,
    and that of each name in bytes. -/
def widthsOfNames (files : List StepSummary) : Set Nat :=
  insert 4 {bytes | ∃ file ∈ files, file.source.utf8ByteSize = bytes}

/-- The greatest of some sizes, and of one to begin with. -/
theorem isGreatest_foldl_max {α : Type} (size : α → Nat) (items : List α) (least : Nat) :
    IsGreatest (insert least {n | ∃ item ∈ items, size item = n})
      (items.foldl (fun greatest item => max greatest (size item)) least) := by
  induction items generalizing least with
  | nil =>
      refine ⟨.inl rfl, ?_⟩
      rintro n (rfl | ⟨item, hmem, -⟩)
      · exact Nat.le_refl _
      · cases hmem
  | cons item rest ih =>
      obtain ⟨hreached, hbound⟩ := ih (max least (size item))
      have hmax := hbound (.inl rfl)
      rw [List.foldl_cons]
      constructor
      · rcases hreached with heq | ⟨other, hmem, hsize⟩
        · rw [heq]
          rcases Nat.le_total least (size item) with hle | hle
          · rw [Nat.max_eq_right hle]
            exact .inr ⟨item, List.mem_cons_self, rfl⟩
          · rw [Nat.max_eq_left hle]
            exact .inl rfl
        · exact .inr ⟨other, List.mem_cons_of_mem _ hmem, hsize⟩
      · rintro n (rfl | ⟨other, hmem, rfl⟩)
        · omega
        · rcases List.mem_cons.mp hmem with rfl | hrest
          · omega
          · exact hbound (.inr ⟨other, hrest, rfl⟩)

/-- The width is one of these, and none of them is greater. -/
theorem isGreatest_nameWidth (files : List StepSummary) :
    IsGreatest (widthsOfNames files) (nameWidth files) :=
  isGreatest_foldl_max (fun file : StepSummary => file.source.utf8ByteSize) files 4

/-- Every name has room in the column. -/
theorem length_le_nameWidth {files : List StepSummary} {file : StepSummary} (h : file ∈ files) :
    file.source.length ≤ nameWidth files :=
  Nat.le_trans (length_le_utf8ByteSize _) ((isGreatest_nameWidth files).2 (.inr ⟨file, h, rfl⟩))

/-! ## Rows -/

/-- A column at the left of which a text stands; all else is spaces. -/
def StartsColumn (text column : String) : Prop :=
  ∃ n, column = text ++ spaces n

/-- A column at the right of which a text stands; all else is spaces, and there
    are none unless it takes them to make the column so wide. -/
structure EndsColumn (width : Nat) (text column : String) : Prop where
  filled : ∃ n, column = spaces n ++ text
  length_eq : column.length = max width text.length

theorem endsColumn_alignRight (width : Nat) (text : String) :
    EndsColumn width text (alignRight width text) where
  filled := ⟨_, rfl⟩
  length_eq := length_alignRight width text

/-- Each of some texts stands at the right of a column. -/
theorem endsColumn_map (width : Nat) (texts : List String) :
    List.Forall₂ (EndsColumn width) texts (texts.map (alignRight width)) := by
  rw [List.forall₂_map_right_iff, List.forall₂_same]
  exact fun text _ => endsColumn_alignRight width text

/-- **A ROW OF THE TABLE OF FILES**: a column of exactly so many characters with a
    name at its left, and then eight cells at the right of columns of ten
    characters or more, three characters in front of each. -/
def IsFileRow (width : Nat) (name : String) (cells : List String) (line : String) : Prop :=
  ∃ first columns, line = first ++ String.join (columns.map (" | " ++ ·))
    ∧ first.length = width ∧ StartsColumn name first
    ∧ columns.length = 8 ∧ List.Forall₂ (EndsColumn 10) cells columns

/-- A name that has room and eight cells make such a row. -/
theorem isFileRow_fileRow {width : Nat} {name : String} {cells : List String}
    (hroom : name.length ≤ width) (height : cells.length = 8) :
    IsFileRow width name cells (fileRow width name cells) := by
  refine ⟨alignLeft width name, cells.map (alignRight 10), ?_, ?_, ⟨_, rfl⟩, ?_,
    endsColumn_map 10 cells⟩
  · rw [List.map_map]
    rfl
  · rw [length_alignLeft]
    omega
  · rw [List.length_map, height]

/-- Cells of ten characters at most are all in columns of ten. -/
theorem length_of_endsColumn {cells columns : List String}
    (h : List.Forall₂ (EndsColumn 10) cells columns) (hshort : ∀ cell ∈ cells, cell.length ≤ 10) :
    ∀ column ∈ columns, column.length = 10 := by
  induction h with
  | nil => exact fun _ hmem => absurd hmem List.not_mem_nil
  | cons hcolumn _ ih =>
      rw [List.forall_mem_cons] at hshort ⊢
      refine ⟨?_, ih hshort.2⟩
      rw [hcolumn.length_eq]
      omega

/-- A row of short cells is as wide as all others. -/
theorem IsFileRow.length_eq {width : Nat} {name : String} {cells : List String} {line : String}
    (h : IsFileRow width name cells line) (hshort : ∀ cell ∈ cells, cell.length ≤ 10) :
    line.length = width + 104 := by
  obtain ⟨first, columns, rfl, hfirst, -, height, hcolumns⟩ := h
  have hthirteen : ∀ column ∈ columns, (" | " ++ column).length = 13 := by
    intro column hmem
    rw [String.length_append, length_of_endsColumn hcolumns hshort column hmem]
    rfl
  have hall : (columns.map (" | " ++ ·)).map String.length = List.replicate 8 13 := by
    rw [List.map_map, ← height]
    exact List.map_eq_replicate_iff.mpr hthirteen
  rw [String.length_append, String.length_join, hall, hfirst]
  rfl

/-- **A ROW OF THE TABLE OF STEPS**: three texts at the right of columns. -/
def IsStepRow (step mean contributors line : String) : Prop :=
  ∃ first second third, line = first ++ " | " ++ second ++ " | " ++ third
    ∧ EndsColumn 4 step first ∧ EndsColumn 12 mean second ∧ EndsColumn 12 contributors third

theorem isStepRow_tripleRow (step mean contributors : String) :
    IsStepRow step mean contributors (tripleRow 4 step mean contributors) :=
  ⟨_, _, _, rfl, endsColumn_alignRight 4 step, endsColumn_alignRight 12 mean,
    endsColumn_alignRight 12 contributors⟩

/-! ## Numbers -/

/-- A number is printed with a point, or as a word for one that is not finite. -/
theorem meanText_cases (x : Float) :
    '.' ∈ (meanText x).toList ∨ meanText x ∈ ["NaN", "inf", "-inf"] := by
  simp only [meanText, placesText]
  cases Binary64.ofFloat x with
  | finite negative mantissa exponent => exact .inl (by simp [fixedText])
  | infinite negative => cases negative <;> exact .inr (by decide)
  | nan => exact .inr (by decide)

/-- A word for a missing number that is no number tells just these. -/
theorem elim_meanText_eq_iff {word : String} (hpoint : '.' ∉ word.toList)
    (hword : word ∉ ["NaN", "inf", "-inf"]) (mean : Option Float) :
    mean.elim word meanText = word ↔ mean = none := by
  cases mean with
  | none => exact iff_of_true rfl rfl
  | some x =>
      refine iff_of_false ?_ nofun
      rintro (heq : meanText x = word)
      rcases meanText_cases x with hmem | hmem
      · exact hpoint (heq ▸ hmem)
      · exact hword (heq ▸ hmem)

/-! ## The lines of a report -/

/-- The cells of a file. -/
def StepSummary.cells (file : StepSummary) : List String :=
  file.means.toList.map meanCell

theorem StepSummary.length_cells (file : StepSummary) : file.cells.length = 8 := by
  rw [StepSummary.cells, List.length_map, Vector.length_toList]
  rfl

/-- Behind the tables the text ends, or there is an empty line. -/
theorem pieces_problemSection (messages : List String) :
    ∃ rest, pieces '\n' (textOfLines (problemSection messages)).toList = [] :: rest := by
  simp only [problemSection]
  by_cases hnone : messages = []
  · rw [if_pos hnone]
    exact ⟨[], rfl⟩
  · rw [if_neg hnone, ← List.singleton_append, textOfLines_append, String.toList_append,
      pieces_textOfLines (by decide)]
    exact ⟨_, rfl⟩

/-- The text of a report begins with the lines of its tables. -/
theorem pieces_table {report : StepReport} (h : ∀ file ∈ report.files, OneLine file.source) :
    ∃ rest, pieces '\n' report.table.toList = report.tables.map String.toList ++ [] :: rest := by
  obtain ⟨rest, hrest⟩ := pieces_problemSection (report.diagnostics.map Diagnostic.message)
  refine ⟨rest, ?_⟩
  rw [StepReport.table, tableLines_eq, textOfLines_append, String.toList_append,
    pieces_textOfLines (oneLine_tables h), hrest]

/-- **TABLES IN COLUMNS**: the text of a report, whose names hold no line feed,
    begins with the lines of two tables.  In the first the title and the row of
    every file, in the order of the files, begin with a column as wide as the
    longest name takes bytes, and as its title, and go on with eight cells; so if
    no number is printed with more than ten characters all these lines are as wide
    as each other.  The second has a row for every step in order.  Missing means
    are told by a word of their own in either. -/
theorem tables_in_columns (report : StepReport)
    (h : ∀ file ∈ report.files, '\n' ∉ file.source.toList) :
    ∃ width head rows title results rest,
      pieces '\n' report.table.toList
          = ("Per file:" :: head :: rows ++ "" :: "Results:" :: title :: results).map String.toList
            ++ [] :: rest
        ∧ IsGreatest (widthsOfNames report.files) width
        ∧ IsFileRow width "file" stepTitles head
        ∧ List.Forall₂ (fun file row => IsFileRow width file.source file.cells row)
          report.files rows
        ∧ ((∀ file ∈ report.files, ∀ mean, some mean ∈ file.means.toList →
            (meanText mean).length ≤ 10) → ∀ line ∈ head :: rows, line.length = width + 104)
        ∧ IsStepRow "step" "mean" "contributors" title
        ∧ List.Forall₂ (fun step row => IsStepRow (toString (step.step + 1))
            (step.mean.elim "excluded" meanText) (toString step.contributors) row)
          report.steps results
        ∧ (∀ mean, meanCell mean = "-" ↔ mean = none)
        ∧ ∀ mean : Option Float, mean.elim "excluded" meanText = "excluded" ↔ mean = none := by
  obtain ⟨rest, hrest⟩ := pieces_table h
  have hhead : IsFileRow (nameWidth report.files) "file" stepTitles
      (fileRow (nameWidth report.files) "file" stepTitles) :=
    isFileRow_fileRow ((isGreatest_nameWidth report.files).2 (.inl rfl)) rfl
  have hrow : ∀ file ∈ report.files, IsFileRow (nameWidth report.files) file.source file.cells
      (fileRow (nameWidth report.files) file.source file.cells) :=
    fun file hmem => isFileRow_fileRow (length_le_nameWidth hmem) file.length_cells
  refine ⟨nameWidth report.files, _, _, _, _, rest, hrest, isGreatest_nameWidth report.files,
    hhead, ?_, ?_, isStepRow_tripleRow _ _ _, ?_, ?_, ?_⟩
  · rw [List.forall₂_map_right_iff, List.forall₂_same]
    exact hrow
  · intro hshort line hmem
    rcases List.mem_cons.mp hmem with rfl | hmem
    · exact hhead.length_eq (by decide)
    · obtain ⟨file, hfile, rfl⟩ := List.mem_map.mp hmem
      refine (hrow file hfile).length_eq ?_
      intro cell hcell
      obtain ⟨mean, hmean, rfl⟩ := List.mem_map.mp hcell
      cases mean with
      | none => decide
      | some mean => exact hshort file hfile mean hmean
  · rw [List.forall₂_map_right_iff, List.forall₂_same]
    exact fun step _ => isStepRow_tripleRow _ _ _
  · intro mean
    rw [meanCell_eq]
    exact elim_meanText_eq_iff (by decide) (by decide) mean
  · exact elim_meanText_eq_iff (by decide) (by decide)

/-- A file with one mean. -/
def oneMean (source : String) (step : Nat) (mean : Float) : StepSummary where
  source := source
  means := PerStep.ofFn fun other => if other.val = step then some mean else none
  sampleCounts := PerStep.ofFn fun other => if other.val = step then 1 else 0
  diagnostics := []

/-- Names of one, two and three bytes a character; that of most bytes is not that
    of most characters. -/
def wideReport : StepReport :=
  .ofFiles [oneMean "steps_a" 0 12.5, oneMean "é" 7 (-0.125), oneMean "日本語" 3 9223372.0]

/-- The title and the three rows are as wide as each other: nine characters for the
    name that takes nine bytes, and the cells. -/
theorem rows_of_wideReport :
    (∀ file ∈ wideReport.files, '\n' ∉ file.source.toList)
      ∧ (∀ file ∈ wideReport.files, ∀ mean, some mean ∈ file.means.toList →
        (meanText mean).length ≤ 10)
      ∧ ∀ line ∈ ((pieces '\n' wideReport.table.toList).drop 1).take 4, line.length = 113 := by
  have hnames : ∀ file ∈ wideReport.files, '\n' ∉ file.source.toList := by decide
  have hshort : ∀ file ∈ wideReport.files, ∀ mean, some mean ∈ file.means.toList →
      (meanText mean).length ≤ 10 := by
    have hcells : ∀ file ∈ wideReport.files, ∀ cell ∈ file.cells, cell.length ≤ 10 := by
      decide +kernel
    exact fun file hfile mean hmean => hcells file hfile _ (List.mem_map.mpr ⟨_, hmean, rfl⟩)
  obtain ⟨width, head, rows, title, results, rest, hlines, hwidth, -, hrows, heven, -⟩ :=
    tables_in_columns wideReport hnames
  refine ⟨hnames, hshort, ?_⟩
  obtain rfl : width = 9 := hwidth.unique (isGreatest_nameWidth wideReport.files)
  obtain ⟨a, b, c, rfl⟩ := List.length_eq_three.mp hrows.length_eq.symm
  have hfour : ((pieces '\n' wideReport.table.toList).drop 1).take 4
      = [head, a, b, c].map String.toList := by
    rw [hlines]
    rfl
  rw [hfour]
  intro line hmem
  obtain ⟨row, hrow, rfl⟩ := List.mem_map.mp hmem
  rw [String.length_toList]
  exact heven hshort row hrow

end RunTimings
