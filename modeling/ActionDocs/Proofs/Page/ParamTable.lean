import ActionDocs.Page.File
import ActionDocs.Proofs.Comment.Params
import Mathlib.Data.List.Forall2

/-!
# The table of parameters

A row of the table is one line of the page, and is cut into its cells at the pipes. Pipes in the
name, the type or the description of a parameter are escaped, so that the cells can always be told
apart and read back.

- `cells`: a row, cut at the pipes that are not escaped.
- `unescapeCell`: a cell with its pipes as they were.
- `Tells`: a row tells the name, the type and the description of a parameter.
- `tells_paramRow`: the row of a parameter tells the parameter.
- `HasTable`: the lines of a page with a table in it that has one row for each parameter.
- `paramTable_unbroken`: every page about a comment with parameters has such a table.
-/

namespace ActionDocs

open Text

/-! ## Cells -/

/-- Cut a row at the pipes that have no backslash directly in front of them. The row may itself
stand behind a backslash. -/
def cellsFrom (escaped : Bool) : Text → List Text
  | [] => [[]]
  | c :: cs =>
    if c = '|' ∧ escaped = false then [] :: cellsFrom false cs
    else consField c (cellsFrom (c == '\\') cs)

/-- The cells of a row, with the pieces in front of the first pipe and behind the last one. -/
def cells (row : Text) : List Text :=
  cellsFrom false row

/-- Put a pipe in the place of every escaped one. -/
def unescapeCell : Text → Text
  | [] => []
  | '\\' :: '|' :: cs => '|' :: unescapeCell cs
  | c :: cs => c :: unescapeCell cs

/-- A cell with one space on each side. -/
def padded (t : Text) : Text :=
  ' ' :: (t ++ [' '])

theorem cellsFrom_pipe (cs : Text) : cellsFrom false ('|' :: cs) = [] :: cellsFrom false cs := by
  rw [cellsFrom, if_pos ⟨rfl, rfl⟩]

/-- Only a pipe is where a cell ends. -/
theorem cellsFrom_of_ne {c : Char} (hc : c ≠ '|') (escaped : Bool) (cs : Text) :
    cellsFrom escaped (c :: cs) = consField c (cellsFrom (c == '\\') cs) := by
  rw [cellsFrom, if_neg fun h => hc h.1]

theorem escapeCell_pipe (cs : Text) : escapeCell ('|' :: cs) = '\\' :: '|' :: escapeCell cs := rfl

theorem escapeCell_of_ne {c : Char} (hc : c ≠ '|') (cs : Text) :
    escapeCell (c :: cs) = c :: escapeCell cs := by
  simp [escapeCell, hc]

/-- An escaped text does not start with a pipe, so neither does what follows a backslash in it. -/
theorem head?_escapeCell_append {t rest : Text} (hrest : rest.head? ≠ some '|') :
    (escapeCell t ++ rest).head? ≠ some '|' := by
  cases t with
  | nil => exact hrest
  | cons c t =>
    by_cases hc : c = '|'
    · rw [hc, escapeCell_pipe]
      simp
    · rw [escapeCell_of_ne hc]
      simpa using hc

/-- No cell ends inside an escaped text. -/
theorem cellsFrom_escapeCell {t rest first : Text} {others : List Text}
    (hrest : ∀ escaped, cellsFrom escaped rest = first :: others) (escaped : Bool) :
    cellsFrom escaped (escapeCell t ++ rest) = (escapeCell t ++ first) :: others := by
  induction t generalizing escaped with
  | nil => exact hrest escaped
  | cons c t ih =>
    by_cases hc : c = '|'
    · -- the pipe stands behind the backslash that was put in front of it
      have hpipe : cellsFrom true ('|' :: (escapeCell t ++ rest)) =
          consField '|' (cellsFrom false (escapeCell t ++ rest)) := by
        rw [cellsFrom, if_neg (by simp)]
        rfl
      rw [hc, escapeCell_pipe, List.cons_append, List.cons_append, cellsFrom_of_ne (by decide),
        show ('\\' == '\\') = true from rfl, hpipe, ih]
      rfl
    · rw [escapeCell_of_ne hc, List.cons_append, cellsFrom_of_ne hc, ih]
      rfl

theorem unescapeCell_pipe (cs : Text) :
    unescapeCell ('\\' :: '|' :: cs) = '|' :: unescapeCell cs := by
  rw [unescapeCell]

/-- What is no escaped pipe stays. -/
theorem unescapeCell_cons {c : Char} {cs : Text} (h : c = '\\' → cs.head? ≠ some '|') :
    unescapeCell (c :: cs) = c :: unescapeCell cs := by
  rw [unescapeCell]
  rintro rest rfl rfl
  exact h rfl rfl

/-- An escaped text is read back. -/
theorem unescapeCell_escapeCell {rest : Text} (hrest : rest.head? ≠ some '|') (t : Text) :
    unescapeCell (escapeCell t ++ rest) = t ++ unescapeCell rest := by
  induction t with
  | nil => rfl
  | cons c t ih =>
    by_cases hc : c = '|'
    · rw [hc, escapeCell_pipe, List.cons_append, List.cons_append, unescapeCell_pipe, ih]
      rfl
    · rw [escapeCell_of_ne hc, List.cons_append, unescapeCell_cons, ih]
      · rfl
      · exact fun _ => head?_escapeCell_append hrest

/-! ## Rows -/

/-- A row tells a parameter: between its outer pipes there are three cells, which hold the name, the
type as code and the description, with nothing but one space on each side of them. -/
structure Tells (row : Text) (p : Param) : Prop where
  pieces : (cells row).map unescapeCell =
    [[], padded p.name, padded (code p.type), padded p.description, []]
  name : Trimmed p.name
  type : Trimmed p.type
  description : Trimmed p.description

/-- The row of a parameter, cell by cell. -/
theorem paramRow_eq (p : Param) :
    paramRow p = '|' :: ' ' :: (escapeCell p.name ++ ' ' :: '|' :: ' ' :: '\x60' ::
      (escapeCell p.type ++ '\x60' :: ' ' :: '|' :: ' ' ::
        (escapeCell p.description ++ [' ', '|']))) := by
  unfold paramRow code
  simp only [List.append_assoc]
  rfl

theorem cells_paramRow (p : Param) :
    cells (paramRow p) =
      [[], padded (escapeCell p.name), padded (code (escapeCell p.type)),
        padded (escapeCell p.description), []] := by
  have hdescription : ∀ escaped, cellsFrom escaped [' ', '|'] = [[' '], []] := fun _ => rfl
  have htype : ∀ escaped, cellsFrom escaped ('\x60' :: ' ' :: '|' :: ' ' ::
      (escapeCell p.description ++ [' ', '|'])) =
      ['\x60', ' '] :: [padded (escapeCell p.description), []] := by
    intro escaped
    rw [cellsFrom_of_ne (by decide), cellsFrom_of_ne (by decide)]
    show consField _ (consField _ (cellsFrom false ('|' :: _))) = _
    rw [cellsFrom_pipe, cellsFrom_of_ne (by decide), cellsFrom_escapeCell hdescription]
    rfl
  have hname : ∀ escaped, cellsFrom escaped (' ' :: '|' :: ' ' :: '\x60' ::
      (escapeCell p.type ++ '\x60' :: ' ' :: '|' :: ' ' ::
        (escapeCell p.description ++ [' ', '|']))) =
      [' '] :: [padded (code (escapeCell p.type)), padded (escapeCell p.description), []] := by
    intro escaped
    rw [cellsFrom_of_ne (by decide)]
    show consField _ (cellsFrom false ('|' :: _)) = _
    rw [cellsFrom_pipe, cellsFrom_of_ne (by decide), cellsFrom_of_ne (by decide),
      cellsFrom_escapeCell htype]
    simp [consField, padded, code]
  rw [cells, paramRow_eq, cellsFrom_pipe, cellsFrom_of_ne (by decide), cellsFrom_escapeCell hname]
  rfl

/-- The row of a parameter tells the parameter. -/
theorem tells_paramRow {p : Param} (h : p.Tidy) : Tells (paramRow p) p := by
  refine ⟨?_, trimmed_of_isParamChar h.name, h.type, h.description⟩
  have hspace : ([' '] : Text).head? ≠ some '|' := by decide
  have htick : (['\x60', ' '] : Text).head? ≠ some '|' := by decide
  have hpadded : ∀ t, unescapeCell (padded (escapeCell t)) = padded t := by
    intro t
    rw [padded, unescapeCell_cons (by simp), unescapeCell_escapeCell hspace]
    rfl
  have hcode : unescapeCell (padded (code (escapeCell p.type))) = padded (code p.type) := by
    have heq : padded (code (escapeCell p.type)) =
        ' ' :: '\x60' :: (escapeCell p.type ++ ['\x60', ' ']) := by
      simp [padded, code]
    rw [heq, unescapeCell_cons (by simp), unescapeCell_cons (by simp),
      unescapeCell_escapeCell htick]
    simp [padded, code, unescapeCell]
  rw [cells_paramRow]
  simp only [List.map_cons, List.map_nil, hpadded, hcode]
  rfl

theorem not_mem_escapeCell {t : Text} (h : '\n' ∉ t) : '\n' ∉ escapeCell t := by
  intro hmem
  obtain ⟨c, hc, hfeed⟩ := List.mem_flatMap.1 hmem
  split at hfeed
  · simp at hfeed
  · obtain rfl : '\n' = c := by simpa using hfeed
    exact h hc

/-- The row of a parameter is one line. -/
theorem not_mem_paramRow {p : Param} (h : p.Tidy) : '\n' ∉ paramRow p := by
  have hname := not_mem_escapeCell (oneLine_of_isParamChar h.name).2
  have htype := not_mem_escapeCell h.type_oneLine.2
  have hdescription := not_mem_escapeCell h.description_oneLine.2
  rw [paramRow_eq]
  simp [hname, htype, hdescription]

/-! ## Pages with a table -/

/-- The lines of a page with a table in it: the header rows, one row for each parameter, and an
empty line. -/
def HasTable (page above below : List Text) (params : List Param) : Prop :=
  ∃ rows, page = above ++ paramHeader ++ rows ++ [] :: below ∧ List.Forall₂ Tells rows params

/-- The lines of an entry's section in front of the table. -/
def Entry.linesAbove (e : Entry) : List Text :=
  lines (unlines ([e.heading, []] ++ e.summaryLines))

/-- The lines of an entry's section behind the table. -/
def Entry.linesBelow (e : Entry) (language : Text) : List Text :=
  lines (unlines (e.sampleLines language ++ e.returnsLines ++ closingRule))

/-- The lines of the page of a class in front of the table. -/
def ClassFile.linesAbove (c : ClassFile) : List Text :=
  lines (unlines (c.titleLines ++ c.baseLines ++ c.entry.summaryLines))

/-- The lines of the page of a class behind the table. -/
def ClassFile.linesBelow (c : ClassFile) (language : Text) : List Text :=
  lines (trimRight (unlines (methodsHeading ++ c.methods.map (·.page language))))

theorem lines_unlines_paramTable {params : List Param} (h : ∀ p ∈ params, p.Tidy) :
    lines (unlines (paramTable params)) = paramHeader ++ params.map paramRow ++ [[]] := by
  refine lines_unlines (by simp [paramTable]) ?_
  intro line hline
  have hheader : ∀ l ∈ paramHeader, '\n' ∉ l := by decide
  simp only [paramTable, List.mem_append, List.mem_map, List.mem_singleton] at hline
  rcases hline with (hline | ⟨p, hp, rfl⟩) | rfl
  · exact hheader line hline
  · exact not_mem_paramRow (h p hp)
  · simp

/-- Each row of a table tells its parameter. -/
theorem forall₂_tells {params : List Param} (h : ∀ p ∈ params, p.Tidy) :
    List.Forall₂ Tells (params.map paramRow) params := by
  rw [List.forall₂_map_left_iff, List.forall₂_same]
  exact fun p hp => tells_paramRow (h p hp)

/-- The section of an entry has a table of its parameters. -/
theorem hasTable_of_tidy {e : Entry} (hne : e.params ≠ []) (h : ∀ p ∈ e.params, p.Tidy)
    (language : Text) :
    HasTable (lines (e.page language)) e.linesAbove (e.linesBelow language) e.params := by
  refine ⟨e.params.map paramRow, ?_, forall₂_tells h⟩
  have hparams : e.paramLines = paramTable e.params := by
    rw [Entry.paramLines, if_neg (by simpa using hne)]
  unfold Entry.linesAbove Entry.linesBelow
  rw [Entry.page, hparams, List.append_assoc _ e.returnsLines, List.append_assoc _ _ (_ ++ _),
    ← List.append_assoc (e.sampleLines language)]
  generalize habove : [e.heading, []] ++ e.summaryLines = above
  generalize hbelow : e.sampleLines language ++ e.returnsLines ++ Entry.closingRule = below
  have hfront : above ++ paramTable e.params ≠ [] := by simp [paramTable]
  have hback : below ≠ [] := by simp [← hbelow, Entry.closingRule]
  rw [lines_unlines_append hfront hback, lines_unlines_append (by simp [← habove])
    (by simp [paramTable]), lines_unlines_paramTable h]
  simp only [List.append_assoc, List.singleton_append]

/-- The first line of a text keeps its first character in front of the text. -/
theorem head?_unlines {first : Text} {c : Char} (h : first.head? = some c) (ls : List Text) :
    (unlines (first :: ls)).head? = some c := by
  cases ls with
  | nil => simpa [unlines] using h
  | cons second ls => simp [unlines, List.intercalate_cons_cons, List.head?_append, h]

/-- A page whose two parts start with visible characters is trimmed at the end of its second
part. -/
theorem trim_unlines_append {first first' : Text} {ls ls' : List Text} {c c' : Char}
    (hc : first.head? = some c) (hvisible : isBlank c = false)
    (hc' : first'.head? = some c') (hvisible' : isBlank c' = false) :
    trim (unlines ((first :: ls) ++ (first' :: ls'))) =
      unlines (first :: ls) ++ '\n' :: trimRight (unlines (first' :: ls')) := by
  rw [unlines_append (by simp) (by simp)]
  obtain ⟨front, hfront⟩ := List.head?_eq_some_iff.1 (head?_unlines hc ls)
  obtain ⟨back, hback⟩ := List.head?_eq_some_iff.1 (head?_unlines hc' ls')
  rw [hfront, hback, List.cons_append, trim_cons hvisible, trimRight_cons hvisible',
    ← List.singleton_append (l := c' :: back), ← List.append_assoc,
    trimRight_append_cons hvisible']
  simp

/-- The page of a class has a table of the parameters of the class. -/
theorem ClassFile.hasTable_of_tidy {c : ClassFile} (hne : c.entry.params ≠ [])
    (h : ∀ p ∈ c.entry.params, p.Tidy) (language : Text) :
    HasTable (lines (c.page language)) c.linesAbove (c.linesBelow language) c.entry.params := by
  refine ⟨c.entry.params.map paramRow, ?_, forall₂_tells h⟩
  have hparams : c.entry.paramLines = paramTable c.entry.params := by
    rw [Entry.paramLines, if_neg (by simpa using hne)]
  have htitle : ("# Class " ++ code c.name : Text).head? = some '#' := rfl
  have hmethods : ("## Methods" : Text).head? = some '#' := by decide
  have hpage : c.page language =
      unlines (c.titleLines ++ c.baseLines ++ c.entry.summaryLines ++ paramTable c.entry.params) ++
        '\n' :: trimRight (unlines (methodsHeading ++ c.methods.map (·.page language))) := by
    rw [ClassFile.page, hparams, List.append_assoc _ methodsHeading]
    exact trim_unlines_append htitle (by decide) hmethods (by decide)
  have hcut : ∀ t t' : Text, lines (t ++ '\n' :: t') = lines t ++ lines t' :=
    fun t t' => fields_append_sep (by decide) t t'
  rw [hpage, hcut, lines_unlines_append (by simp [ClassFile.titleLines]) (by simp [paramTable]),
    lines_unlines_paramTable h, ClassFile.linesAbove, ClassFile.linesBelow]
  simp only [List.append_assoc, List.singleton_append]

/-- **Tables do not break.** If a comment documents parameters, then the section of the comment and
the page of every class that is described by it have a table with exactly one line for each of them.
When the line is cut at the pipes that are not escaped, there are three cells between the outer
pipes, and from them the name, the type and the description of the parameter are read back. -/
theorem paramTable_unbroken {body name : Text}
    (h : (Reading.ofBody body name).entry.params ≠ []) (language : Text) :
    HasTable (lines ((Reading.ofBody body name).entry.page language))
        (Reading.ofBody body name).entry.linesAbove
        ((Reading.ofBody body name).entry.linesBelow language)
        (Reading.ofBody body name).entry.params ∧
      ∀ c : ClassFile, c.entry = (Reading.ofBody body name).entry →
        HasTable (lines (c.page language)) c.linesAbove (c.linesBelow language)
          (Reading.ofBody body name).entry.params := by
  have htidy : ∀ p ∈ (Reading.ofBody body name).entry.params, p.Tidy :=
    fun p hp => Reading.tidy_of_mem_params hp
  refine ⟨hasTable_of_tidy h htidy language, ?_⟩
  intro c hc
  rw [← hc] at h htidy ⊢
  exact ClassFile.hasTable_of_tidy h htidy language

/-- A comment with pipes and backslashes in all places where they can be. -/
def pipedComment : Text := " * @param \x7ba|b\x7d [x.y] - c\\|d|\n * @param \x7b|\\\x7d z - \\"

/-- Both parameters are read, and each has its row. -/
theorem piped_rows_unbroken :
    (Reading.ofBody pipedComment "f").entry.params =
        [⟨"x.y", "a|b", "c\\|d|", true⟩, ⟨"z", "|\\", "\\", false⟩] ∧
      HasTable (lines ((Reading.ofBody pipedComment "f").entry.page "js"))
        (Reading.ofBody pipedComment "f").entry.linesAbove
        ((Reading.ofBody pipedComment "f").entry.linesBelow "js")
        (Reading.ofBody pipedComment "f").entry.params := by
  have hparams : (Reading.ofBody pipedComment "f").entry.params =
      [⟨"x.y", "a|b", "c\\|d|", true⟩, ⟨"z", "|\\", "\\", false⟩] := by
    decide +kernel
  have hne : (Reading.ofBody pipedComment "f").entry.params ≠ [] := by
    rw [hparams]
    simp
  exact ⟨hparams, (paramTable_unbroken hne "js").1⟩

end ActionDocs
