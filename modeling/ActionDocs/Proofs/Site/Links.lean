import ActionDocs.Proofs.Site.TocItems

/-!
# Links to pages

A page is linked by the one line of the table of contents that stands for it. The text of the table
is a heading with the lines below it, so a link can be found in the text as well, as long as no name
goes over a line end.

- `LinkedOnce`: among all lines, one links a page.
- `linkedOnce_of_isPage`: a page that is found is linked once.
- `not_linkedOnce_pageSuffix`: a name that is nothing but the suffix of pages is not linked.
- `Node.Unbroken`, `linkedOnce_lines_iff`: what is linked in the text of the table.
- `isPage_concat_pageSuffix`: what it takes to be a page for a file with the suffix of pages.
-/

namespace ActionDocs

open Text TocItem

variable {entries : Entries}

/-! ## Links -/

/-- Among the lines of a table there is one that links a page. With its suffix, the link is the path
to the page, and read as a path it leads there. -/
def LinkedOnce (lines : List Text) (l : Location) : Prop :=
  ∃ link, link ++ pageSuffix = List.intercalate "/" l ∧
    Path.ofText ("./" ++ link ++ pageSuffix) = ⟨.here, l⟩ ∧
    lines.count (indent l.dropLast ++ "- [" ++ (Path.mk .here l).stem ++ "](./" ++ link ++ ")") = 1

/-- A page that is found is linked once, if no page has slashes in the names that lead to it. -/
theorem linkedOnce_of_isPage (h : (Node.dir entries).WellFormed)
    (hnamed : ∀ l, IsPage l → (∃ bytes, (Node.dir entries).file? l = some bytes) → l.Named)
    {l : Location} (hpage : IsPage l) (hl : ∃ bytes, (Node.dir entries).file? l = some bytes) :
    LinkedOnce (tocOf [] (Node.sortedEntries entries)) l := by
  have hplain := hnamed l hpage hl
  have hmem := (page_mem_listed_iff h).2 ⟨hpage, hl⟩
  have hlisted : ∀ m, .page m ∈ listed [] (Node.sortedEntries entries) → m.Named := by
    intro m hm
    obtain ⟨hm, hfile⟩ := (page_mem_listed_iff h).1 hm
    exact hnamed m hm hfile
  obtain ⟨above, name, rfl, hsuffix⟩ := hpage.exists_concat
  have hlink : List.intercalate "/" (above ++ [(splitSuffix name).1]) ++ pageSuffix =
      List.intercalate "/" (above ++ [name]) := link_append_pageSuffix hsuffix
  refine ⟨List.intercalate "/" (above ++ [(splitSuffix name).1]), hlink, ?_, ?_⟩
  · rw [List.append_assoc, hlink]
    exact Path.ofText_here (by simp) hplain
  · have hstem : (Path.mk .here (above ++ [name])).stem = (splitSuffix name).1 := by
      simp [Path.stem, Path.name]
    rw [List.dropLast_concat, hstem]
    exact count_eq_one h hlisted hmem (.page above name hsuffix hlink)

/-- No link is empty, since a page has a stem. -/
theorem TocItem.IsLabel.ne_of_nameless {above : Location} {name label : Text} {item : TocItem}
    (h : IsLabel above name item label) : label ≠ " [.md](./)" := by
  intro heq
  cases h with
  | folder => simp at heq
  | page hsuffix hlink =>
    -- the stem occurs twice in a label, so here there is room for a stem of one character only
    obtain ⟨front, hfront⟩ := exists_intercalate_concat "/" above
    rw [link_eq hsuffix hlink, hfront] at heq
    have hlength := congrArg List.length heq
    cases hstem : (splitSuffix name).1 with
    | nil =>
      refine splitSuffix_fst_ne_nil ?_ hstem
      rintro rfl
      exact absurd hsuffix (by decide)
    | cons c cs =>
      rw [hstem] at heq hlength
      cases cs with
      | nil => simp at heq
      | cons d ds =>
        simp at hlength
        omega

/-- The suffix of pages alone is the name of no page, so no line links a file with this name. -/
theorem not_linkedOnce_pageSuffix (entries : Entries) :
    ¬ LinkedOnce (tocOf [] entries) [pageSuffix] := by
  rintro ⟨link, hlink, -, honce⟩
  obtain rfl : link = [] := List.append_cancel_right (hlink : link ++ pageSuffix = [] ++ pageSuffix)
  obtain ⟨item, -, hline⟩ := exists_isLine_of_mem (List.count_pos_iff.1 (by rw [honce]; decide))
  obtain ⟨above, name, label, -, heq, hlabel⟩ := hline.exists_label
  have hdash : indent [] ++ '-' :: (" [.md](./)" : Text) = indent above ++ '-' :: label := heq
  exact hlabel.ne_of_nameless (indent_inj hdash).2.symm

/-! ## The text of the table -/

/-- A location without line feeds in its names. -/
def Location.Unbroken (l : Location) : Prop :=
  ∀ name ∈ l, '\n' ∉ name

/-- A tree without line feeds in its names. -/
def Node.Unbroken (root : Node) : Prop :=
  ∀ found ∈ Node.listing [] root, Location.Unbroken found.1

instance : DecidablePred Location.Unbroken :=
  fun l => inferInstanceAs (Decidable (∀ name ∈ l, '\n' ∉ name))

instance : DecidablePred Node.Unbroken :=
  fun root => inferInstanceAs (Decidable (∀ found ∈ Node.listing [] root, Location.Unbroken found.1))

theorem TocItem.IsLine.unbroken {item : TocItem} {line : Text} (h : IsLine item line)
    (hplain : item.place.Unbroken) : '\n' ∉ line := by
  have hindent : ∀ above, '\n' ∉ indent above := by
    intro above hmem
    exact absurd (List.eq_of_mem_replicate hmem) (by decide)
  cases h with
  | folder above name =>
    have hname := hplain name (by simp [place])
    simp [hindent above, hname]
  | @page above name link hsuffix hlink =>
    have hname := hplain name (by simp [place])
    have hstem : '\n' ∉ (splitSuffix name).1 := by
      intro hmem
      rw [← splitSuffix_append name] at hname
      exact hname (List.mem_append_left _ hmem)
    have hlink : '\n' ∉ link := by
      intro hmem
      have hpath := List.mem_append_left pageSuffix hmem
      rw [hlink] at hpath
      rcases mem_intercalate hpath with hslash | ⟨n, hn, hmem⟩
      · exact absurd hslash (by decide)
      · exact hplain n hn hmem
    simp [hindent above, hstem, hlink]

/-- If no name goes over a line end, then neither does a line. -/
theorem unbroken_of_mem_tocOf (h : (Node.dir entries).WellFormed)
    (hplain : (Node.dir entries).Unbroken) :
    ∀ line ∈ tocOf [] (Node.sortedEntries entries), '\n' ∉ line := by
  intro line hline
  obtain ⟨item, hitem, hline⟩ := exists_isLine_of_mem hline
  obtain ⟨l, node, -, hnode, hof⟩ := (mem_listed_iff h).1 hitem
  refine hline.unbroken ?_
  rw [place_of_ofNode? hof]
  exact hplain (l, node) ((Node.mem_listing_iff h).2 ⟨l, rfl, hnode⟩)

/-- The heading of the table. -/
def tocHeading : Text := "# 📚 Table of Contents"

/-- The lines in the text of the table. -/
theorem lines_tocPage (ls : List Text) :
    lines (tocPage ls) = tocHeading :: [] :: (lines (unlines ls) ++ [[]]) := by
  have hfront : ("# 📚 Table of Contents\n\n" : Text) = tocHeading ++ ['\n', '\n'] := by decide
  have hend : ("\n" : Text) = ['\n'] := rfl
  have hpage : tocPage ls = tocHeading ++ '\n' :: ([] ++ '\n' :: (unlines ls ++ '\n' :: [])) := by
    unfold tocPage
    rw [hfront, hend]
    simp
  have hcut : ∀ t rest : Text, lines (t ++ '\n' :: rest) = lines t ++ lines rest :=
    fields_append_sep rfl
  have hheading : lines tocHeading = [tocHeading] := by decide
  rw [hpage, hcut, hcut, hcut, hheading]
  rfl

/-- The lines of the table are found again in its text. -/
theorem count_lines_tocPage {ls : List Text} (hls : ∀ l ∈ ls, '\n' ∉ l) {line : Text}
    (hline : '-' ∈ line) : (lines (tocPage ls)).count line = ls.count line := by
  have hempty : [] ≠ line := (List.ne_nil_of_mem hline).symm
  have hheading : tocHeading ≠ line := by
    rintro rfl
    exact absurd hline (by decide)
  have hbody : (lines (unlines ls)).count line = ls.count line := by
    cases ls with
    | nil => exact List.count_cons_of_ne hempty
    | cons first ls => rw [lines_unlines (by simp) hls]
  rw [lines_tocPage, List.count_cons_of_ne hheading, List.count_cons_of_ne hempty,
    List.count_append, hbody, List.count_cons_of_ne hempty, List.count_nil, Nat.add_zero]

theorem linkedOnce_lines_iff {ls : List Text} (hls : ∀ l ∈ ls, '\n' ∉ l) (l : Location) :
    LinkedOnce (lines (tocPage ls)) l ↔ LinkedOnce ls l := by
  have hcount : ∀ link, (lines (tocPage ls)).count
      (indent l.dropLast ++ "- [" ++ (Path.mk .here l).stem ++ "](./" ++ link ++ ")") =
      ls.count (indent l.dropLast ++ "- [" ++ (Path.mk .here l).stem ++ "](./" ++ link ++ ")") :=
    fun link => count_lines_tocPage hls (by simp)
  simp only [LinkedOnce, hcount]

/-! ## Names of pages -/

theorem isName_pageName {stem : Text} (h : '/' ∉ stem) : IsName (stem ++ pageSuffix) := by
  have hsuffix : pageSuffix = ['.', 'm', 'd'] := by decide
  rw [hsuffix]
  refine ⟨?_, by simp [h]⟩
  cases stem with
  | nil => decide
  | cons c stem => simp [Path.isStep]

theorem isPage_concat_pageSuffix {above : Location} {stem : Text} (h : stem ≠ [])
    (htoc : above ++ [stem ++ pageSuffix] ≠ [tocName]) :
    IsPage (above ++ [stem ++ pageSuffix]) := by
  have hsuffix : pageSuffix = '.' :: ['m', 'd'] := by decide
  refine ⟨?_, htoc⟩
  have hname : (Path.mk .here (above ++ [stem ++ pageSuffix])).name = stem ++ pageSuffix := by
    simp [Path.name]
  rw [Path.suffix, hname, hsuffix, splitSuffix_of_dot (by decide), if_neg (by simp [h])]

end ActionDocs
