import ActionDocs.Proofs.Disk.Names
import ActionDocs.Proofs.Disk.Preorder
import ActionDocs.Site.Toc
import Mathlib.Data.List.Forall2

/-!
# What the table of contents lists

The lines of the table of contents stand for directories and pages. They are listed as the whole
tree is: a directory in front of what is in it, and otherwise by name. So the indentation of a line
leads back to the directory it stands in, and from the lines alone it can be told what they stand
for.

- `TocItem`, `TocItem.IsLine`: what a line stands for, and the line itself.
- `TocItem.forall₂_isLine`: the lines of the table stand for the directories and pages of the tree.
- `TocItem.Follow`: each item stands in one of the directories that lead to the item before it.
- `TocItem.eq_of_forall₂_isLine`: the lines tell what they stand for.
- `TocItem.count_eq_one`: a page has one line among all of them.
-/

namespace ActionDocs

open Text

/-- What a line of the table of contents stands for. -/
inductive TocItem where
  | folder (place : Location)
  | page (place : Location)
  deriving DecidableEq

namespace TocItem

/-- Where the directory or the page is. -/
def place : TocItem → Location
  | .folder l => l
  | .page l => l

/-- The directory that the next item may stand in. -/
def opened : TocItem → Location
  | .folder l => l
  | .page l => l.dropLast

/-- The indentation of what stands in a directory: two spaces for each level. -/
def indent (above : Location) : Text :=
  List.replicate (2 * above.length) ' '

/-- A line stands for a directory or a page. With its suffix, the link is the path to the page. -/
inductive IsLine : TocItem → Text → Prop where
  | folder (above : Location) (name : Text) :
    IsLine (.folder (above ++ [name])) (indent above ++ "- **" ++ name ++ "**")
  | page (above : Location) (name : Text) {link : Text}
      (hsuffix : (splitSuffix name).2 = pageSuffix)
      (hlink : link ++ pageSuffix = List.intercalate "/" (above ++ [name])) :
    IsLine (.page (above ++ [name]))
      (indent above ++ "- [" ++ (splitSuffix name).1 ++ "](./" ++ link ++ ")")

/-- A location is that of a page if it has the suffix of pages. The table of contents itself does
not count. -/
def IsPage (l : Location) : Prop :=
  (Path.mk .here l).suffix = pageSuffix ∧ l ≠ [tocName]

instance (l : Location) : Decidable (IsPage l) :=
  inferInstanceAs (Decidable (_ ∧ _))

/-- What has the suffix of pages has a name. -/
theorem IsPage.exists_concat {l : Location} (h : IsPage l) :
    ∃ above name, l = above ++ [name] ∧ (splitSuffix name).2 = pageSuffix := by
  rcases List.eq_nil_or_concat' l with rfl | ⟨above, name, rfl⟩
  · exact absurd h.1 (by decide)
  · exact ⟨above, name, rfl, by simpa [Path.suffix, Path.name] using h.1⟩

/-- What is listed for a node: all directories, and the files that are pages. -/
def ofNode? : Location × Node → Option TocItem
  | (l, .dir _) => some (.folder l)
  | (l, .file _) => if IsPage l then some (.page l) else none

theorem place_of_ofNode? {found : Location × Node} {item : TocItem}
    (h : ofNode? found = some item) : item.place = found.1 := by
  obtain ⟨l, node⟩ := found
  cases node with
  | dir sub =>
    obtain rfl := Option.some.inj h
    rfl
  | file bytes =>
    obtain ⟨-, rfl⟩ : IsPage l ∧ TocItem.page l = item := by simpa [ofNode?] using h
    rfl

/-- What is listed for a list of entries. -/
def listed (here : Location) (entries : Entries) : List TocItem :=
  (Node.listingOf here entries).filterMap ofNode?

/-! ## The lines -/

theorem isPage_concat {above : Location} {name : Text} :
    IsPage (above ++ [name]) ↔ isListed above name = true := by
  simp [IsPage, isListed, Path.suffix, Path.name]

theorem isLine_dirLine (above : Location) (name : Text) :
    IsLine (.folder (above ++ [name])) (dirLine above.length name) :=
  .folder above name

/-- In front of the last name a joined path does not depend on it. -/
theorem exists_intercalate_concat (sep : Text) (above : Location) :
    ∃ front, ∀ name, List.intercalate sep (above ++ [name]) = front ++ name := by
  cases above with
  | nil => exact ⟨[], fun name => by simp⟩
  | cons first above =>
    refine ⟨List.intercalate sep (first :: above) ++ sep, fun name => ?_⟩
    rw [intercalate_append sep (by simp) (by simp), List.intercalate_singleton]

/-- With its suffix, the link is the path to the page. -/
theorem link_append_pageSuffix {above : Location} {name : Text}
    (hsuffix : (splitSuffix name).2 = pageSuffix) :
    List.intercalate "/" (above ++ [(splitSuffix name).1]) ++ pageSuffix =
      List.intercalate "/" (above ++ [name]) := by
  obtain ⟨front, hfront⟩ := exists_intercalate_concat "/" above
  have hname := splitSuffix_append name
  rw [hsuffix] at hname
  rw [hfront, hfront, List.append_assoc, hname]

/-- No other link is. -/
theorem link_eq {above : Location} {name link : Text} (hsuffix : (splitSuffix name).2 = pageSuffix)
    (hlink : link ++ pageSuffix = List.intercalate "/" (above ++ [name])) :
    link = List.intercalate "/" (above ++ [(splitSuffix name).1]) :=
  List.append_cancel_right (hlink.trans (link_append_pageSuffix hsuffix).symm)

theorem isLine_pageLine {above : Location} {name : Text}
    (hsuffix : (splitSuffix name).2 = pageSuffix) :
    IsLine (.page (above ++ [name])) (pageLine above name) :=
  .page above name hsuffix (link_append_pageSuffix hsuffix)

mutual

theorem forall₂_isLine_node (here : Location) (name : Text) : ∀ node : Node,
    List.Forall₂ IsLine ((Node.listing (here ++ [name]) node).filterMap ofNode?)
      (tocOfNode here name node)
  | .file bytes => by
    rw [Node.listing, tocOfNode]
    by_cases hlisted : isListed here name = true
    · have hsuffix : (splitSuffix name).2 = pageSuffix := by
        rw [isListed, Bool.and_eq_true, beq_iff_eq] at hlisted
        exact hlisted.1
      simp only [List.filterMap_cons, List.filterMap_nil, ofNode?, isPage_concat, hlisted, if_true]
      exact .cons (isLine_pageLine hsuffix) .nil
    · simp [ofNode?, isPage_concat, hlisted]
  | .dir entries => by
    rw [Node.listing, tocOfNode]
    exact .cons (isLine_dirLine here name) (forall₂_isLine (here ++ [name]) entries)

/-- The lines of the table of contents stand for the directories and pages of the tree, one after
the other. -/
theorem forall₂_isLine (here : Location) : ∀ entries : Entries,
    List.Forall₂ IsLine (listed here entries) (tocOf here entries)
  | [] => .nil
  | (name, node) :: entries => by
    rw [listed, Node.listingOf, tocOf, List.filterMap_append]
    exact List.rel_append (forall₂_isLine_node here name node) (forall₂_isLine here entries)

end

/-- Each line of the table stands for one of the items. -/
theorem exists_isLine_of_mem {here : Location} {entries : Entries} {line : Text}
    (h : line ∈ tocOf here entries) : ∃ item ∈ listed here entries, IsLine item line := by
  obtain ⟨hlength, hlines⟩ := List.forall₂_iff_get.1 (forall₂_isLine here entries)
  obtain ⟨i, hi, rfl⟩ := List.mem_iff_getElem.1 h
  exact ⟨_, List.getElem_mem (hlength ▸ hi), hlines i (hlength ▸ hi) hi⟩

/-! ## What is listed -/

variable {entries : Entries}

/-- Items are listed in the order of their locations. -/
theorem pairwise_listed (h : (Node.dir entries).WellFormed) (here : Location) :
    (listed here (Node.sortedEntries entries)).Pairwise fun item item' =>
      Location.Precedes item.place item'.place := by
  refine List.Pairwise.filterMap _ ?_ (Node.pairwise_listingOf h here)
  intro found found' hfound item hitem item' hitem'
  rw [place_of_ofNode? hitem, place_of_ofNode? hitem']
  exact hfound

/-- Items in this order are not repeated. -/
theorem nodup_of_precedes {items : List TocItem} (h : items.Pairwise fun item item' =>
    Location.Precedes item.place item'.place) : items.Nodup := by
  refine h.imp ?_
  rintro item _ hprecedes rfl
  exact hprecedes.ne rfl

theorem mem_listed_iff (h : (Node.dir entries).WellFormed) {item : TocItem} :
    item ∈ listed [] (Node.sortedEntries entries) ↔
      ∃ l node, l ≠ [] ∧ (Node.dir entries).get? l = some node ∧
        ofNode? (l, node.sorted) = some item := by
  have hsorted : ∀ l, (Node.dir (Node.sortedEntries entries)).get? l =
      ((Node.dir entries).get? l).map Node.sorted := by
    intro l
    rw [← Node.get?_sorted h, Node.sorted]
  have hwf : (Node.dir (Node.sortedEntries entries)).WellFormed := h.sorted
  rw [listed, List.mem_filterMap]
  constructor
  · rintro ⟨⟨l, found⟩, hmem, hitem⟩
    obtain ⟨l, hne, rfl, hget⟩ := (Node.mem_listingOf_iff hwf).1 hmem
    rw [hsorted, Option.map_eq_some_iff] at hget
    obtain ⟨node, hnode, rfl⟩ := hget
    exact ⟨l, node, hne, hnode, hitem⟩
  · rintro ⟨l, node, hne, hnode, hitem⟩
    refine ⟨(l, node.sorted), (Node.mem_listingOf_iff hwf).2 ⟨l, hne, rfl, ?_⟩, hitem⟩
    rw [hsorted, hnode]
    rfl

/-- The directories that are listed are those that are found, apart from the topmost one. -/
theorem folder_mem_listed_iff (h : (Node.dir entries).WellFormed) {l : Location} :
    .folder l ∈ listed [] (Node.sortedEntries entries) ↔
      l ≠ [] ∧ ∃ sub, (Node.dir entries).get? l = some (.dir sub) := by
  rw [mem_listed_iff h]
  constructor
  · rintro ⟨l', node, hne, hnode, hitem⟩
    cases node with
    | file bytes => simp [Node.sorted, ofNode?] at hitem
    | dir sub =>
      obtain rfl : l' = l := by simpa [Node.sorted, ofNode?] using hitem
      exact ⟨hne, sub, hnode⟩
  · rintro ⟨hne, sub, hsub⟩
    exact ⟨l, .dir sub, hne, hsub, rfl⟩

/-- The pages that are listed are those that are found. -/
theorem page_mem_listed_iff (h : (Node.dir entries).WellFormed) {l : Location} :
    .page l ∈ listed [] (Node.sortedEntries entries) ↔
      IsPage l ∧ ∃ bytes, (Node.dir entries).file? l = some bytes := by
  rw [mem_listed_iff h]
  constructor
  · rintro ⟨l', node, hne, hnode, hitem⟩
    cases node with
    | dir sub => simp [Node.sorted, ofNode?] at hitem
    | file bytes =>
      obtain ⟨hpage, rfl⟩ : IsPage l' ∧ l' = l := by simpa [Node.sorted, ofNode?] using hitem
      exact ⟨hpage, bytes, Node.file?_eq_some_iff.2 hnode⟩
  · rintro ⟨hpage, bytes, hfile⟩
    rw [Node.file?_eq_some_iff] at hfile
    refine ⟨l, .file bytes, ?_, hfile, ?_⟩
    · rintro rfl
      cases hfile
    · rw [Node.sorted, ofNode?, if_pos hpage]

/-! ## Reading the lines -/

/-- Each item stands in the given directory or one above it, or in those that the item in front of
it opens. -/
def Follow : Location → List TocItem → Prop
  | _, [] => True
  | last, item :: items =>
    item.place.dropLast <+: last ∧ Follow item.opened items

mutual

theorem follow_listing {here last : Location} {name : Text} {rest : List TocItem}
    (hlast : here <+: last) (hrest : ∀ last', here <+: last' → Follow last' rest) : ∀ node : Node,
    Follow last ((Node.listing (here ++ [name]) node).filterMap ofNode? ++ rest)
  | .file bytes => by
    rw [Node.listing]
    by_cases hpage : IsPage (here ++ [name])
    · simp only [List.filterMap_cons, List.filterMap_nil, ofNode?, hpage, if_true,
        List.singleton_append]
      exact ⟨by simpa [place] using hlast, hrest _ (by simp [opened])⟩
    · simpa [ofNode?, hpage] using hrest last hlast
  | .dir entries => by
    rw [Node.listing]
    refine ⟨by simpa [place] using hlast, ?_⟩
    -- behind what is in the directory, the directory is still open
    refine follow_listed (List.prefix_refl _) (fun last' hlast' => ?_) entries
    exact hrest last' ((List.prefix_append here [name]).trans hlast')

theorem follow_listed {here last : Location} {rest : List TocItem} (hlast : here <+: last)
    (hrest : ∀ last', here <+: last' → Follow last' rest) : ∀ entries : Entries,
    Follow last (listed here entries ++ rest)
  | [] => hrest last hlast
  | (name, node) :: entries => by
    rw [listed, Node.listingOf, List.filterMap_append, List.append_assoc]
    exact follow_listing hlast (fun last' hlast' => follow_listed hlast' hrest entries) node

end

/-- A line tells how far it is indented. -/
theorem indent_inj {above above' : Location} {t t' : Text}
    (h : indent above ++ '-' :: t = indent above' ++ '-' :: t') :
    above.length = above'.length ∧ t = t' := by
  have hplain : ∀ l : Location, '-' ∉ indent l := by
    intro l hmem
    exact absurd (List.eq_of_mem_replicate hmem) (by decide)
  obtain ⟨hspaces, ht⟩ := piece_unique (hplain above) (hplain above') h
  have hlength := congrArg List.length hspaces
  rw [indent, indent, List.length_replicate, List.length_replicate] at hlength
  exact ⟨by omega, ht⟩

/-- What stands behind the dash of a line. -/
inductive IsLabel (above : Location) (name : Text) : TocItem → Text → Prop where
  | folder : IsLabel above name (.folder (above ++ [name])) (" **" ++ name ++ "**")
  | page {link : Text} (hsuffix : (splitSuffix name).2 = pageSuffix)
      (hlink : link ++ pageSuffix = List.intercalate "/" (above ++ [name])) :
    IsLabel above name (.page (above ++ [name]))
      (" [" ++ (splitSuffix name).1 ++ "](./" ++ link ++ ")")

/-- A line consists of the indentation, a dash and the label. -/
theorem IsLine.exists_label {item : TocItem} {line : Text} (h : IsLine item line) :
    ∃ above name label, item.place = above ++ [name] ∧ line = indent above ++ '-' :: label ∧
      IsLabel above name item label := by
  cases h with
  | folder above name =>
    exact ⟨above, name, _, rfl, by simp, .folder⟩
  | page above name hsuffix hlink =>
    exact ⟨above, name, _, rfl, by simp, .page hsuffix hlink⟩

namespace IsLabel

/-- In one directory, labels tell what they stand for. -/
theorem unique {above : Location} {name name' label label' : Text} {item item' : TocItem}
    (h : IsLabel above name item label) (h' : IsLabel above name' item' label')
    (heq : label = label') : item = item' := by
  cases h with
  | folder =>
    cases h' with
    | folder =>
      obtain rfl : name = name' := List.append_cancel_left (List.append_cancel_right heq)
      rfl
    | page _ _ => simp at heq
  | page hsuffix hlink =>
    cases h' with
    | folder => simp at heq
    | page hsuffix' hlink' =>
      -- the stem occurs twice in a label, so the labels have the same length only if the stems have
      obtain ⟨front, hfront⟩ := exists_intercalate_concat "/" above
      rw [link_eq hsuffix hlink, link_eq hsuffix' hlink', hfront, hfront] at heq
      have hlength := congrArg List.length heq
      simp only [List.length_append] at hlength
      have hstem : (splitSuffix name).1 = (splitSuffix name').1 := by
        simp only [List.append_assoc, List.append_cancel_left_eq] at heq
        exact (List.append_inj heq (by omega)).1
      have hname : name = name' := by
        rw [← splitSuffix_append name, ← splitSuffix_append name', hstem, hsuffix, hsuffix']
      rw [hname]

/-- Wherever they stand, the labels of pages tell which page it is, unless there are slashes in the
names. -/
theorem eq_page {above above' l : Location} {name name' label label' : Text} {item : TocItem}
    (h : IsLabel above name (.page l) label) (h' : IsLabel above' name' item label')
    (heq : label = label') (hl : l.Named) (hitem : ∀ l', item = .page l' → l'.Named) :
    item = .page l := by
  have hplain : ∀ {name : Text}, IsName name → '/' ∉ (splitSuffix name).1 ++ "](." := by
    intro name hname hmem
    rcases List.mem_append.1 hmem with hmem | hmem
    · exact hname.not_mem_stem hmem
    · exact absurd hmem (by decide)
  cases h with
  | page hsuffix hlink =>
    cases h' with
    | folder => simp at heq
    | @page link' hsuffix' hlink' =>
      have hl' := hitem _ rfl
      -- the link begins behind the first slash
      have hcut : ∀ stem link : Text, (" [" : Text) ++ stem ++ "](./" ++ link ++ ")" =
          " [" ++ ((stem ++ "](.") ++ '/' :: (link ++ ")")) := by
        intro stem link
        simp
      rw [hcut, hcut] at heq
      obtain ⟨-, hrest⟩ := piece_unique (hplain (hl name (by simp)))
        (hplain (hl' name' (by simp))) (List.append_cancel_left heq)
      have hlinks := List.append_cancel_right hrest
      have hpaths := congrArg (· ++ pageSuffix) hlinks
      simp only [hlink, hlink'] at hpaths
      have hplaces := congrArg (fields (· == '/')) hpaths
      rw [hl.fields_intercalate (by simp), hl'.fields_intercalate (by simp)] at hplaces
      rw [hplaces]

end IsLabel

/-- In the directories that are open, lines tell what they stand for. -/
theorem IsLine.unique {last : Location} {item item' : TocItem} {line : Text} (h : IsLine item line)
    (h' : IsLine item' line) (hopen : item.place.dropLast <+: last)
    (hopen' : item'.place.dropLast <+: last) : item = item' := by
  obtain ⟨above, name, label, hplace, hline, hlabel⟩ := h.exists_label
  obtain ⟨above', name', label', hplace', hline', hlabel'⟩ := h'.exists_label
  rw [hplace, List.dropLast_concat] at hopen
  rw [hplace', List.dropLast_concat] at hopen'
  obtain ⟨hdepth, hsame⟩ := indent_inj (hline.symm.trans hline')
  obtain rfl : above = above' :=
    (List.prefix_of_prefix_length_le hopen hopen' hdepth.le).eq_of_length hdepth
  exact hlabel.unique hlabel' hsame

/-- The lines tell what they stand for. -/
theorem eq_of_forall₂_isLine {last : Location} {items items' : List TocItem} {lines : List Text}
    (h : List.Forall₂ IsLine items lines) (h' : List.Forall₂ IsLine items' lines)
    (hfollow : Follow last items) (hfollow' : Follow last items') : items = items' := by
  induction h generalizing last items' with
  | nil =>
    cases h' with
    | nil => rfl
  | @cons item line items lines hitem _ ih =>
    cases h' with
    | @cons item' _ items' _ hitem' hrest' =>
      obtain ⟨hopen, hfollow⟩ := hfollow
      obtain ⟨hopen', hfollow'⟩ := hfollow'
      obtain rfl := hitem.unique hitem' hopen hopen'
      rw [ih hrest' hfollow hfollow']

/-- Directories with the same lines have the same items. -/
theorem listed_eq_of_tocOf_eq {entries entries' : Entries}
    (h : tocOf [] entries = tocOf [] entries') : listed [] entries = listed [] entries' := by
  have hfollow : ∀ list : Entries, Follow [] (listed [] list) := by
    intro list
    have hnil : ∀ last : Location, [] <+: last → Follow last [] := fun _ _ => trivial
    have hlist := follow_listed (List.prefix_refl []) hnil list
    rwa [List.append_nil] at hlist
  refine eq_of_forall₂_isLine (forall₂_isLine [] entries) ?_ (hfollow entries) (hfollow entries')
  rw [h]
  exact forall₂_isLine [] entries'

/-! ## One line for each page -/

/-- An item has one line. -/
theorem rightUnique_isLine : Relator.RightUnique IsLine := by
  intro item line line' h h'
  cases h with
  | folder above name =>
    generalize hitem : TocItem.folder (above ++ [name]) = item at h'
    cases h' with
    | folder above' name' =>
      obtain ⟨rfl, rfl⟩ : above = above' ∧ name = name' := by simpa using hitem
      rfl
    | page _ _ _ _ => cases hitem
  | page above name hsuffix hlink =>
    generalize hitem : TocItem.page (above ++ [name]) = item at h'
    cases h' with
    | folder _ _ => cases hitem
    | page above' name' hsuffix' hlink' =>
      obtain ⟨rfl, rfl⟩ : above = above' ∧ name = name' := by simpa using hitem
      obtain rfl := List.append_cancel_right (hlink.trans hlink'.symm)
      rfl

theorem IsLine.eq_page {l : Location} {item : TocItem} {line : Text} (h : IsLine (.page l) line)
    (h' : IsLine item line) (hl : l.Named) (hitem : ∀ l', item = .page l' → l'.Named) :
    item = .page l := by
  obtain ⟨above, name, label, -, hline, hlabel⟩ := h.exists_label
  obtain ⟨above', name', label', -, hline', hlabel'⟩ := h'.exists_label
  exact hlabel.eq_page hlabel' (indent_inj (hline.symm.trans hline')).2 hl hitem

theorem countP_eq_of_forall₂ {α β : Type} {R : α → β → Prop} {p : α → Bool} {q : β → Bool}
    {xs : List α} {ys : List β} (h : List.Forall₂ R xs ys)
    (hsame : ∀ x ∈ xs, ∀ y, R x y → p x = q y) : xs.countP p = ys.countP q := by
  induction h with
  | nil => rfl
  | @cons x y xs ys hxy _ ih =>
    rw [List.countP_cons, List.countP_cons, ih fun x' hx' => hsame x' (by simp [hx']),
      hsame x (by simp) y hxy]

/-- A page that is listed has one line among all of them, if no page has slashes in the names that
lead to it. -/
theorem count_eq_one (h : (Node.dir entries).WellFormed)
    (hnamed : ∀ l, .page l ∈ listed [] (Node.sortedEntries entries) → l.Named) {l : Location}
    (hl : .page l ∈ listed [] (Node.sortedEntries entries)) {line : Text}
    (hline : IsLine (.page l) line) : (tocOf [] (Node.sortedEntries entries)).count line = 1 := by
  have hsame : ∀ item ∈ listed [] (Node.sortedEntries entries), ∀ line', IsLine item line' →
      (item == .page l) = (line' == line) := by
    intro item hitem line' hline'
    rw [Bool.eq_iff_iff, beq_iff_eq, beq_iff_eq]
    constructor
    · rintro rfl
      exact rightUnique_isLine hline' hline
    · rintro rfl
      exact hline.eq_page hline' (hnamed l hl) fun l' hl' => hnamed l' (hl' ▸ hitem)
  rw [List.count, ← countP_eq_of_forall₂ (forall₂_isLine [] _) hsame]
  exact List.count_eq_one_of_mem (nodup_of_precedes (pairwise_listed h [])) hl

end TocItem

end ActionDocs
