import ActionDocs.Page.File
import ActionDocs.Proofs.Text.Trim

/-!
# Pages of files and directories

A source text is documented on its own by `sourcePage`. The pages of a site are put together from
records that were read earlier; this file says that both come to the same.

- `isClassBased_eq`: a text is documented as a class if it gives the record of one.
- `sourcePage_of_class`, `sourcePage_of_flat`: the two ways in which a text is documented.
- `withModuleHeading_eq`: the headings of a directory are two chunks of their own.
- `directoryPage_eq`: the page of a directory is its headings and the sections of its files, with
  one empty line between any two of them.
-/

namespace ActionDocs

open Text

/-- What stands between two chunks of a page: the end of a line, and an empty line. -/
def chunkGap : Text := "\n\n"

/-- The heading that names the module of a directory. -/
def moduleHeading (moduleName : Text) : Text :=
  "# Module: " ++ code moduleName

/-- The heading of the sections of a directory. -/
def actionsHeading : Text := "## Actions"

/-! ## One source text -/

theorem isClassBased_eq (text moduleName : Text) :
    isClassBased text = (ClassFile.ofSource? text moduleName).isSome := by
  simp [isClassBased, ClassFile.ofSource?]

theorem sourcePage_of_class {text moduleName : Text} {record : ClassFile} {log : Log}
    (h : ClassFile.ofSource? text moduleName = some (record, log)) (name language : Text) :
    sourcePage text name moduleName language = record.page language := by
  simp [sourcePage, h]

theorem sourcePage_of_flat {text name : Text} (h : isClassBased text = false) (hname : name ≠ [])
    (moduleName language : Text) :
    sourcePage text name moduleName language =
      (ActionFile.ofSource text name moduleName).1.page language := by
  have hnone : ClassFile.ofSource? text moduleName = none := by
    rw [isClassBased_eq text moduleName] at h
    simpa using h
  simp [sourcePage, hnone, hname]

theorem ClassFile.trimmed_page (c : ClassFile) (language : Text) : Trimmed (c.page language) :=
  trimmed_trim _

theorem ActionFile.trimmed_page (f : ActionFile) (language : Text) : Trimmed (f.page language) :=
  trimmed_trim _

/-! ## The page of a directory -/

theorem moduleHeading_ne_nil (moduleName : Text) : moduleHeading moduleName ≠ [] := by
  have hhash : ("# Module: " : Text) ≠ [] := by decide
  unfold moduleHeading
  exact List.append_ne_nil_of_left_ne_nil hhash _

/-- The heading starts with a hash and ends with a backquote, whatever the module is called. -/
theorem trimmed_moduleHeading (moduleName : Text) : Trimmed (moduleHeading moduleName) := by
  have hfront : ("# Module: " : Text).head? = some '#' := by decide
  have hback : ("\x60" : Text).getLast? = some '\x60' := by decide
  have hends := Trimmed.of_ends hfront hback (by decide) (by decide) (("\x60" : Text) ++ moduleName)
  rw [List.append_assoc] at hends
  exact hends

theorem trimmed_actionsHeading : Trimmed actionsHeading := by
  decide

theorem actionsHeading_ne_nil : actionsHeading ≠ [] := by
  decide

theorem chunkGap_blank : ∀ c ∈ chunkGap, isBlank c = true :=
  List.all_eq_true.1 (by decide)

/-- The headings are chunks of their own, whether sections follow or not. -/
theorem withModuleHeading_eq (moduleName : Text) {sections : Text} (h : Trimmed sections) :
    withModuleHeading moduleName sections =
      List.intercalate chunkGap (moduleHeading moduleName :: actionsHeading ::
        [sections].filter (!·.isEmpty)) := by
  have hfront : Trimmed (moduleHeading moduleName ++ chunkGap ++ actionsHeading) :=
    (trimmed_moduleHeading moduleName).append trimmed_actionsHeading
      (moduleHeading_ne_nil moduleName) actionsHeading_ne_nil chunkGap
  have hne : moduleHeading moduleName ++ chunkGap ++ actionsHeading ≠ [] := by
    simp [moduleHeading_ne_nil]
  have hmiddle : ("\n\n## Actions\n\n" : Text) = chunkGap ++ actionsHeading ++ chunkGap := by
    decide
  have hform : withModuleHeading moduleName sections =
      trim (moduleHeading moduleName ++ chunkGap ++ actionsHeading ++ (chunkGap ++ sections)) := by
    unfold withModuleHeading
    rw [hmiddle]
    show trim (moduleHeading moduleName ++ (chunkGap ++ actionsHeading ++ chunkGap) ++ sections) = _
    simp only [List.append_assoc]
  rw [hform]
  by_cases hempty : sections = []
  · subst hempty
    rw [List.append_nil, trim_append_of_blank hfront hne chunkGap_blank]
    simp [List.intercalate_cons_cons]
  · have hwhole := hfront.append h hne hempty chunkGap
    rw [← List.append_assoc, trim_eq_self hwhole]
    simp [List.intercalate_cons_cons, hempty]

/-- The headings and the sections of a directory are chunks that neither start nor end with a
blank. -/
theorem trimmed_chunks (moduleName : Text) (files : List ActionFile) (language : Text) :
    ∀ chunk ∈ moduleHeading moduleName :: actionsHeading ::
      (files.map (·.page language)).filter (!·.isEmpty), chunk ≠ [] ∧ Trimmed chunk := by
  intro chunk hchunk
  rcases List.mem_cons.1 hchunk with rfl | hchunk
  · exact ⟨moduleHeading_ne_nil _, trimmed_moduleHeading _⟩
  rcases List.mem_cons.1 hchunk with rfl | hchunk
  · exact ⟨actionsHeading_ne_nil, trimmed_actionsHeading⟩
  obtain ⟨hpage, hne⟩ := List.mem_filter.1 hchunk
  obtain ⟨file, -, rfl⟩ := List.mem_map.1 hpage
  exact ⟨by simpa using hne, file.trimmed_page language⟩

/-- The page of a directory is its headings and the sections of its files, as far as they have any,
with one empty line between any two of them. -/
theorem directoryPage_eq (first : ActionFile) (others : List ActionFile) (language : Text) :
    directoryPage (first :: others) language =
      List.intercalate chunkGap (moduleHeading first.moduleName :: actionsHeading ::
        ((first :: others).map (·.page language)).filter (!·.isEmpty)) := by
  have hchunks := trimmed_chunks first.moduleName (first :: others) language
  have htop := withModuleHeading_eq first.moduleName (first.trimmed_page language)
  have htopne : withModuleHeading first.moduleName (first.page language) ≠ [] := by
    rw [htop]
    simp [List.intercalate_cons_cons, moduleHeading_ne_nil]
  have hform : List.intercalate chunkGap
      ((withModuleHeading first.moduleName (first.page language) ::
        others.map (·.page language)).filter (!·.isEmpty)) =
      List.intercalate chunkGap (moduleHeading first.moduleName :: actionsHeading ::
        ((first :: others).map (·.page language)).filter (!·.isEmpty)) := by
    have hsplit : ((first :: others).map (·.page language)).filter (!·.isEmpty) =
        [first.page language].filter (!·.isEmpty) ++
          (others.map (·.page language)).filter (!·.isEmpty) := by
      rw [← List.filter_append, List.map_cons, List.singleton_append]
    rw [List.filter_cons_of_pos (by simpa using htopne), htop,
      intercalate_flatten_head chunkGap (by simp), hsplit]
    simp only [List.cons_append]
  show trim (List.intercalate chunkGap _) = _
  rw [hform, trim_eq_self (trimmed_intercalate chunkGap hchunks)]

end ActionDocs
