import ActionDocs.Proofs.ModuleName.Root
import ActionDocs.Proofs.Text.Front

/-!
# The module of a file below the source root

A path that leads through the source root, on through further directories and to a file names the
module of the file completely. What the names look like does not matter: they may hold dots, end
like the extension, or repeat the root. Only the first place where the root stands in the path
counts.

- `Spells`: a text is made up of names with a separator behind each of them.
- `LeadsInto`: a text starts with the names of a root, written in this way.
- `directoryOf?_append`, `belowRoot?_append`, `baseName_append`: what is read off a path that is put
  together from these parts.
- `moduleName_below`: the module of a file below the root.
-/

namespace ActionDocs

open Text

/-! ## Names in a text -/

/-- A text is made up of the given names, in their order, with one separator behind each of them. -/
def Spells (names : List Text) (t : Text) : Prop :=
  fields isSeparator t = names ++ [[]]

instance (names : List Text) (t : Text) : Decidable (Spells names t) :=
  inferInstanceAs (Decidable (_ = _))

/-- A text that spells names is the text between their separators and the last separator. -/
theorem Spells.exists_concat {names : List Text} {t : Text} (h : Spells names t)
    (hne : names ≠ []) :
    ∃ front s, isSeparator s = true ∧ t = front ++ [s] ∧ fields isSeparator front = names := by
  obtain ⟨front, s, behind, hs, rfl, hfront, hbehind⟩ :=
    exists_of_fields_eq_append h hne (by simp)
  obtain rfl := eq_of_fields_eq_singleton hbehind
  exact ⟨front, s, hs, rfl, hfront⟩

/-- A text starts with the names of a root, each of them with one separator behind it. -/
def LeadsInto (root : List Text) (t : Text) : Prop :=
  ∃ way rest, t = way ++ rest ∧ Spells root way

theorem isSome_afterRoot?_iff {root : List Text} (hroot : AreSegments root) {t : Text} :
    (afterRoot? root t).isSome ↔ LeadsInto root t := by
  rw [Option.isSome_iff_exists]
  constructor
  · rintro ⟨rest, h⟩
    obtain ⟨way, ht, hway⟩ := (afterRoot?_eq_some_iff hroot).1 h
    exact ⟨way, rest, ht, hway⟩
  · rintro ⟨way, rest, ht, hway⟩
    exact ⟨rest, (afterRoot?_eq_some_iff hroot).2 ⟨way, ht, hway⟩⟩

instance (sourceRoot t : Text) : Decidable (LeadsInto (segments sourceRoot) t) :=
  decidable_of_iff _ (isSome_afterRoot?_iff (areSegments_segments sourceRoot))

/-! ## Reading a path -/

theorem dropEnding?_append (front ending : Text) :
    dropEnding? ending (front ++ ending) = some front := by
  have hending : ending.isSuffixOf (front ++ ending) = true :=
    List.isSuffixOf_iff_suffix.2 (List.suffix_append front ending)
  rw [dropEnding?, if_pos hending]
  simp

/-- The directory of a file is what stands in front of the separator before its name. -/
theorem directoryOf?_append {s : Char} (hs : isSeparator s = true) {base : Text} (hne : base ≠ [])
    (hbase : ∀ c ∈ base, isSeparator c = false) (dir extension : Text) :
    directoryOf? extension (dir ++ s :: (base ++ extension)) = some dir := by
  have hpath : dir ++ s :: (base ++ extension) = (dir ++ s :: base) ++ extension := by simp
  have hname : ∀ c ∈ base.reverse, (!isSeparator c) = true := by
    intro c hc
    simp [hbase c (List.mem_reverse.1 hc)]
  have hstop : Stops (!isSeparator ·) (s :: dir.reverse) := stops_cons.2 (by simp [hs])
  have hread : directory? extension (dir ++ s :: (base ++ extension)) = some dir := by
    rw [hpath, directory?, dropEnding?_append]
    dsimp only
    rw [List.reverse_append, List.reverse_cons, List.append_assoc, List.singleton_append,
      List.span_eq_takeWhile_dropWhile, takeWhile_append hname hstop,
      dropWhile_append hname hstop]
    obtain ⟨last, front, hlast⟩ := List.exists_cons_of_ne_nil (List.reverse_ne_nil_iff.2 hne)
    rw [hlast]
    simp
  rw [directoryOf?, hread]

/-- The base name of a file is its name without the extension. -/
theorem baseName_append {s : Char} (hs : isSeparator s = true) {base extension : Text}
    (hname : ∀ c ∈ base ++ extension, isSeparator c = false) (dir : Text) :
    baseName (dir ++ s :: (base ++ extension)) extension = base := by
  rw [baseName, fields_append_sep hs, fields_eq_singleton hname, List.getLast?_concat,
    Option.getD_some, dropEnding?_append, Option.getD_some]

/-- What is found below the root is what follows the first place where the root stands. -/
theorem belowRoot?_append {root : List Text} {before rest dirs : Text}
    (hfirst : ∀ n < before.length, afterRoot? root ((before ++ rest).drop n) = none)
    (hrest : afterRoot? root rest = some dirs) (hroot : root ≠ []) (hne : dirs ≠ [])
    (hline : '\n' ∉ dirs) : belowRoot? root (before ++ rest) = some dirs := by
  induction before with
  | nil =>
    have hnil : rest ≠ [] := by
      rintro rfl
      obtain ⟨segment, others, rfl⟩ := List.exists_cons_of_ne_nil hroot
      cases segment <;> simp [afterRoot?, after?] at hrest
    obtain ⟨c, cs, rfl⟩ := List.exists_cons_of_ne_nil hnil
    obtain ⟨d, ds, rfl⟩ := List.exists_cons_of_ne_nil hne
    have hcontains : (d :: ds).contains '\n' = false := by simpa using hline
    rw [List.nil_append, belowRoot?, hrest]
    dsimp only
    rw [hcontains]
    rfl
  | cons c before ih =>
    have hhere : afterRoot? root (c :: (before ++ rest)) = none := hfirst 0 (by simp)
    rw [List.cons_append, belowRoot?, hhere]
    refine ih fun n hn => ?_
    exact hfirst (n + 1) (by simpa using hn)

/-! ## The module -/

/-- **Below the source root.** Take the path of a file that leads through the segments of the source
root, at the first place where they stand in the path, on through one or more directories and to the
name of the file. The module of the file is the names of these directories, joined by dots, and the
last one of them is left out if it is the name of the file. -/
theorem moduleName_below {sourceRoot extension before way dirs base last : Text}
    {upper : List Text} (hroot : segments sourceRoot ≠ [])
    (hway : Spells (segments sourceRoot) way) (hdirs : Spells (upper ++ [last]) dirs)
    (hnames : ∀ name ∈ upper ++ [last], name ≠ [] ∧ '\n' ∉ name) (hbase : base ≠ [])
    (hfile : ∀ c ∈ base ++ extension, isSeparator c = false)
    (hfirst : ∀ n < before.length, ¬ LeadsInto (segments sourceRoot)
      ((before ++ way ++ dirs ++ (base ++ extension)).drop n)) :
    moduleName (before ++ way ++ dirs ++ (base ++ extension)) sourceRoot extension =
      List.intercalate "." (if last = base then upper else upper ++ [last]) := by
  have hsegments := areSegments_segments sourceRoot
  obtain ⟨inner, s, hs, rfl, hinner⟩ := hdirs.exists_concat (by simp)
  have hpath : before ++ way ++ (inner ++ [s]) ++ (base ++ extension) =
      (before ++ (way ++ inner)) ++ s :: (base ++ extension) := by simp
  rw [hpath] at hfirst ⊢
  have hdir : directoryOf? extension ((before ++ (way ++ inner)) ++ s :: (base ++ extension)) =
      some (before ++ (way ++ inner)) :=
    directoryOf?_append hs hbase (fun c hc => hfile c (by simp [hc])) _ _
  have hafter : afterRoot? (segments sourceRoot) (way ++ inner) = some inner :=
    (afterRoot?_eq_some_iff hsegments).2 ⟨way, rfl, hway⟩
  -- the root does not stand earlier in the directory, because it would stand in the path as well
  have hearlier : ∀ n < before.length,
      afterRoot? (segments sourceRoot) ((before ++ (way ++ inner)).drop n) = none := by
    intro n hn
    rw [← Option.not_isSome_iff_eq_none, isSome_afterRoot?_iff hsegments]
    rintro ⟨early, rest, hrest, hearly⟩
    refine hfirst n hn ⟨early, rest ++ s :: (base ++ extension), ?_, hearly⟩
    rw [List.drop_append_of_le_length (by simp; omega), hrest, List.append_assoc]
  have hne : inner ≠ [] := by
    rintro rfl
    have hempty : [] ∈ upper ++ [last] := by simp [← hinner, fields]
    exact (hnames [] hempty).1 rfl
  have hline : '\n' ∉ inner := by
    intro hfeed
    have hseparator : isSeparator '\n' = false := by decide
    obtain ⟨name, hname, hmem⟩ := exists_mem_fields hfeed hseparator
    exact (hnames name (hinner ▸ hname)).2 hmem
  have hbelow := belowRoot?_append hearlier hafter hroot hne hline
  have hkept : segments inner = upper ++ [last] := by
    rw [segments, hinner, List.filter_eq_self]
    intro name hname
    simpa using (hnames name hname).1
  rw [moduleName_eq hroot, hdir, Option.bind_some, hbelow]
  dsimp only
  rw [hkept, baseName_append hs hfile, moduleOf, List.getLast?_concat, List.dropLast_concat]
  simp only [Option.some.injEq]

/-- A path that leads through the root twice. There are signs of all kinds in the names and in the
extension, and the last directory has the name of the file. -/
def twiceThroughRoot : Text := "/work/s+c/main/com.acme\\s+c/main/util/util.min.js"

/-- The module is named after what follows the first root. -/
theorem twiceThroughRoot_named :
    (∀ n < 6, ¬ LeadsInto (segments "s+c\\main") (twiceThroughRoot.drop n)) ∧
      LeadsInto (segments "s+c\\main") (twiceThroughRoot.drop 6) ∧
      moduleName twiceThroughRoot "s+c\\main" ".min.js" = "com.acme.s+c.main" := by
  have hfirst : ∀ n < 6, ¬ LeadsInto (segments "s+c\\main") (twiceThroughRoot.drop n) := by
    decide +kernel
  have hthere : LeadsInto (segments "s+c\\main") (twiceThroughRoot.drop 6) := by
    decide +kernel
  have hpath : twiceThroughRoot = ("/work/" : Text) ++ "s+c/main/" ++ "com.acme\\s+c/main/util/" ++
      (("util" : Text) ++ ".min.js") := by
    decide +kernel
  refine ⟨hfirst, hthere, ?_⟩
  rw [hpath] at hfirst ⊢
  exact @moduleName_below "s+c\\main" ".min.js" "/work/" "s+c/main/" "com.acme\\s+c/main/util/"
    "util" "util" ["com.acme", "s+c", "main"] (by decide) (by decide) (by decide) (by decide)
    (by decide) (by simp [isSeparator]) hfirst

end ActionDocs
