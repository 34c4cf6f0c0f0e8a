import ActionDocs.Proofs.ModuleName.Root

/-!
# Slashes and backslashes

Both kinds of separators mean the same in the path of a file and in the source root, so the name of
a module does not change when some of them are replaced by the other kind.

- `SameButSeparators`: two texts that differ only in the kinds of their separators.
- `slashed`: a text with slashes for all separators. Texts that differ only in their separators have
  the same slashed form.
- `fields_slashed`, `directoryOf?_slashed`, `belowRoot?_slashed`: every step of naming a module does
  the same to a path and to its slashed form.
- `moduleName_eq_of_sameButSeparators`: the name of the module does not depend on the separators.
-/

namespace ActionDocs

open Text

/-! ## Texts that differ in their separators -/

/-- Two texts are the same but for the kinds of their separators. -/
def SameButSeparators (t t' : Text) : Prop :=
  List.Forall₂ (fun c c' => c = c' ∨ isSeparator c = true ∧ isSeparator c' = true) t t'

/-- A slash in place of a separator. -/
def slash (c : Char) : Char :=
  if isSeparator c then '/' else c

/-- A text with slashes for all separators. -/
def slashed (t : Text) : Text :=
  t.map slash

theorem slash_of_isSeparator {c : Char} (h : isSeparator c = true) : slash c = '/' := by
  rw [slash, if_pos h]

theorem slash_of_not_isSeparator {c : Char} (h : isSeparator c = false) : slash c = c := by
  rw [slash, h]
  rfl

theorem isSeparator_slash (c : Char) : isSeparator (slash c) = isSeparator c := by
  cases h : isSeparator c with
  | true =>
    rw [slash_of_isSeparator h]
    rfl
  | false => rw [slash_of_not_isSeparator h, h]

/-- A character that is no separator is not the slash in place of one. -/
theorem slash_eq_iff {c d : Char} (hd : isSeparator d = false) : slash c = d ↔ c = d := by
  constructor
  · rintro rfl
    rw [isSeparator_slash] at hd
    exact (slash_of_not_isSeparator hd).symm
  · rintro rfl
    exact slash_of_not_isSeparator hd

theorem slashed_eq_of_sameButSeparators {t t' : Text} (h : SameButSeparators t t') :
    slashed t = slashed t' := by
  induction h with
  | nil => rfl
  | cons hc _ ih =>
    rw [slashed, slashed, List.map_cons, List.map_cons]
    refine congrArg₂ _ ?_ ih
    rcases hc with rfl | ⟨hc, hc'⟩
    · rfl
    · rw [slash_of_isSeparator hc, slash_of_isSeparator hc']

/-- A text without separators stays as it is. -/
theorem slashed_eq_iff {t t' : Text} (h : ∀ c ∈ t', isSeparator c = false) :
    slashed t = t' ↔ t = t' := by
  induction t generalizing t' with
  | nil => rfl
  | cons c t ih =>
    cases t' with
    | nil => simp [slashed]
    | cons d t' =>
      have hrest : slashed t = t' ↔ t = t' := ih fun e he => h e (by simp [he])
      rw [slashed, List.map_cons, List.cons.injEq, List.cons.injEq, slash_eq_iff (h d (by simp))]
      exact and_congr_right fun _ => hrest

/-! ## Cutting at separators -/

theorem fields_slashed (t : Text) : fields isSeparator (slashed t) = fields isSeparator t := by
  induction t with
  | nil => rfl
  | cons c t ih =>
    rw [slashed] at ih
    rw [slashed, List.map_cons, fields, fields, isSeparator_slash, ih]
    cases h : isSeparator c with
    | true => rfl
    | false => rw [slash_of_not_isSeparator h]

theorem segments_slashed (t : Text) : segments (slashed t) = segments t := by
  rw [segments, segments, fields_slashed]

theorem baseName_slashed (path extension : Text) :
    baseName (slashed path) extension = baseName path extension := by
  rw [baseName, baseName, fields_slashed]

/-! ## Reading a path -/

variable {extension : Text}

theorem dropEnding?_slashed (hextension : ∀ c ∈ extension, isSeparator c = false) (t : Text) :
    dropEnding? extension (slashed t) = (dropEnding? extension t).map slashed := by
  have hending : extension <:+ slashed t ↔ extension <:+ t := by
    constructor
    · rintro ⟨front, hfront⟩
      obtain ⟨start, ending, rfl, -, hsame⟩ := List.map_eq_append_iff.1 hfront.symm
      rw [(slashed_eq_iff hextension).1 hsame]
      exact List.suffix_append start extension
    · rintro ⟨front, rfl⟩
      refine ⟨slashed front, ?_⟩
      rw [slashed, slashed, List.map_append]
      exact congrArg _ ((slashed_eq_iff hextension).2 rfl).symm
  unfold dropEnding?
  simp only [List.isSuffixOf_iff_suffix, hending]
  split
  · simp [slashed]
  · rfl

theorem directory?_slashed (hextension : ∀ c ∈ extension, isSeparator c = false) (t : Text) :
    directory? extension (slashed t) = (directory? extension t).map slashed := by
  have hname : (fun c => !isSeparator c) ∘ slash = fun c => !isSeparator c :=
    funext fun c => congrArg _ (isSeparator_slash c)
  unfold directory?
  rw [dropEnding?_slashed hextension]
  cases dropEnding? extension t with
  | none => rfl
  | some front =>
    simp only [Option.map_some, slashed, ← List.map_reverse, List.span_eq_takeWhile_dropWhile,
      List.takeWhile_map, List.dropWhile_map, hname]
    generalize front.reverse.takeWhile (fun c => !isSeparator c) = name
    generalize front.reverse.dropWhile (fun c => !isSeparator c) = dirs
    cases name with
    | nil => rfl
    | cons last name =>
      cases dirs with
      | nil => rfl
      | cons s dirs => exact congrArg some List.map_reverse.symm

theorem isSeparator_lineFeed : isSeparator '\n' = false := by
  decide

theorem directoryOf?_slashed (hextension : ∀ c ∈ extension, isSeparator c = false) (path : Text) :
    directoryOf? extension (slashed path) = (directoryOf? extension path).map slashed := by
  have hlast : (slashed path).getLast? = some '\n' ↔ path.getLast? = some '\n' := by
    rw [slashed, List.getLast?_map, Option.map_eq_some_iff]
    simp [slash_eq_iff isSeparator_lineFeed]
  have hfront : (slashed path).dropLast = slashed path.dropLast := by
    simp [slashed, List.map_dropLast]
  unfold directoryOf?
  rw [directory?_slashed hextension]
  cases directory? extension path with
  | some dirs => rfl
  | none =>
    simp only [Option.map_none, hlast, hfront, directory?_slashed hextension]
    split
    · rfl
    · rfl

theorem after?_slashed {segment : Text} (hsegment : ∀ c ∈ segment, isSeparator c = false)
    (t : Text) : after? segment (slashed t) = (after? segment t).map slashed := by
  induction segment generalizing t with
  | nil => rfl
  | cons p segment ih =>
    cases t with
    | nil => rfl
    | cons c t =>
      have hrest := ih (fun d hd => hsegment d (by simp [hd])) t
      have hp : p = slash c ↔ p = c := by
        rw [eq_comm, slash_eq_iff (hsegment p (by simp)), eq_comm]
      rw [slashed] at hrest
      simp only [slashed, List.map_cons, after?, hp, hrest]
      split
      · rfl
      · rfl

theorem afterRoot?_slashed {root : List Text} (hroot : AreSegments root) (t : Text) :
    afterRoot? root (slashed t) = (afterRoot? root t).map slashed := by
  induction root generalizing t with
  | nil => rfl
  | cons segment root ih =>
    rw [afterRoot?, afterRoot?, after?_slashed (hroot segment (by simp))]
    cases after? segment t with
    | none => rfl
    | some behind =>
      cases behind with
      | nil => rfl
      | cons c rest =>
        have hrest := ih (fun s hs => hroot s (by simp [hs])) rest
        rw [slashed] at hrest
        simp only [Option.map_some, slashed, List.map_cons, isSeparator_slash, hrest]
        split
        · rfl
        · rfl

theorem belowRoot?_slashed {root : List Text} (hroot : AreSegments root) (t : Text) :
    belowRoot? root (slashed t) = (belowRoot? root t).map slashed := by
  induction t with
  | nil => rfl
  | cons c t ih =>
    have hafter := afterRoot?_slashed hroot (c :: t)
    rw [slashed] at ih
    rw [slashed, List.map_cons] at hafter
    rw [slashed, List.map_cons, belowRoot?, belowRoot?, hafter, ih]
    cases afterRoot? root (c :: t) with
    | none => rfl
    | some dirs =>
      cases dirs with
      | nil => rfl
      | cons d dirs =>
        have hline : (slashed (d :: dirs)).contains '\n' = (d :: dirs).contains '\n' := by
          rw [Bool.eq_iff_iff, List.contains_iff_mem, List.contains_iff_mem, slashed, List.mem_map]
          simp [slash_eq_iff isSeparator_lineFeed]
        rw [Option.map_some]
        show (if (slashed (d :: dirs)).contains '\n' then _ else some (slashed (d :: dirs))) = _
        rw [hline]
        dsimp only
        split
        · rfl
        · rfl

/-! ## The module -/

/-- A path and a root with slashes for all separators name the same module. -/
theorem moduleName_slashed (hextension : ∀ c ∈ extension, isSeparator c = false)
    (path sourceRoot : Text) :
    moduleName (slashed path) (slashed sourceRoot) extension =
      moduleName path sourceRoot extension := by
  by_cases hroot : segments sourceRoot = []
  · have hslashed : segments (slashed sourceRoot) = [] := by rw [segments_slashed, hroot]
    rw [moduleName, moduleName, hslashed, hroot]
    rfl
  · have hslashed : segments (slashed sourceRoot) ≠ [] := by rwa [segments_slashed]
    rw [moduleName_eq hslashed, moduleName_eq hroot, segments_slashed, baseName_slashed,
      directoryOf?_slashed hextension]
    cases directoryOf? extension path with
    | none => rfl
    | some dir =>
      rw [Option.map_some, Option.bind_some, Option.bind_some,
        belowRoot?_slashed (areSegments_segments sourceRoot)]
      cases belowRoot? (segments sourceRoot) dir with
      | none => rfl
      | some dirs =>
        rw [Option.map_some]
        show moduleOf (segments (slashed dirs)) _ = moduleOf (segments dirs) _
        rw [segments_slashed]

/-- **Separators are interchangeable.** If two paths differ only in the kinds of their separators,
and so do two source roots, then both name the same module. -/
theorem moduleName_eq_of_sameButSeparators
    (hextension : ∀ c ∈ extension, isSeparator c = false) {path path' sourceRoot sourceRoot' : Text}
    (hpath : SameButSeparators path path') (hroot : SameButSeparators sourceRoot sourceRoot') :
    moduleName path sourceRoot extension = moduleName path' sourceRoot' extension := by
  rw [← moduleName_slashed hextension path, ← moduleName_slashed hextension path',
    slashed_eq_of_sameButSeparators hpath, slashed_eq_of_sameButSeparators hroot]

/-- A path with doubled separators, and the same path with some of its separators replaced. -/
theorem mixedSeparators_named :
    moduleName "/w//src\\main/com//acme\\x/x.js" "src/main" ".js" =
        moduleName "\\w/\\src/main\\com\\/acme/x\\x.js" "src\\main" ".js" ∧
      moduleName "/w//src\\main/com//acme\\x/x.js" "src/main" ".js" = "com.acme" := by
  refine ⟨moduleName_eq_of_sameButSeparators (by simp [isSeparator]) ?_ ?_, by decide +kernel⟩
  · unfold SameButSeparators
    decide
  · unfold SameButSeparators
    decide

end ActionDocs
