import ActionDocs.ModuleName
import ActionDocs.Proofs.Text.Lines
import Mathlib.Data.List.TakeDrop

/-!
# Where the source root stands in a path

The module of a file is read off what follows the source root in its path. The root is looked for in
the text of the path, so its last segments are always whole pieces of the path, but its first one
may be the end of a longer piece. A file in a directory whose name only ends like the root is taken
for a file below the root.

- `RootAt`: the segments of a root stand among the pieces of a path.
- `afterRoot?_eq_some_iff`: reading the root from the front of a text.
- `belowRoot?_isSome_iff`: looking for it anywhere in a text.
- `directoryOf?_eq_some`: the directory of a source file.
- `LeadsThrough`: the directory of a source file leads through the root, on to further names.
- `leadsThrough_of_belowRoot?`, `LeadsThrough.isSome`: then, and only then, there is a module to
  name.
- `moduleName_of_outside`: the module of a file that does not lie below the root.
-/

namespace ActionDocs

open Text

/-- Texts without separators. -/
def AreSegments (root : List Text) : Prop :=
  ∀ segment ∈ root, ∀ c ∈ segment, isSeparator c = false

theorem areSegments_segments (t : Text) : AreSegments (segments t) := fun _ hsegment _ hc =>
  (mem_of_mem_fields (List.mem_filter.1 hsegment).1 hc).2

/-! ## The root in a text -/

/-- The root is read from the front of a text if its segments are the first pieces of the text, and
others follow. -/
theorem afterRoot?_eq_some_iff {root : List Text} (hroot : AreSegments root) {t rest : Text} :
    afterRoot? root t = some rest ↔
      ∃ front, t = front ++ rest ∧ fields isSeparator front = root ++ [[]] := by
  induction root generalizing t with
  | nil =>
    rw [afterRoot?]
    constructor
    · intro h
      exact ⟨[], Option.some.inj h, rfl⟩
    · rintro ⟨front, rfl, hfront⟩
      rw [eq_of_fields_eq_singleton hfront]
      rfl
  | cons segment root ih =>
    have hsegment : ∀ c ∈ segment, isSeparator c = false := hroot segment (by simp)
    have hothers : AreSegments root := fun s hs => hroot s (by simp [hs])
    rw [afterRoot?]
    constructor
    · intro h
      split at h
      · next c behind hbehind =>
        split at h
        · next hc =>
          obtain ⟨front, rfl, hfront⟩ := (ih hothers).1 h
          refine ⟨segment ++ c :: front, ?_, ?_⟩
          · rw [after?_eq_some_iff.1 hbehind, List.append_assoc, List.cons_append]
          · rw [fields_append_cons hsegment hc, hfront, List.cons_append]
        · cases h
      · cases h
    · rintro ⟨front, rfl, hfront⟩
      have hfirst : fields isSeparator front = [segment] ++ (root ++ [[]]) := hfront
      obtain ⟨a, s, b, hs, rfl, ha, hb⟩ :=
        exists_of_fields_eq_append hfirst (by simp) (by simp)
      obtain rfl := eq_of_fields_eq_singleton ha
      have hafter : after? a (a ++ s :: b ++ rest) = some (s :: (b ++ rest)) :=
        after?_eq_some_iff.2 (by simp)
      rw [hafter]
      dsimp only
      rw [if_pos hs]
      exact (ih hothers).2 ⟨b, rfl, hb⟩

/-- The segments of a root stand one after the other among the pieces of a path, with `front` before
them and `below` behind them. The first segment is the end of a piece that starts with `extra`. -/
def RootAt (root pieces front : List Text) (extra : Text) (below : List Text) : Prop :=
  ∃ first others, root = first :: others ∧ pieces = front ++ (extra ++ first) :: (others ++ below)

/-- Without anything before the first segment, all segments are whole pieces. -/
theorem RootAt.isInfix {root pieces front below : List Text}
    (h : RootAt root pieces front [] below) : root <:+: pieces := by
  obtain ⟨first, others, rfl, rfl⟩ := h
  exact ⟨front, below, by simp⟩

/-- Further pieces of a path are below the root as well. -/
theorem RootAt.append {root pieces front below : List Text} {extra : Text}
    (h : RootAt root pieces front extra below) (more : List Text) :
    RootAt root (pieces ++ more) front extra (below ++ more) := by
  obtain ⟨first, others, hroot, rfl⟩ := h
  exact ⟨first, others, hroot, by simp⟩

/-- A root that is read somewhere in a text stands among the pieces of the text. -/
theorem exists_rootAt_of_afterRoot? {root : List Text} (hroot : AreSegments root) (hne : root ≠ [])
    {t dirs : Text} (h : afterRoot? root t = some dirs) (before : Text) :
    ∃ front extra, RootAt root (fields isSeparator (before ++ t)) front extra
      (fields isSeparator dirs) := by
  obtain ⟨written, rfl, hwritten⟩ := (afterRoot?_eq_some_iff hroot).1 h
  obtain ⟨first, others, rfl⟩ := List.exists_cons_of_ne_nil hne
  obtain ⟨a, s, b, hs, rfl, ha, hb⟩ := exists_of_fields_eq_append hwritten hne (by simp)
  obtain rfl := eq_of_fields_eq_singleton hb
  obtain ⟨front, extra, hfields⟩ := exists_fields_append isSeparator before
  refine ⟨front, extra, first, others, rfl, ?_⟩
  have hsplit : before ++ (a ++ s :: [] ++ dirs) = (before ++ a) ++ s :: dirs := by simp
  rw [hsplit, fields_append_sep hs, hfields a first others ha]
  simp

/-- A root that stands among the pieces of a text is read somewhere in the text. -/
theorem RootAt.exists_afterRoot? {root front below : List Text} {t extra : Text}
    (h : RootAt root (fields isSeparator t) front extra below) (hroot : AreSegments root)
    (hbelow : below ≠ []) :
    ∃ before rest dirs, t = before ++ rest ∧ afterRoot? root rest = some dirs ∧
      fields isSeparator dirs = below := by
  obtain ⟨first, others, rfl, hpieces⟩ := h
  -- the text is cut behind the root first, and then in front of it
  have hbehind : fields isSeparator t = (front ++ (extra ++ first) :: others) ++ below := by
    rw [hpieces]
    simp
  obtain ⟨a, s, dirs, hs, rfl, ha, hdirs⟩ :=
    exists_of_fields_eq_append hbehind (by simp) hbelow
  obtain ⟨before, b, rfl, hb⟩ : ∃ before b, a = before ++ b ∧
      fields isSeparator b = (extra ++ first) :: others := by
    by_cases hnil : front = []
    · exact ⟨[], a, rfl, by rw [ha, hnil]; rfl⟩
    · obtain ⟨before, s', b, -, rfl, -, hb⟩ := exists_of_fields_eq_append ha hnil (by simp)
      exact ⟨before ++ [s'], b, by simp, hb⟩
  obtain ⟨b', rfl, hb'⟩ := exists_of_fields_eq_append_cons hb
  refine ⟨before ++ extra, b' ++ s :: dirs, dirs, by simp, ?_, hdirs⟩
  refine (afterRoot?_eq_some_iff hroot).2 ⟨b' ++ [s], by simp, ?_⟩
  rw [fields_append_sep hs, hb']
  rfl

/-! ## Looking for the root -/

/-- What is found below the root follows the root somewhere in the text, is not empty and free of
line feeds. -/
theorem belowRoot?_eq_some {root : List Text} {t dirs : Text} (h : belowRoot? root t = some dirs) :
    dirs ≠ [] ∧ '\n' ∉ dirs ∧ ∃ before rest, t = before ++ rest ∧
      afterRoot? root rest = some dirs := by
  induction t with
  | nil => cases h
  | cons c cs ih =>
    have hlater : belowRoot? root cs = some dirs → dirs ≠ [] ∧ '\n' ∉ dirs ∧
        ∃ before rest, c :: cs = before ++ rest ∧ afterRoot? root rest = some dirs := by
      intro h
      obtain ⟨hne, hline, before, rest, rfl, hafter⟩ := ih h
      exact ⟨hne, hline, c :: before, rest, rfl, hafter⟩
    rw [belowRoot?] at h
    split at h
    · exact hlater h
    · exact hlater h
    · next found hne hfound =>
      split at h
      · exact hlater h
      · next hline =>
        obtain rfl := Option.some.inj h
        exact ⟨hne, by simpa using hline, [], _, rfl, hfound⟩

/-- Something is found below the root if the root stands anywhere in the text with something behind
it that is not empty and free of line feeds. -/
theorem belowRoot?_isSome {root : List Text} {before rest dirs : Text}
    (h : afterRoot? root rest = some dirs) (hne : dirs ≠ []) (hline : '\n' ∉ dirs) :
    (belowRoot? root (before ++ rest)).isSome := by
  induction before with
  | nil =>
    cases rest with
    | nil =>
      cases root with
      | nil => exact absurd (Option.some.inj h).symm hne
      | cons segment root =>
        rw [afterRoot?] at h
        split at h
        · next c behind hbehind =>
          have hnil := after?_eq_some_iff.1 hbehind
          simp at hnil
        · cases h
    | cons c cs =>
      rw [List.nil_append, belowRoot?, h]
      cases dirs with
      | nil => exact absurd rfl hne
      | cons d ds =>
        have hcontains : (d :: ds).contains '\n' = false := by simpa using hline
        dsimp only
        rw [hcontains]
        rfl
  | cons c before ih =>
    rw [List.cons_append, belowRoot?]
    split
    · exact ih
    · exact ih
    · split
      · exact ih
      · rfl

/-- Pieces of a path that a module can be named after: there is something in them, and no line
feed. -/
def AreNames (below : List Text) : Prop :=
  below ≠ [] ∧ below ≠ [[]] ∧ ∀ name ∈ below, '\n' ∉ name

theorem areNames_fields {dirs : Text} (hne : dirs ≠ []) (hline : '\n' ∉ dirs) :
    AreNames (fields isSeparator dirs) := by
  refine ⟨fields_ne_nil _ _, ?_, ?_⟩
  · intro h
    exact hne (eq_of_fields_eq_singleton h)
  · intro name hname hfeed
    exact hline (mem_of_mem_fields hname hfeed).1

/-! ## The directory of a source file -/

/-- The directory of a source file is followed by a separator and the name of the file: something
without separators, and the extension. -/
theorem directory?_eq_some {extension path dir : Text} (h : directory? extension path = some dir) :
    ∃ s base, isSeparator s = true ∧ base ≠ [] ∧ (∀ c ∈ base, isSeparator c = false) ∧
      path = dir ++ s :: (base ++ extension) := by
  unfold directory? dropEnding? at h
  split at h
  · cases h
  · next front hfront =>
    split at hfront
    · next hending =>
      obtain ⟨start, rfl⟩ := List.isSuffixOf_iff_suffix.1 hending
      obtain rfl : start = front := by simpa using hfront
      rw [List.span_eq_takeWhile_dropWhile] at h
      have hwhole := List.takeWhile_append_dropWhile (p := (!isSeparator ·)) (l := start.reverse)
      have hbase := List.all_eq_true.1
        (List.all_takeWhile (p := (!isSeparator ·)) (l := start.reverse))
      have hsep := List.head?_dropWhile_not (!isSeparator ·) start.reverse
      split at h
      · next last name s dirs hspan =>
        obtain rfl := Option.some.inj h
        obtain ⟨htake, hdrop⟩ := Prod.mk.inj hspan
        rw [htake, hdrop] at hwhole
        rw [htake] at hbase
        rw [hdrop] at hsep
        refine ⟨s, (last :: name).reverse, by simpa using hsep, by simp, ?_, ?_⟩
        · intro c hc
          simpa using hbase c (List.mem_reverse.1 hc)
        · have hstart := congrArg List.reverse hwhole
          rw [List.reverse_reverse] at hstart
          rw [← hstart]
          simp
      · cases h
    · cases hfront

theorem directoryOf?_eq_some {extension path dir : Text}
    (h : directoryOf? extension path = some dir) :
    ∃ s rest, isSeparator s = true ∧ path = dir ++ s :: rest := by
  unfold directoryOf? at h
  split at h
  · next found hfound =>
    obtain rfl := Option.some.inj h
    obtain ⟨s, base, hs, -, -, hpath⟩ := directory?_eq_some hfound
    exact ⟨s, _, hs, hpath⟩
  · split at h
    · next hlast =>
      obtain ⟨s, base, hs, -, -, hpath⟩ := directory?_eq_some h
      obtain ⟨start, rfl⟩ := List.getLast?_eq_some_iff.1 hlast
      rw [List.dropLast_concat] at hpath
      exact ⟨s, base ++ extension ++ ['\n'], hs, by rw [hpath]; simp⟩
    · cases h

/-! ## The module of a file -/

/-- The name of a module after the names of its directories. The last one is left out if it is the
name of the file. -/
def moduleOf (names : List Text) (base : Text) : Text :=
  List.intercalate "." (if names.getLast? = some base then names.dropLast else names)

theorem moduleName_eq {path sourceRoot extension : Text} (hroot : segments sourceRoot ≠ []) :
    moduleName path sourceRoot extension =
      match (directoryOf? extension path).bind (belowRoot? (segments sourceRoot)) with
      | none => unknownModule
      | some dirs => moduleOf (segments dirs) (baseName path extension) := by
  show (if (segments sourceRoot).isEmpty then unknownModule else _) = _
  rw [if_neg (by simpa using hroot)]
  rfl

/-- The directory of a source file leads through the segments of the source root, on to names that
are `below` it. The first segment is the end of a name that starts with `extra`. -/
def LeadsThrough (path sourceRoot extension extra : Text) (below : List Text) : Prop :=
  ∃ dir front, directoryOf? extension path = some dir ∧
    RootAt (segments sourceRoot) (fields isSeparator dir) front extra below ∧ AreNames below

/-- A directory that leads through the root as a whole is below the root. -/
theorem LeadsThrough.isInfix {path sourceRoot extension : Text} {below : List Text}
    (h : LeadsThrough path sourceRoot extension [] below) :
    segments sourceRoot <:+: fields isSeparator path := by
  obtain ⟨dir, front, hdir, hroot, -⟩ := h
  obtain ⟨s, rest, hs, rfl⟩ := directoryOf?_eq_some hdir
  rw [fields_append_sep hs]
  exact (hroot.append _).isInfix

/-- Where something is found below the root, the directory leads through the root. -/
theorem leadsThrough_of_belowRoot? {path sourceRoot extension dirs : Text}
    (hroot : segments sourceRoot ≠ [])
    (h : (directoryOf? extension path).bind (belowRoot? (segments sourceRoot)) = some dirs) :
    ∃ extra, LeadsThrough path sourceRoot extension extra (fields isSeparator dirs) := by
  obtain ⟨dir, hdir, hbelow⟩ := Option.bind_eq_some_iff.1 h
  obtain ⟨hne, hline, before, rest, rfl, hafter⟩ := belowRoot?_eq_some hbelow
  obtain ⟨front, extra, hat⟩ :=
    exists_rootAt_of_afterRoot? (areSegments_segments sourceRoot) hroot hafter before
  exact ⟨extra, _, front, hdir, hat, areNames_fields hne hline⟩

/-- Where the directory leads through the root, something is found below it. -/
theorem LeadsThrough.isSome {path sourceRoot extension extra : Text} {below : List Text}
    (h : LeadsThrough path sourceRoot extension extra below) :
    ((directoryOf? extension path).bind (belowRoot? (segments sourceRoot))).isSome := by
  obtain ⟨dir, front, hdir, hat, hne, hproper, hline⟩ := h
  obtain ⟨before, rest, dirs, rfl, hafter, rfl⟩ :=
    hat.exists_afterRoot? (areSegments_segments sourceRoot) hne
  rw [hdir, Option.bind_some]
  refine belowRoot?_isSome hafter ?_ ?_
  · rintro rfl
    exact hproper rfl
  · intro hfeed
    have hseparator : isSeparator '\n' = false := by decide
    obtain ⟨piece, hpiece, hmem⟩ := exists_mem_fields hfeed hseparator
    exact hline piece hpiece hmem

/-- **Outside the source root.** If the segments of the source root are not found one after the
other among the pieces of a path, then the file belongs to no known module, with one exception: the
directory of the file leads through the root but for a longer name in place of the first segment,
which the name ends with. In this case the module is named after what is below. -/
theorem moduleName_of_outside {path sourceRoot : Text} (extension : Text)
    (h : ¬ segments sourceRoot <:+: fields isSeparator path) :
    (moduleName path sourceRoot extension = unknownModule ∧
      ∀ extra below, ¬ LeadsThrough path sourceRoot extension extra below) ∨
    ∃ extra below, extra ≠ [] ∧ LeadsThrough path sourceRoot extension extra below ∧
      moduleName path sourceRoot extension =
        moduleOf (below.filter (!·.isEmpty)) (baseName path extension) := by
  have hroot : segments sourceRoot ≠ [] := by
    intro hnil
    exact h (hnil ▸ List.nil_infix)
  rw [moduleName_eq hroot]
  cases hfound : (directoryOf? extension path).bind (belowRoot? (segments sourceRoot)) with
  | none =>
    refine .inl ⟨rfl, fun extra below hleads => ?_⟩
    have hsome := hleads.isSome
    rw [hfound] at hsome
    cases hsome
  | some dirs =>
    obtain ⟨extra, hleads⟩ := leadsThrough_of_belowRoot? hroot hfound
    refine .inr ⟨extra, _, ?_, hleads, rfl⟩
    rintro rfl
    exact h hleads.isInfix

/-- A path that has the source root in it, but for two letters in front of the first segment. -/
def besideRoot : Text := "/work/mysrc/main/resources/com/acme/helper.js"

/-- The directory beside the root leads through it, behind these two letters. -/
theorem besideRoot_leadsThrough :
    ∃ extra below, extra ≠ [] ∧ LeadsThrough besideRoot "src/main/resources" ".js" extra below ∧
      moduleOf (below.filter (!·.isEmpty)) (baseName besideRoot ".js") = "com.acme" := by
  have hname : moduleName besideRoot "src/main/resources" ".js" = "com.acme" := by decide +kernel
  have houtside : ¬ segments "src/main/resources" <:+: fields isSeparator besideRoot := by
    decide +kernel
  rcases moduleName_of_outside ".js" houtside with
    ⟨hunknown, -⟩ | ⟨extra, below, hextra, hleads, hmodule⟩
  · rw [hname] at hunknown
    exact absurd hunknown (by decide)
  · exact ⟨extra, below, hextra, hleads, hmodule ▸ hname⟩

/-- The segments of the root are not found in the path, and still there is a module. -/
theorem besideRoot_named : ¬ segments "src/main/resources" <:+: segments besideRoot ∧
    moduleName besideRoot "src/main/resources" ".js" ≠ unknownModule := by
  decide +kernel

end ActionDocs
