import ActionDocs.Proofs.Site.Steps

/-!
# The source files that a run finds, and how it makes room for their pages

- `Disk.IsSource`: what it takes to be a source file.
- `Disk.WithinReach`: no directory on the way to a file has too long a path.
- `Disk.mem_sourcesIn_iff`: the files that are listed are the source files within reach.
- `Disk.file?_of_mem_sourcesIn`: a listed source file is on the disk, below the resolved location of
  the source directory.
- `Disk.nodup_sourcesIn`: no source file is listed twice.
- `Request.clears`: whether a request removes the output directory.
- `Run.prepare_cases`: everything that making room can amount to.
- `Run.prepared_of_prepare`: what is seen on the disk once room was made.
-/

namespace ActionDocs

open Text

namespace Disk

/-- The directory that the sources are listed from is seen at its resolved location, unless it was
removed and looks empty. -/
theorem get?_of_entries {d : Disk} {p : Path} {entries : Entries} (h : d.entries p = .ok entries) :
    d.root.get? (p.resolve d.cwd.place) = some (.dir entries) ∨ entries = [] := by
  obtain ⟨s, hwalk, hlook⟩ := entries_eq_ok h
  by_cases hlost : s.lost = 0
  · rw [← place_of_walk hwalk]
    exact .inl (get?_of_look hlook hlost)
  · rw [look, if_neg hlost] at hlook
    exact .inr (by simpa using hlook.symm)

theorem wellFormed_of_entries {d : Disk} (hwf : d.root.WellFormed) {p : Path} {entries : Entries}
    (h : d.entries p = .ok entries) : (Node.dir entries).WellFormed := by
  rcases get?_of_entries h with hdir | rfl
  · exact hwf.get? hdir
  · exact Node.wellFormed_empty

/-- What it takes to be a source file: it is a file below the source directory, has the right name,
and no directory on the way to it is the excluded one. -/
structure IsSource (d : Disk) (source : Path) (extension : Text) (excluded : Option Location)
    (l : Location) (bytes : ByteArray) : Prop where
  found : ∃ entries, d.entries source = .ok entries ∧ (Node.dir entries).file? l = some bytes
  named : hasExtension extension l = true
  outside : ∀ front, front ≠ [] → front <+: l → front ≠ l →
    some (source.resolve d.cwd.place ++ front) ≠ excluded

/-- The paths to all directories on the way from the source directory to a file can be written in
the bytes there are. -/
def WithinReach (source : Path) (l : Location) : Prop :=
  ∀ front, front ≠ [] → front <+: l → front ≠ l → isReachable source front = true

/-- The files that are found are the source files within reach. -/
theorem mem_sourcesIn_iff {d : Disk} (hwf : d.root.WellFormed) {source : Path}
    {extension : Text} {excluded : Option Location} {l : Location} {bytes : ByteArray} :
    (l, bytes) ∈ d.sourcesIn source extension excluded ↔
      d.IsSource source extension excluded l bytes ∧ WithinReach source l := by
  unfold sourcesIn
  cases hentries : d.entries source with
  | error cause =>
    refine ⟨fun h => absurd h List.not_mem_nil, ?_⟩
    rintro ⟨⟨⟨entries, hother, -⟩, -, -⟩, -⟩
    rw [hentries] at hother
    cases hother
  | ok entries =>
    have hdirwf := wellFormed_of_entries hwf hentries
    dsimp only
    rw [List.mem_filter, Node.mem_filesBelow_iff hdirwf.sorted]
    constructor
    · rintro ⟨⟨rel, hl, -, hfile, hopen⟩, hext⟩
      obtain rfl : l = rel := by simpa using hl
      rw [Node.file?_sorted hdirwf] at hfile
      have hpassed : ∀ front, front ≠ [] → front <+: l → front ≠ l →
          some (source.resolve d.cwd.place ++ front) ≠ excluded ∧
            isReachable source front = true := by
        intro front hfront hpre hproper
        simpa using hopen front hfront hpre hproper
      exact ⟨⟨⟨entries, hentries, hfile⟩, hext,
        fun front hfront hpre hproper => (hpassed front hfront hpre hproper).1⟩,
        fun front hfront hpre hproper => (hpassed front hfront hpre hproper).2⟩
    · rintro ⟨⟨⟨entries', hentries', hfile⟩, hext, houtside⟩, hreach⟩
      obtain rfl : entries = entries' := by
        rw [hentries] at hentries'
        exact Except.ok.inj hentries'
      have hne : l ≠ [] := by
        rintro rfl
        cases hfile
      refine ⟨⟨l, rfl, hne, ?_, fun front hfront hpre hproper => ?_⟩, hext⟩
      · rw [Node.file?_sorted hdirwf]
        exact hfile
      · simp [houtside front hfront hpre hproper, hreach front hfront hpre hproper]

/-- A listed source file lies below the directory that is seen at the location of the sources. -/
theorem exists_of_mem_sourcesIn {d : Disk} (hwf : d.root.WellFormed) {source : Path}
    {extension : Text} {excluded : Option Location} {l : Location} {bytes : ByteArray}
    (h : (l, bytes) ∈ d.sourcesIn source extension excluded) :
    ∃ entries, d.root.get? (source.resolve d.cwd.place) = some (.dir entries) ∧ l ≠ [] ∧
      (Node.dir entries).file? l = some bytes ∧ hasExtension extension l = true ∧
      ∀ front, front ≠ [] → front <+: l → front ≠ l →
        some (source.resolve d.cwd.place ++ front) ≠ excluded := by
  obtain ⟨⟨⟨entries, hentries, hfile⟩, hext, houtside⟩, -⟩ := (mem_sourcesIn_iff hwf).1 h
  have hne : l ≠ [] := by
    rintro rfl
    cases hfile
  rcases get?_of_entries hentries with hdir | rfl
  · exact ⟨entries, hdir, hne, hfile, hext, houtside⟩
  · obtain ⟨name, rest, rfl⟩ := List.exists_cons_of_ne_nil hne
    cases hfile

/-- A listed source file is on the disk. -/
theorem file?_of_mem_sourcesIn {d : Disk} (hwf : d.root.WellFormed) {source : Path}
    {extension : Text} {excluded : Option Location} {l : Location} {bytes : ByteArray}
    (h : (l, bytes) ∈ d.sourcesIn source extension excluded) :
    d.root.file? (source.resolve d.cwd.place ++ l) = some bytes := by
  obtain ⟨entries, hdir, -, hfile, -, -⟩ := exists_of_mem_sourcesIn hwf h
  rwa [Node.file?_of_get? hdir]

/-- No source file is listed twice. -/
theorem nodup_sourcesIn {d : Disk} (hwf : d.root.WellFormed) (source : Path) (extension : Text)
    (excluded : Option Location) :
    ((d.sourcesIn source extension excluded).map Prod.fst).Nodup := by
  unfold sourcesIn
  split
  · simp
  · next entries hentries =>
    have hdirwf := wellFormed_of_entries hwf hentries
    exact (Node.nodup_filesBelow hdirwf.sorted []).sublist (List.filter_sublist.map _)

end Disk

/-! ## Making room for the pages -/

/-- Whether a path is found to lead anywhere. -/
def Disk.reaches (d : Disk) (p : Path) : Bool :=
  match d.exists? p with
  | .ok found => found
  | .error _ => false

/-- A request removes the output directory if it asks for that and the directory is found. -/
def Request.clears (request : Request) (d : Disk) : Bool :=
  request.clean && d.reaches request.docs

namespace Run

variable {α β : Type}

theorem disk_bind (f : Disk → Run β) (w : World) : (Run.disk >>= f) w = f w.disk w := rfl

theorem orRefused_ok_bind (a : α) (f : α → Run β) (w : World) :
    (orRefused (.ok a) >>= f) w = f a w := rfl

theorem orRefused_error_bind (cause : FileError) (f : α → Run β) (w : World) :
    ((orRefused (.error cause) : Run α) >>= f) w = .error (.refused cause) w := rfl

theorem throw_bind (e : Failure) (f : α → Run β) (w : World) :
    ((throw e : Run α) >>= f) w = .error e w := rfl

theorem resolve_eq_ok {d : Disk} {p : Path} {l : Location} (h : d.resolve p = .ok l) :
    l = p.resolve d.cwd.place := by
  unfold Disk.resolve at h
  split at h
  · simp at h
  · exact (pure_eq_ok_iff.1 h).symm

/-- What making room amounts to, in whatever way it ends: nothing happens, or directories are
created, or the output directory, which does not contain the sources, is removed first. -/
theorem prepare_cases (request : Request) (w : World) :
    (∃ e, prepare request w = .error e w) ∨
    (request.clears w.disk = false ∧ prepare request w = makeDirs request.docs w) ∨
    (request.clears w.disk = true ∧
      ¬ request.docs.resolve w.disk.cwd.place <+: request.source.resolve w.disk.cwd.place ∧
      prepare request w = (removeTree request.docs >>= fun _ => makeDirs request.docs) w) := by
  unfold prepare
  rw [disk_bind]
  cases hdir : w.disk.isDir request.source with
  | error cause => exact .inl ⟨_, orRefused_error_bind _ _ _⟩
  | ok found =>
    rw [orRefused_ok_bind]
    cases found with
    | false => exact .inl ⟨_, rfl⟩
    | true =>
      cases hclean : request.clean with
      | false =>
        refine .inr (.inl ⟨?_, rfl⟩)
        rw [Request.clears, hclean]
        rfl
      | true =>
        cases hexists : w.disk.exists? request.docs with
        | error cause => exact .inl ⟨_, rfl⟩
        | ok stale =>
          have hclears : request.clears w.disk = stale := by
            simp [Request.clears, Disk.reaches, hclean, hexists]
          cases stale with
          | false => exact .inr (.inl ⟨hclears, rfl⟩)
          | true =>
            cases hsource : w.disk.resolve request.source with
            | error cause =>
              refine .inl ⟨.refused cause, ?_⟩
              simp [orRefused_ok_bind, orRefused_error_bind]
            | ok source =>
              cases hdocs : w.disk.resolve request.docs with
              | error cause =>
                refine .inl ⟨.refused cause, ?_⟩
                simp [orRefused_ok_bind, orRefused_error_bind]
              | ok docs =>
                -- the guard compares the two resolved locations
                by_cases hinside : docs <+: source
                · refine .inl ⟨.unsafeClean request.docs, ?_⟩
                  simp [orRefused_ok_bind, throw_bind, hinside]
                · refine .inr (.inr ⟨hclears, ?_, ?_⟩)
                  · rwa [← resolve_eq_ok hsource, ← resolve_eq_ok hdocs]
                  · simp [orRefused_ok_bind, hinside]

/-- What is seen on a disk once room was made for the pages: everything that was there before,
unless it lay in an output directory that was removed. -/
structure Prepared (request : Request) (d d' : Disk) : Prop where
  wellFormed : d'.root.WellFormed
  place : d'.cwd.place = d.cwd.place
  file? : ∀ l, d'.root.file? l =
    if request.clears d = true ∧ request.docs.resolve d.cwd.place <+: l then none
    else d.root.file? l

theorem prepared_of_prepare {request : Request} {w w' : World} (hwf : w.disk.root.WellFormed)
    (h : prepare request w = .ok () w') : Prepared request w.disk w'.disk := by
  rcases prepare_cases request w with ⟨e, herror⟩ | ⟨hclears, hdirs⟩ | ⟨hclears, -, hremove⟩
  · rw [herror] at h
    cases h
  · rw [hdirs] at h
    have hsame := sameFiles_of_makeDirs hwf h
    refine ⟨hsame.wellFormed, by rw [hsame.cwd], ?_⟩
    intro l
    rw [hsame.file? l, if_neg]
    simp [hclears]
  · rw [hremove] at h
    obtain ⟨_, w₁, htree, hdirs⟩ := bind_eq_ok.1 h
    obtain ⟨d₁, d₂, hclear, hremoved, rfl⟩ := removeTree_eq_ok.1 htree
    have hwf₂ : d₂.root.WellFormed :=
      Disk.wellFormed_of_removeDir (Disk.wellFormed_of_clear hwf hclear) hremoved
    have hplace : d₂.cwd.place = w.disk.cwd.place := (Disk.stays_of_removed hclear hremoved).place
    have hsame := sameFiles_of_makeDirs (w := { w with disk := d₂ }) hwf₂ hdirs
    refine ⟨hsame.wellFormed, ?_, ?_⟩
    · rw [hsame.cwd]
      exact hplace
    · intro l
      rw [hsame.file? l, file?_of_removed hclear hremoved l]
      simp [hclears]

end Run

end ActionDocs
