import ActionDocs.Proofs.Disk.Changes

/-!
# The directories that are seen on a disk

Whether a path can be followed depends on the directories that it leads through, and on no more than
that. So a change of the disk is described by what it does to the directories as well.

- `Node.HasDir`: there is a directory at a location.
- `Node.hasDir_setDir`, `Node.hasDir_setFile`, `Node.hasDir_erase`, `Node.hasDir_clear`: the changes
  of a tree, as they are seen among the directories.
- `Path.way`: the locations that a path leads through.
- `Path.prefix_of_mem_way`: a path that never leads up only goes down.
- `Disk.Stands`: the directory that a path starts from has not been removed.
- `Disk.hasDir_of_entries`: a directory can be listed only if all of the way to it is there.
- `Disk.entries_of_hasDir`: a path that could be followed on one disk can be followed on every other
  one on which all of its way is there.
- `Disk.hasDir_of_makeDir`, `Disk.hasDir_of_write`, `Disk.hasDir_of_removed`: the changes of a disk.
-/

namespace ActionDocs

open Text

namespace Node

/-- There is a directory at a location. -/
def HasDir (root : Node) (l : Location) : Prop :=
  ∃ entries, root.get? l = some (.dir entries)

theorem HasDir.file?_eq_none {root : Node} {l : Location} (h : root.HasDir l) :
    root.file? l = none := by
  obtain ⟨entries, hdir⟩ := h
  rw [file?, hdir]
  rfl

theorem hasDir_append {root : Node} {place : Location} {node : Node}
    (hnode : root.get? place = some node) (rest : Location) :
    root.HasDir (place ++ rest) ↔ node.HasDir rest := by
  unfold HasDir
  rw [get?_append, hnode, Option.bind_some]

theorem hasDir_cons {name : Text} {rest : Location} {entries : Entries} :
    (Node.dir entries).HasDir (name :: rest) ↔
      ∃ child, entries.lookup name = some child ∧ child.HasDir rest := by
  unfold HasDir
  rw [get?]
  cases entries.lookup name <;> simp

/-- A change is not seen among the directories that are not below it. -/
theorem hasDir_update_of_not_below (f : Node → Node) {place l : Location} (root : Node)
    (h : ¬ place <+: l) : (update f place root).HasDir l ↔ root.HasDir l := by
  unfold HasDir
  rcases get?_update_of_not_below f root h with heq | ⟨entries, entries', hold, hnew⟩
  · rw [heq]
  · rw [hold, hnew]
    exact ⟨fun _ => ⟨entries, rfl⟩, fun _ => ⟨entries', rfl⟩⟩

theorem hasDir_update_append {f : Node → Node} {place : Location} {root node : Node}
    (hnode : root.get? place = some node) (rest : Location) :
    (update f place root).HasDir (place ++ rest) ↔ (f node).HasDir rest := by
  unfold HasDir
  rw [get?_update_append, hnode, Option.map_some, Option.bind_some]

/-- A new directory is seen at its location only. -/
theorem hasDir_setDir {root : Node} {place : Location} {entries : Entries}
    (hdir : root.get? place = some (.dir entries)) {name : Text}
    (hold : entries.lookup name = none) (l : Location) :
    (update (setChild name (.dir [])) place root).HasDir l ↔
      l = place ++ [name] ∨ root.HasDir l := by
  by_cases hplace : place <+: l
  · obtain ⟨rest, rfl⟩ := hplace
    rw [hasDir_update_append hdir, hasDir_append hdir, setChild]
    cases rest with
    | nil => simp [HasDir, get?]
    | cons m rest =>
      rw [hasDir_cons, hasDir_cons, lookup_setEntry]
      by_cases hm : m = name
      · subst hm
        cases rest with
        | nil => simp [HasDir, get?]
        | cons m' rest => simp [hold, hasDir_cons]
      · simp [hm]
  · rw [hasDir_update_of_not_below _ root hplace, or_iff_right]
    rintro rfl
    exact hplace (List.prefix_append _ _)

/-- Writing a file is not seen among the directories. -/
theorem hasDir_setFile {root : Node} {place : Location} {entries : Entries}
    (hdir : root.get? place = some (.dir entries)) {name : Text}
    (hold : ∀ sub, entries.lookup name ≠ some (.dir sub)) (bytes : ByteArray) (l : Location) :
    (update (setChild name (.file bytes)) place root).HasDir l ↔ root.HasDir l := by
  by_cases hplace : place <+: l
  · obtain ⟨rest, rfl⟩ := hplace
    rw [hasDir_update_append hdir, hasDir_append hdir, setChild]
    cases rest with
    | nil => simp [HasDir, get?]
    | cons m rest =>
      rw [hasDir_cons, hasDir_cons, lookup_setEntry]
      by_cases hm : m = name
      · -- there is no directory at or below a file
        subst hm
        have hfile : ∀ b : ByteArray, ¬ (Node.file b).HasDir rest := by
          rintro b ⟨sub, hsub⟩
          cases rest <;> simp [get?] at hsub
        rw [if_pos rfl]
        constructor
        · rintro ⟨child, hchild, hbelow⟩
          obtain rfl := Option.some.inj hchild
          exact absurd hbelow (hfile bytes)
        · rintro ⟨child, hchild, hbelow⟩
          cases child with
          | file b => exact absurd hbelow (hfile b)
          | dir sub => exact absurd hchild (hold sub)
      · rw [if_neg hm]
  · exact hasDir_update_of_not_below _ root hplace

/-- An entry that is erased is no longer seen, and nothing below it. -/
theorem hasDir_erase {root : Node} {place : Location} {entries : Entries}
    (hdir : root.get? place = some (.dir entries)) (name : Text) (l : Location) :
    (update (eraseChild name) place root).HasDir l ↔ ¬ place ++ [name] <+: l ∧ root.HasDir l := by
  by_cases hplace : place <+: l
  · obtain ⟨rest, rfl⟩ := hplace
    rw [hasDir_update_append hdir, hasDir_append hdir, eraseChild, List.prefix_append_right_inj]
    cases rest with
    | nil => simp [HasDir, get?]
    | cons m rest =>
      rw [hasDir_cons, hasDir_cons, lookup_filter_ne]
      by_cases hm : m = name
      · simp [hm]
      · simp [hm, Ne.symm hm]
  · have hl : ¬ place ++ [name] <+: l := fun h => hplace ((List.prefix_append _ _).trans h)
    rw [hasDir_update_of_not_below _ root hplace]
    exact (and_iff_right hl).symm

/-- Of a directory that is emptied only itself is still seen. -/
theorem hasDir_clear {root : Node} {place : Location} {entries : Entries}
    (hdir : root.get? place = some (.dir entries)) (l : Location) :
    (update (fun _ => .dir []) place root).HasDir l ↔
      (place <+: l → l = place) ∧ root.HasDir l := by
  by_cases hplace : place <+: l
  · obtain ⟨rest, rfl⟩ := hplace
    rw [hasDir_update_append hdir, hasDir_append hdir]
    cases rest with
    | nil => simp [HasDir, get?]
    | cons m rest => simp [hasDir_cons]
  · rw [hasDir_update_of_not_below _ root hplace]
    exact (and_iff_right fun h => absurd h hplace).symm

end Node

/-! ## The way of a path -/

/-- The locations that a path leads through, from where it starts to where it ends. -/
def Path.way (p : Path) (cwd : Location) : List Location :=
  p.parts.scanl advance (if p.anchor = .here then cwd else [])

namespace Path

/-- A path ends at its resolved location. -/
theorem resolve_mem_way (p : Path) (cwd : Location) : p.resolve cwd ∈ p.way cwd := by
  rw [resolve_eq_foldl, way, ← List.getLast_scanl List.scanl_ne_nil]
  exact List.getLast_mem _

/-- The way of a path is that of its parent and its end. -/
theorem way_eq {p : Path} {name : Text} (hlast : p.parts.getLast? = some name) (cwd : Location) :
    p.way cwd = p.parent.way cwd ++ [p.resolve cwd] := by
  obtain ⟨names, hparts⟩ := List.getLast?_eq_some_iff.1 hlast
  rw [way, way, resolve_eq_foldl, parent, hparts]
  simp [List.scanl_append]

/-- Where the front of a path leads to lies on the way of the path. -/
theorem resolve_mem_way_of_prefix {p : Path} {front : List Text} (h : front <+: p.parts)
    (cwd : Location) : (Path.mk p.anchor front).resolve cwd ∈ p.way cwd := by
  obtain ⟨rest, hparts⟩ := h
  have hend := resolve_mem_way ⟨p.anchor, front⟩ cwd
  rw [way, ← hparts, List.scanl_append]
  exact List.mem_append_left _ hend

/-- A path that never leads up only goes down to where it ends. -/
theorem prefix_of_mem_way {p : Path} (h : parentName ∉ p.parts) {cwd l : Location}
    (hl : l ∈ p.way cwd) : l <+: p.resolve cwd := by
  have hnames : ∀ name ∈ p.parts, name ≠ parentName := by
    rintro name hname rfl
    exact h hname
  rw [resolve_eq_foldl, foldl_advance_eq_append hnames]
  rw [way] at hl
  generalize (if p.anchor = .here then cwd else []) = place at hl ⊢
  generalize p.parts = names at hl hnames
  induction names generalizing place with
  | nil =>
    obtain rfl : l = place := by simpa using hl
    simp
  | cons name names ih =>
    rw [List.scanl_cons, List.mem_cons] at hl
    rcases hl with rfl | hl
    · exact List.prefix_append _ _
    · rw [advance, if_neg (hnames name (by simp))] at hl
      have hrest := ih _ hl fun n hn => hnames n (by simp [hn])
      rwa [List.append_assoc] at hrest

end Path

/-- Where following a name leads to. -/
def Spot.advance (s : Spot) (name : Text) : Spot :=
  if name = parentName then s.up else s.down name

namespace Disk

/-- The directory that paths start from has not been removed. -/
def Stands (d : Disk) (a : Anchor) : Prop :=
  (d.anchor a).lost = 0

theorem stands_of_resolve {d : Disk} {p : Path} {l : Location} (h : d.resolve p = .ok l) :
    d.Stands p.anchor := by
  unfold Disk.resolve at h
  unfold Stands
  cases hanchor : p.anchor with
  | here =>
    by_cases hlost : d.cwd.lost = 0
    · exact hlost
    · simp [hanchor, hlost] at h
  | root | doubleRoot => rfl

theorem resolve_of_stands {d : Disk} {p : Path} (h : d.Stands p.anchor) :
    d.resolve p = .ok (p.resolve d.cwd.place) := by
  unfold Disk.resolve
  unfold Stands at h
  cases hanchor : p.anchor with
  | here =>
    rw [hanchor] at h
    have hlost : d.cwd.lost = 0 := h
    simp [hlost, pure, Except.pure]
  | root | doubleRoot => rfl

/-- What has not been removed later was there before. -/
theorem stands_of_stays {d d' : Disk} {a : Anchor} (h : d.cwd.Stays d'.cwd) (ha : d'.Stands a) :
    d.Stands a := by
  cases a with
  | here => exact Nat.le_zero.1 (Nat.le_trans h.lost (Nat.le_of_eq ha))
  | root | doubleRoot => rfl

theorem anchor_eq_of_stays {d d' : Disk} {a : Anchor} (h : d.cwd.Stays d'.cwd)
    (ha : d'.Stands a) : d'.anchor a = d.anchor a := by
  cases a with
  | here =>
    have hlost : d'.cwd.lost = d.cwd.lost := ha.trans (stands_of_stays h ha).symm
    show d'.cwd = d.cwd
    rw [Spot.mk.injEq]
    exact ⟨h.place, hlost⟩
  | root | doubleRoot => rfl

/-- A name can be followed only from a directory, and it is not too long unless it leads up. -/
theorem step_eq_ok {d : Disk} {s s' : Spot} {name : Text} (hlost : s.lost = 0)
    (h : d.step s name = .ok s') :
    s' = s.advance name ∧ s'.lost = 0 ∧ d.root.HasDir s.place ∧
      (name = parentName ∨ byteLength name ≤ nameLimit) := by
  unfold step at h
  unfold Spot.advance
  split at h
  · simp at h
  · simp at h
  · next entries hlook =>
    have hdir : d.root.HasDir s.place := ⟨entries, get?_of_look hlook hlost⟩
    by_cases hname : name = parentName
    · rw [if_pos hname] at h
      obtain rfl : s.up = s' := by simpa using h
      exact ⟨by rw [if_pos hname], by simp [Spot.up, hlost], hdir, .inl hname⟩
    · rw [if_neg hname] at h
      split at h
      · simp at h
      · simp at h
      · next node hchild =>
        obtain rfl : s.down name = s' := by simpa using h
        refine ⟨by rw [if_neg hname], rfl, hdir, .inr ?_⟩
        by_contra hlong
        rw [child?, if_pos ⟨hlost, by omega⟩] at hchild
        cases hchild

/-- A name that is not too long can be followed from a directory to a directory. -/
theorem step_of_hasDir {d : Disk} {s : Spot} {name : Text} (hlost : s.lost = 0)
    (hshort : name = parentName ∨ byteLength name ≤ nameLimit) (hdir : d.root.HasDir s.place)
    (hnext : d.root.HasDir (Path.advance s.place name)) :
    d.step s name = .ok (s.advance name) := by
  obtain ⟨entries, hentries⟩ := hdir
  have hlook : d.look s = some (.dir entries) := by rw [look, if_pos hlost, hentries]
  unfold step Spot.advance
  rw [hlook]
  by_cases hname : name = parentName
  · simp [hname]
  · rw [Path.advance, if_neg hname, Node.hasDir_append hentries] at hnext
    obtain ⟨child, hchild, -⟩ := Node.hasDir_cons.1 hnext
    have hfound : child? s.lost entries name = .ok (some child) := by
      have hfits := hshort.resolve_left hname
      rw [child?, if_neg (by omega), hchild]
    simp [hname, hfound]

/-- If names can be followed to a directory, there are directories all the way. -/
theorem hasDir_of_foldlM {d : Disk} {names : List Text} {s s' : Spot} (hlost : s.lost = 0)
    (h : names.foldlM d.step s = .ok s') :
    s'.lost = 0 ∧
      (d.root.HasDir s'.place → ∀ l ∈ names.scanl Path.advance s.place, d.root.HasDir l) := by
  induction names generalizing s with
  | nil =>
    obtain rfl : s = s' := by simpa using h
    refine ⟨hlost, fun hend l hl => ?_⟩
    obtain rfl : l = s.place := by simpa using hl
    exact hend
  | cons name names ih =>
    rw [List.foldlM_cons, bind_eq_ok_iff] at h
    obtain ⟨s₁, hstep, hrest⟩ := h
    obtain ⟨-, hlost₁, hdir, -⟩ := step_eq_ok hlost hstep
    obtain ⟨hlost', hway⟩ := ih hlost₁ hrest
    refine ⟨hlost', fun hend l hl => ?_⟩
    rw [List.scanl_cons, List.mem_cons, ← place_of_step hstep] at hl
    rcases hl with rfl | hl
    · exact hdir
    · exact hway hend l hl

/-- Names that could be followed on one disk can be followed on another one on which there are
directories all the way. -/
theorem foldlM_of_hasDir {d d' : Disk} {names : List Text} {s s' : Spot} (hlost : s.lost = 0)
    (h : names.foldlM d.step s = .ok s')
    (hway : ∀ l ∈ names.scanl Path.advance s.place, d'.root.HasDir l) :
    names.foldlM d'.step s = .ok s' := by
  induction names generalizing s with
  | nil => simpa using h
  | cons name names ih =>
    rw [List.foldlM_cons, bind_eq_ok_iff] at h
    obtain ⟨s₁, hstep, hrest⟩ := h
    obtain ⟨rfl, hlost₁, -, hshort⟩ := step_eq_ok hlost hstep
    rw [List.scanl_cons, ← place_of_step hstep] at hway
    have hnext : d'.root.HasDir (s.advance name).place := by
      refine hway _ (List.mem_cons_of_mem _ ?_)
      cases names <;> simp
    have hstep' : d'.step s name = .ok (s.advance name) := by
      refine step_of_hasDir hlost hshort (hway _ (by simp)) ?_
      rwa [← place_of_step hstep]
    rw [List.foldlM_cons, hstep']
    exact ih hlost₁ hrest fun l hl => hway l (List.mem_cons_of_mem _ hl)

/-- A directory can be listed only if there are directories all the way to it. -/
theorem hasDir_of_entries {d : Disk} {p : Path} {entries : Entries} (hp : d.Stands p.anchor)
    (h : d.entries p = .ok entries) :
    d.root.get? (p.resolve d.cwd.place) = some (.dir entries) ∧
      ∀ l ∈ p.way d.cwd.place, d.root.HasDir l := by
  obtain ⟨s, hwalk, hlook⟩ := entries_eq_ok h
  obtain ⟨hlost, hway⟩ := hasDir_of_foldlM hp (walk_eq_ok hwalk)
  have hdir := get?_of_look hlook hlost
  rw [place_anchor] at hway
  refine ⟨?_, hway ⟨entries, hdir⟩⟩
  rwa [← place_of_walk hwalk]

/-- A directory that could be listed on one disk can be listed on another one on which there are
directories all the way to it. -/
theorem entries_of_hasDir {d d' : Disk} {p : Path} {entries : Entries} (hp : d.Stands p.anchor)
    (hstart : d'.anchor p.anchor = d.anchor p.anchor) (h : d.entries p = .ok entries)
    (hway : ∀ l ∈ p.way d.cwd.place, d'.root.HasDir l) :
    ∃ entries', d'.entries p = .ok entries' := by
  obtain ⟨s, hwalk, -⟩ := entries_eq_ok h
  have hlost : s.lost = 0 := (hasDir_of_foldlM hp (walk_eq_ok hwalk)).1
  have hwalk' : d'.walk p = .ok s := by
    have hfollow := walk_eq_ok hwalk
    unfold walk at hwalk ⊢
    obtain ⟨u, hcheck, -⟩ := bind_eq_ok_iff.1 hwalk
    refine bind_eq_ok_iff.2 ⟨u, hcheck, ?_⟩
    rw [follow_eq_foldlM, hstart]
    refine foldlM_of_hasDir hp hfollow ?_
    rwa [place_anchor]
  obtain ⟨entries', hdir⟩ : d'.root.HasDir s.place := by
    rw [place_of_walk hwalk]
    exact hway _ (p.resolve_mem_way _)
  have hlook : d'.look s = some (.dir entries') := by rw [look, if_pos hlost, hdir]
  exact ⟨entries', entries_of_walk hwalk' hlook⟩

/-- What is found to be a directory can be listed. -/
theorem entries_of_isDir {d : Disk} {p : Path} (h : d.isDir p = .ok true) :
    ∃ entries, d.entries p = .ok entries := by
  unfold isDir satisfies at h
  cases hfind : d.find p with
  | error cause =>
    rw [hfind] at h
    dsimp only at h
    split at h <;> cases h
  | ok node =>
    cases node with
    | file bytes => simp [hfind, Node.isDir] at h
    | dir entries => exact ⟨entries, bind_eq_ok_iff.2 ⟨_, hfind, rfl⟩⟩

theorem isDir_of_entries {d : Disk} {p : Path} {entries : Entries} (h : d.entries p = .ok entries) :
    d.isDir p = .ok true := by
  obtain ⟨node, hnode, h⟩ := bind_eq_ok_iff.1 h
  unfold isDir satisfies
  rw [hnode]
  cases node with
  | file bytes => simp at h
  | dir sub => rfl

theorem exists_of_isDir {d : Disk} {p : Path} (h : d.isDir p = .ok true) :
    d.exists? p = .ok true := by
  unfold isDir satisfies at h
  unfold exists? satisfies
  cases hfind : d.find p with
  | ok node => rfl
  | error cause =>
    rw [hfind] at h
    dsimp only at h
    split at h <;> cases h

/-! ## Changes, as they are seen among the directories -/

/-- Creating a directory is seen at its location only. -/
theorem hasDir_of_makeDir {d d' : Disk} {p : Path} (h : d.makeDir p = .ok d') (l : Location) :
    d'.root.HasDir l ↔ l = p.resolve d.cwd.place ∨ d.root.HasDir l := by
  obtain ⟨name, entries, hslot, hnone, rfl⟩ := makeDir_eq_ok h
  rw [hslot.resolve_eq]
  exact Node.hasDir_setDir hslot.dir hnone l

/-- Writing a file is not seen among the directories. -/
theorem hasDir_of_write {d d' : Disk} {p : Path} {bytes : ByteArray}
    (h : d.write p bytes = .ok d') (l : Location) : d'.root.HasDir l ↔ d.root.HasDir l := by
  obtain ⟨name, entries, hslot, hold, rfl⟩ := write_eq_ok h
  exact Node.hasDir_setFile hslot.dir hold bytes l

/-- Emptying and removing a directory is seen at its location and below. -/
theorem hasDir_of_removed {d d₁ d₂ : Disk} {p : Path} (hclear : d.clear p = .ok d₁)
    (hremove : d₁.removeDir p = .ok d₂) :
    d.root.HasDir (p.resolve d.cwd.place) ∧
      (∀ l, d₁.root.HasDir l ↔ (p.resolve d.cwd.place <+: l → l = p.resolve d.cwd.place) ∧
        d.root.HasDir l) ∧
      ∀ l, d₂.root.HasDir l ↔ ¬ p.resolve d.cwd.place <+: l ∧ d.root.HasDir l := by
  obtain ⟨name, entries, hslot, -, hroot₂⟩ := removeDir_eq_ok hremove
  obtain ⟨hstays, ⟨-, s, hwalk, hlost⟩ | ⟨sub, hdir, hroot₁⟩⟩ := clear_eq_ok hclear
  · exact absurd (lost_of_walk hwalk hslot.last hslot.name_ne) hlost
  · have hemptied : ∀ l, d₁.root.HasDir l ↔
        (p.resolve d.cwd.place <+: l → l = p.resolve d.cwd.place) ∧ d.root.HasDir l := by
      intro l
      rw [hroot₁]
      exact Node.hasDir_clear hdir l
    refine ⟨⟨sub, hdir⟩, hemptied, fun l => ?_⟩
    rw [hroot₂, Node.hasDir_erase hslot.dir, ← hslot.resolve_eq, hstays.place, hemptied]
    constructor
    · rintro ⟨hbelow, -, hl⟩
      exact ⟨hbelow, hl⟩
    · rintro ⟨hbelow, hl⟩
      exact ⟨hbelow, fun h => absurd h hbelow, hl⟩

/-- A directory can be removed under a path only if the path does not lead through what was in the
directory. So all of its way is left but the directory itself. -/
theorem hasDir_on_way_of_removed {d d₁ d₂ : Disk} {p : Path} (hp : d₂.Stands p.anchor)
    (hclear : d.clear p = .ok d₁) (hremove : d₁.removeDir p = .ok d₂) :
    ∀ l ∈ p.way d.cwd.place, l = p.resolve d.cwd.place ∨ d₂.root.HasDir l := by
  obtain ⟨-, hemptied, hremoved⟩ := hasDir_of_removed hclear hremove
  obtain ⟨name, entries, hslot, hstays, -⟩ := removeDir_eq_ok hremove
  have hplace := (clear_eq_ok hclear).1.place
  have hstands : d₁.Stands p.parent.anchor := stands_of_stays hstays hp
  have hparent := (hasDir_of_entries hstands hslot.listed).2
  rw [hplace] at hparent
  intro l hl
  rw [Path.way_eq hslot.last, List.mem_append, List.mem_singleton] at hl
  rcases hl with hl | rfl
  · obtain ⟨hbelow, hdir⟩ := (hemptied l).1 (hparent l hl)
    by_cases hpre : p.resolve d.cwd.place <+: l
    · exact .inl (hbelow hpre)
    · exact .inr ((hremoved l).2 ⟨hpre, hdir⟩)
  · exact .inl rfl

end Disk

end ActionDocs
