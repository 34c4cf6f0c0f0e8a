import ActionDocs.Proofs.Disk.Directories

/-!
# Disks that grow

Creating directories and writing files takes nothing away. What could be done once with such changes
can be done again on any disk that has grown since then.

- `Disk.Grows`: every directory is still there, and every file, if with other bytes.
- `Disk.grows_of_makeDir`, `Disk.grows_of_write`: the two changes.
- `Disk.Grows.isDir`: a path to a directory still leads to one.
- `Disk.makeDir_of_isDir`: a directory cannot be created where there is one.
- `Disk.WasWritten`: a file was written under a path, and nothing was removed since then.
- `Disk.WasWritten.write`: then another one can be written there.
-/

namespace ActionDocs

open Text

namespace Disk

/-! ## Growth -/

/-- A disk that still has every directory of another one, and every file, if with other bytes. -/
structure Grows (d d' : Disk) : Prop where
  cwd : d'.cwd = d.cwd
  hasDir (l : Location) : d.root.HasDir l → d'.root.HasDir l
  hasFile (l : Location) : (d.root.file? l).isSome → (d'.root.file? l).isSome

theorem Grows.refl (d : Disk) : Grows d d :=
  ⟨rfl, fun _ => id, fun _ => id⟩

theorem Grows.trans {d₁ d₂ d₃ : Disk} (h : Grows d₁ d₂) (h' : Grows d₂ d₃) : Grows d₁ d₃ :=
  ⟨h'.cwd.trans h.cwd, fun l hl => h'.hasDir l (h.hasDir l hl),
    fun l hl => h'.hasFile l (h.hasFile l hl)⟩

theorem grows_of_makeDir {d d' : Disk} {p : Path} (h : d.makeDir p = .ok d') : Grows d d' := by
  refine ⟨cwd_of_makeDir h, fun l hl => ?_, fun l hl => ?_⟩
  · exact (hasDir_of_makeDir h l).2 (.inr hl)
  · rwa [file?_of_makeDir h]

theorem grows_of_write {d d' : Disk} {p : Path} {bytes : ByteArray}
    (h : d.write p bytes = .ok d') : Grows d d' := by
  refine ⟨cwd_of_write h, fun l hl => (hasDir_of_write h l).2 hl, fun l hl => ?_⟩
  rw [file?_of_write h]
  split
  · rfl
  · exact hl

theorem Grows.stands_iff {d d' : Disk} (h : Grows d d') {a : Anchor} :
    d'.Stands a ↔ d.Stands a := by
  unfold Stands anchor
  rw [h.cwd]

/-- A path to a directory still leads to one. -/
theorem Grows.isDir {d d' : Disk} (h : Grows d d') {p : Path} (hp : d.Stands p.anchor)
    (hdir : d.isDir p = .ok true) : d'.isDir p = .ok true := by
  obtain ⟨entries, hentries⟩ := entries_of_isDir hdir
  have hway := (hasDir_of_entries hp hentries).2
  have hanchor : d'.anchor p.anchor = d.anchor p.anchor := by
    unfold anchor
    rw [h.cwd]
  obtain ⟨entries', hentries'⟩ :=
    entries_of_hasDir hp hanchor hentries fun l hl => h.hasDir l (hway l hl)
  exact isDir_of_entries hentries'

/-! ## Creating a directory again -/

theorem check_ne_notFound (p : Path) : p.check ≠ .error .notFound := by
  unfold Path.check
  split
  · simp
  · split <;> simp

theorem fits_of_check {p : Path} (h : p.check = .ok ()) : p.fits = true := by
  unfold Path.check at h
  split at h
  · cases h
  · split at h
    · assumption
    · cases h

theorem check_of_walk {d : Disk} {p : Path} {s : Spot} (h : d.walk p = .ok s) : p.check = .ok () :=
  (bind_eq_ok_iff.1 h).choose_spec.1

/-- A name can be followed only from a directory, and up or to one of its entries. -/
theorem exists_entries_of_step {d : Disk} {s s' : Spot} {name : Text} (h : d.step s name = .ok s') :
    ∃ entries, d.look s = some (.dir entries) ∧
      (name = parentName ∨ ∃ node, child? s.lost entries name = .ok (some node)) := by
  unfold step at h
  split at h
  · simp at h
  · simp at h
  · next entries hlook =>
    refine ⟨entries, hlook, ?_⟩
    by_cases hname : name = parentName
    · exact .inl hname
    · rw [if_neg hname] at h
      split at h
      · simp at h
      · simp at h
      · next node hchild => exact .inr ⟨node, hchild⟩

theorem parentDir_of_walk {d : Disk} {p : Path} {s : Spot} {entries : Entries}
    (hcheck : p.check = .ok ()) (hwalk : d.walk p.parent = .ok s)
    (hlook : d.look s = some (.dir entries)) : d.parentDir p = .ok (s, entries) := by
  refine bind_eq_ok_iff.2 ⟨(), hcheck, bind_eq_ok_iff.2 ⟨s, hwalk, ?_⟩⟩
  rw [hlook]
  rfl

/-- If a path can be followed, so can all names but its last one. The last one then leads up or to
an entry, and a path without it can only be refused as it is written. -/
theorem parentDir_of_walk_last {d : Disk} {p : Path} {s : Spot} {name : Text}
    (hlast : p.parts.getLast? = some name) (h : d.walk p = .ok s) :
    (∃ cause, cause ≠ .notFound ∧ d.parentDir p = .error cause) ∨
      ∃ s₁ entries, d.parentDir p = .ok (s₁, entries) ∧
        (name = parentName ∨ ∃ node, child? s₁.lost entries name = .ok (some node)) := by
  obtain ⟨names, hparts⟩ := List.getLast?_eq_some_iff.1 hlast
  have hcheck := check_of_walk h
  have hfollow := walk_eq_ok h
  rw [hparts, List.foldlM_append, bind_eq_ok_iff] at hfollow
  obtain ⟨s₁, hfront, hstep⟩ := hfollow
  obtain ⟨entries, hlook, hname⟩ := exists_entries_of_step (by simpa using hstep)
  cases hfits : p.parent.check with
  | error cause =>
    refine .inl ⟨cause, ?_, ?_⟩
    · rintro rfl
      exact check_ne_notFound _ hfits
    · unfold parentDir walk
      rw [hcheck, hfits]
      rfl
  | ok _ =>
    have hparent : p.parent.parts = names := by simp [Path.parent, hparts]
    have hwalk : d.walk p.parent = .ok s₁ := by
      refine bind_eq_ok_iff.2 ⟨(), hfits, ?_⟩
      rw [follow_eq_foldlM, hparent]
      exact hfront
    exact .inr ⟨s₁, entries, parentDir_of_walk hcheck hwalk hlook, hname⟩

/-- A directory cannot be created where there is one, and not because something is missing. -/
theorem makeDir_of_isDir {d : Disk} {p : Path} (h : d.isDir p = .ok true) :
    ∃ cause, cause ≠ .notFound ∧ d.makeDir p = .error cause := by
  obtain ⟨entries, hentries⟩ := entries_of_isDir h
  obtain ⟨s, hwalk, -⟩ := entries_eq_ok hentries
  unfold makeDir
  cases hlast : p.parts.getLast? with
  | none => exact ⟨.alreadyExists, by simp, rfl⟩
  | some name =>
    dsimp only
    rcases parentDir_of_walk_last hlast hwalk with
      ⟨cause, hcause, hrefused⟩ | ⟨s₁, sub, hparent, hname⟩
    · rw [hrefused]
      exact ⟨cause, hcause, rfl⟩
    · rw [hparent]
      refine ⟨.alreadyExists, by simp, ?_⟩
      show (if name = parentName then _ else _) = _
      by_cases hup : name = parentName
      · rw [if_pos hup]
        rfl
      · obtain ⟨node, hchild⟩ := hname.resolve_left hup
        rw [if_neg hup]
        show (child? s₁.lost sub name >>= _) = _
        rw [hchild]
        rfl

/-! ## Writing a file again -/

/-- A file was written under a path at some time, and nothing was removed since then. -/
def WasWritten (d : Disk) (p : Path) : Prop :=
  ∃ (before : Disk) (bytes : ByteArray) (after : Disk),
    before.write p bytes = .ok after ∧ after.Grows d

theorem wasWritten_of_write {d d' : Disk} {p : Path} {bytes : ByteArray}
    (h : d.write p bytes = .ok d') : d'.WasWritten p :=
  ⟨d, bytes, d', h, .refl d'⟩

theorem WasWritten.grow {d d' : Disk} {p : Path} (h : d.WasWritten p) (hd : d.Grows d') :
    d'.WasWritten p := by
  obtain ⟨before, bytes, after, hwrite, hgrows⟩ := h
  exact ⟨before, bytes, after, hwrite, hgrows.trans hd⟩

/-- There is a file under the path. -/
theorem WasWritten.isSome_file? {d : Disk} {p : Path} (h : d.WasWritten p) :
    (d.root.file? (p.resolve d.cwd.place)).isSome := by
  obtain ⟨before, bytes, after, hwrite, hgrows⟩ := h
  rw [hgrows.cwd]
  refine hgrows.hasFile _ ?_
  rw [cwd_of_write hwrite, file?_of_write hwrite, if_pos rfl]
  rfl

/-- The directory that the file is in is there. -/
theorem WasWritten.isDir_parent {d : Disk} {p : Path} (h : d.WasWritten p)
    (hp : d.Stands p.anchor) : d.isDir p.parent = .ok true := by
  obtain ⟨before, bytes, after, hwrite, hgrows⟩ := h
  have hsince : before.Grows d := (grows_of_write hwrite).trans hgrows
  obtain ⟨name, entries, hslot, -, -⟩ := write_eq_ok hwrite
  exact hsince.isDir (hsince.stands_iff.1 hp) (isDir_of_entries hslot.listed)

/-- A path under which a file was written is not too long, and neither is its last name. -/
theorem WasWritten.fits {d : Disk} {p : Path} (h : d.WasWritten p) :
    p.check = .ok () ∧ ∃ name, p.parts.getLast? = some name ∧ name ≠ parentName ∧
      byteLength name ≤ nameLimit := by
  obtain ⟨before, bytes, after, hwrite, -⟩ := h
  obtain ⟨name, s, entries, found, hlast, hname, hparent, hchild, -, hput⟩ :=
    exists_put_of_write hwrite
  obtain ⟨hlost, -⟩ := put_eq_ok hput
  refine ⟨(bind_eq_ok_iff.1 hparent).choose_spec.1, name, hlast, hname, ?_⟩
  by_contra hlong
  rw [child?, if_pos ⟨hlost, by omega⟩] at hchild
  cases hchild

/-- Another file can be written under the same path. -/
theorem WasWritten.write {d : Disk} {p : Path} (h : d.WasWritten p) (hp : d.Stands p.anchor)
    (bytes : ByteArray) : ∃ d', d.write p bytes = .ok d' := by
  obtain ⟨hcheck, name, hlast, hname, hshort⟩ := h.fits
  have hparent : d.Stands p.parent.anchor := hp
  obtain ⟨entries, hentries⟩ := entries_of_isDir (h.isDir_parent hp)
  obtain ⟨s, hwalk, hlook⟩ := entries_eq_ok hentries
  have hlost : s.lost = 0 := (hasDir_of_foldlM hparent (walk_eq_ok hwalk)).1
  obtain ⟨old, hold⟩ : ∃ old, entries.lookup name = some (.file old) := by
    obtain ⟨old, hfile⟩ := Option.isSome_iff_exists.1 h.isSome_file?
    rw [Path.resolve_eq_append_of_getLast? hlast hname, Node.file?_append,
      (hasDir_of_entries hparent hentries).1, Option.bind_some, Node.file?_cons_dir,
      Option.bind_eq_some_iff] at hfile
    obtain ⟨node, hnode, hbytes⟩ := hfile
    have hnodeFile : node = .file old := Node.bytes?_eq_some_iff.1 hbytes
    exact ⟨old, by rw [hnode, hnodeFile]⟩
  have hchild : child? s.lost entries name = .ok (some (.file old)) := by
    rw [child?, if_neg (by omega), hold]
  unfold Disk.write
  rw [hlast]
  dsimp only
  rw [parentDir_of_walk hcheck hwalk hlook]
  show ∃ d', (if name = parentName then _ else _) = _
  rw [if_neg hname]
  show ∃ d', (child? s.lost entries name >>= _) = _
  rw [hchild]
  show ∃ d', d.put s name (.file bytes) = _
  rw [put, if_pos hlost]
  exact ⟨_, rfl⟩

end Disk

end ActionDocs
