import ActionDocs.Disk.Basic
import ActionDocs.Proofs.Disk.Tree

/-!
# What a change of the disk does

Following a path ends at the location that the path resolves to, whatever lies on the way. So each
change of the disk happens at a location that is known from the path alone, and this file says what
is seen on the disk after it.

- `Disk.place_of_walk`: a path that can be followed leads to its resolved location.
- `Spot.Stays`: the program stays where it is when something is removed.
- `Disk.Slot`: the directory that the last name of a path stands in.
- `Disk.makeDir_eq_ok`, `Disk.write_eq_ok`, `Disk.clear_eq_ok`, `Disk.removeDir_eq_ok`: what a
  change that is not refused has found, and what it leaves behind.
- `Disk.wellFormed_of_makeDir` and its like: changes keep the tree well-formed.
- `Disk.file?_of_makeDir`, `Disk.file?_of_write`, `Disk.file?_of_clear`, `Disk.file?_of_removeDir`:
  the same as it is seen among the files.
-/

namespace ActionDocs

open Text

/-- A computation in two parts succeeds if both parts do. -/
theorem bind_eq_ok_iff {ε α β : Type} {x : Except ε α} {f : α → Except ε β} {b : β} :
    (x >>= f) = .ok b ↔ ∃ a, x = .ok a ∧ f a = .ok b := by
  cases x with
  | error e => simp [bind, Except.bind]
  | ok a => simp [bind, Except.bind]

/-- A computation in two parts fails in its first part or in its second. -/
theorem bind_eq_error_iff {ε α β : Type} {x : Except ε α} {f : α → Except ε β} {e : ε} :
    (x >>= f) = .error e ↔ x = .error e ∨ ∃ a, x = .ok a ∧ f a = .error e := by
  cases x with
  | error e => simp [bind, Except.bind]
  | ok a => simp [bind, Except.bind]

@[simp] theorem throw_eq_ok_iff {ε α : Type} {e : ε} {a : α} :
    (throw e : Except ε α) = .ok a ↔ False := by
  simp [throw, throwThe, MonadExceptOf.throw]

@[simp] theorem pure_eq_ok_iff {ε α : Type} {a b : α} :
    (pure a : Except ε α) = .ok b ↔ a = b := by
  simp [pure, Except.pure]

namespace Path

/-- The location that is reached from another one by following one name. -/
def advance (place : Location) (name : Text) : Location :=
  if name = parentName then place.dropLast else place ++ [name]

theorem resolve_eq_foldl (p : Path) (cwd : Location) :
    p.resolve cwd = p.parts.foldl advance (if p.anchor = .here then cwd else []) := rfl

/-- Names that do not lead up are added to the location one after the other. -/
theorem foldl_advance_eq_append {names : List Text} (h : ∀ name ∈ names, name ≠ parentName)
    (place : Location) : names.foldl advance place = place ++ names := by
  induction names generalizing place with
  | nil => simp
  | cons name names ih =>
    have hname : name ≠ parentName := h name (by simp)
    have hnames : ∀ n ∈ names, n ≠ parentName := fun n hn => h n (by simp [hn])
    rw [List.foldl_cons, advance, if_neg hname, ih hnames]
    simp

theorem resolve_below (p : Path) {names : List Text} (h : ∀ name ∈ names, name ≠ parentName)
    (cwd : Location) : (p.below names).resolve cwd = p.resolve cwd ++ names := by
  rw [resolve_eq_foldl, resolve_eq_foldl, below, List.foldl_append, foldl_advance_eq_append h]

/-- The last name of a path is the last one of its location, unless it leads up. -/
theorem resolve_eq_append_of_getLast? {p : Path} {name : Text}
    (hlast : p.parts.getLast? = some name) (hname : name ≠ parentName) (cwd : Location) :
    p.resolve cwd = p.parent.resolve cwd ++ [name] := by
  obtain ⟨names, hparts⟩ := List.getLast?_eq_some_iff.1 hlast
  rw [resolve_eq_foldl, resolve_eq_foldl, parent, hparts, List.foldl_append]
  simp [advance, hname]

end Path

/-- A spot is still at the same place, though more of the levels to it may have been removed. -/
structure Spot.Stays (s s' : Spot) : Prop where
  place : s'.place = s.place
  lost : s.lost ≤ s'.lost

theorem Spot.Stays.refl (s : Spot) : s.Stays s :=
  ⟨rfl, Nat.le_refl _⟩

theorem Spot.Stays.trans {s₁ s₂ s₃ : Spot} (h : s₁.Stays s₂) (h' : s₂.Stays s₃) : s₁.Stays s₃ :=
  ⟨h'.place.trans h.place, Nat.le_trans h.lost h'.lost⟩

theorem Spot.stays_afterClearing (cleared : Location) (s : Spot) :
    s.Stays (s.afterClearing cleared) := by
  unfold afterClearing
  split
  · exact ⟨rfl, Nat.le_max_left _ _⟩
  · exact .refl s

theorem Spot.stays_afterRemoval (removed : Location) (s : Spot) :
    s.Stays (s.afterRemoval removed) := by
  unfold afterRemoval
  split
  · exact ⟨rfl, Nat.le_max_left _ _⟩
  · exact .refl s

namespace Disk

/-! ## Following a path -/

theorem place_of_step {d : Disk} {s s' : Spot} {name : Text} (h : d.step s name = .ok s') :
    s'.place = Path.advance s.place name := by
  unfold step at h
  split at h
  · simp at h
  · simp at h
  · by_cases hname : name = parentName
    · rw [if_pos hname] at h
      obtain rfl : s.up = s' := by simpa using h
      rw [Path.advance, if_pos hname, Spot.up]
    · rw [if_neg hname] at h
      split at h
      · simp at h
      · simp at h
      · obtain rfl : s.down name = s' := by simpa using h
        rw [Path.advance, if_neg hname, Spot.down]

theorem place_of_foldlM {d : Disk} {names : List Text} {s s' : Spot}
    (h : names.foldlM d.step s = .ok s') : s'.place = names.foldl Path.advance s.place := by
  induction names generalizing s with
  | nil =>
    obtain rfl : s = s' := by simpa using h
    rfl
  | cons name names ih =>
    rw [List.foldlM_cons, bind_eq_ok_iff] at h
    obtain ⟨s₁, hstep, hrest⟩ := h
    rw [List.foldl_cons, ← place_of_step hstep]
    exact ih hrest

theorem walk_eq_ok {d : Disk} {p : Path} {s : Spot} (h : d.walk p = .ok s) :
    p.parts.foldlM d.step (d.anchor p.anchor) = .ok s := by
  unfold walk at h
  obtain ⟨-, -, h⟩ := bind_eq_ok_iff.1 h
  rwa [follow_eq_foldlM] at h

theorem place_anchor (d : Disk) (p : Path) :
    (d.anchor p.anchor).place = if p.anchor = .here then d.cwd.place else [] := by
  cases p.anchor <;> rfl

/-- A path that can be followed leads to its resolved location. -/
theorem place_of_walk {d : Disk} {p : Path} {s : Spot} (h : d.walk p = .ok s) :
    s.place = p.resolve d.cwd.place := by
  rw [place_of_foldlM (walk_eq_ok h), Path.resolve_eq_foldl, place_anchor]

/-- Only `..` and the empty path can lead to a directory that was removed. -/
theorem lost_of_walk {d : Disk} {p : Path} {s : Spot} {name : Text} (h : d.walk p = .ok s)
    (hlast : p.parts.getLast? = some name) (hname : name ≠ parentName) : s.lost = 0 := by
  obtain ⟨names, hparts⟩ := List.getLast?_eq_some_iff.1 hlast
  have hfold := walk_eq_ok h
  rw [hparts, List.foldlM_append, bind_eq_ok_iff] at hfold
  obtain ⟨s₁, -, hstep⟩ := hfold
  have hdown : d.step s₁ name = .ok s := by simpa using hstep
  unfold step at hdown
  split at hdown
  · simp at hdown
  · simp at hdown
  · rw [if_neg hname] at hdown
    split at hdown
    · simp at hdown
    · simp at hdown
    · obtain rfl : s₁.down name = s := by simpa using hdown
      rfl

theorem entries_eq_ok {d : Disk} {p : Path} {entries : Entries} (h : d.entries p = .ok entries) :
    ∃ s, d.walk p = .ok s ∧ d.look s = some (.dir entries) := by
  unfold Disk.entries at h
  obtain ⟨node, hnode, h⟩ := bind_eq_ok_iff.1 h
  unfold find at hnode
  obtain ⟨s, hwalk, hlook⟩ := bind_eq_ok_iff.1 hnode
  cases hs : d.look s with
  | none => simp [hs] at hlook
  | some found =>
    obtain rfl : found = node := by simpa [hs] using hlook
    cases found with
    | file bytes => simp at h
    | dir sub =>
      obtain rfl : sub = entries := by simpa using h
      exact ⟨s, hwalk, hs⟩

/-- A directory that a path leads to can be listed. -/
theorem entries_of_walk {d : Disk} {p : Path} {s : Spot} {entries : Entries}
    (hwalk : d.walk p = .ok s) (hlook : d.look s = some (.dir entries)) :
    d.entries p = .ok entries := by
  have hfind : d.find p = .ok (.dir entries) := by
    refine bind_eq_ok_iff.2 ⟨s, hwalk, ?_⟩
    rw [hlook]
    rfl
  exact bind_eq_ok_iff.2 ⟨_, hfind, rfl⟩

/-! ## Changes at the last name of a path -/

/-- The last name of a path stands for an entry of the directory that the names before it lead
to. -/
structure Slot (d : Disk) (p : Path) (name : Text) (entries : Entries) : Prop where
  last : p.parts.getLast? = some name
  name_ne : name ≠ parentName
  dir : d.root.get? (p.parent.resolve d.cwd.place) = some (.dir entries)
  listed : d.entries p.parent = .ok entries

theorem Slot.resolve_eq {d : Disk} {p : Path} {name : Text} {entries : Entries}
    (h : d.Slot p name entries) :
    p.resolve d.cwd.place = p.parent.resolve d.cwd.place ++ [name] :=
  Path.resolve_eq_append_of_getLast? h.last h.name_ne _

theorem parentDir_eq_ok {d : Disk} {p : Path} {s : Spot} {entries : Entries}
    (h : d.parentDir p = .ok (s, entries)) :
    s.place = p.parent.resolve d.cwd.place ∧ d.look s = some (.dir entries) ∧
      d.entries p.parent = .ok entries := by
  unfold parentDir at h
  obtain ⟨-, -, h⟩ := bind_eq_ok_iff.1 h
  obtain ⟨s', hwalk, h⟩ := bind_eq_ok_iff.1 h
  cases hs : d.look s' with
  | none => simp [hs] at h
  | some node =>
    cases node with
    | file bytes => simp [hs] at h
    | dir sub =>
      obtain ⟨rfl, rfl⟩ : s' = s ∧ sub = entries := by simpa [hs] using h
      exact ⟨place_of_walk hwalk, hs, entries_of_walk hwalk hs⟩

theorem child?_eq_ok {lost : Nat} {entries : Entries} {name : Text} {found : Option Node}
    (h : child? lost entries name = .ok found) : entries.lookup name = found := by
  unfold child? at h
  split at h
  · simp at h
  · simpa using h

theorem put_eq_ok {d d' : Disk} {s : Spot} {name : Text} {node : Node}
    (h : d.put s name node = .ok d') :
    s.lost = 0 ∧ d' = { d with root := d.root.update (Node.setChild name node) s.place } := by
  unfold put at h
  split at h
  · next hlost => exact ⟨hlost, (pure_eq_ok_iff.1 h).symm⟩
  · simp at h

theorem get?_of_look {d : Disk} {s : Spot} {node : Node} (h : d.look s = some node)
    (hlost : s.lost = 0) : d.root.get? s.place = some node := by
  rwa [look, if_pos hlost] at h

/-- The directory that was found for the last name of a path is the one that the name stands in. -/
theorem slot_of_parentDir {d : Disk} {p : Path} {s : Spot} {name : Text} {entries : Entries}
    (hlast : p.parts.getLast? = some name) (hname : name ≠ parentName)
    (h : d.parentDir p = .ok (s, entries)) (hlost : s.lost = 0) : d.Slot p name entries := by
  obtain ⟨hplace, hlook, hlisted⟩ := parentDir_eq_ok h
  have hdir : d.root.get? (p.parent.resolve d.cwd.place) = some (.dir entries) := by
    rw [← hplace]
    exact get?_of_look hlook hlost
  exact ⟨hlast, hname, hdir, hlisted⟩

/-- A directory is created in an existing one, under a name that led nowhere. -/
theorem makeDir_eq_ok {d d' : Disk} {p : Path} (h : d.makeDir p = .ok d') :
    ∃ name entries, d.Slot p name entries ∧ entries.lookup name = none ∧
      d' = { d with
        root := d.root.update (Node.setChild name (.dir [])) (p.parent.resolve d.cwd.place) } := by
  unfold makeDir at h
  cases hlast : p.parts.getLast? with
  | none => simp [hlast] at h
  | some name =>
    simp only [hlast] at h
    obtain ⟨⟨s, entries⟩, hparent, h⟩ := bind_eq_ok_iff.1 h
    by_cases hname : name = parentName
    · simp [hname, bind_eq_ok_iff] at h
    · simp only [hname, if_false] at h
      obtain ⟨found, hchild, h⟩ := bind_eq_ok_iff.1 h
      have hfound := child?_eq_ok hchild
      cases found with
      | some node => simp [bind_eq_ok_iff] at h
      | none =>
        obtain ⟨hlost, hd'⟩ := put_eq_ok (by simpa using h)
        refine ⟨name, entries, slot_of_parentDir hlast hname hparent hlost, hfound, ?_⟩
        rw [hd', (parentDir_eq_ok hparent).1]

/-- How the steps of writing a file fit together. -/
theorem exists_put_of_write {d d' : Disk} {p : Path} {bytes : ByteArray}
    (h : d.write p bytes = .ok d') :
    ∃ name s entries found, p.parts.getLast? = some name ∧ name ≠ parentName ∧
      d.parentDir p = .ok (s, entries) ∧ child? s.lost entries name = .ok found ∧
      (∀ sub, found ≠ some (.dir sub)) ∧ d.put s name (.file bytes) = .ok d' := by
  unfold write at h
  cases hlast : p.parts.getLast? with
  | none => simp [hlast] at h
  | some name =>
    simp only [hlast] at h
    obtain ⟨⟨s, entries⟩, hparent, h⟩ := bind_eq_ok_iff.1 h
    by_cases hname : name = parentName
    · simp [hname, bind_eq_ok_iff] at h
    · simp only [hname, if_false] at h
      obtain ⟨found, hchild, h⟩ := bind_eq_ok_iff.1 h
      refine ⟨name, s, entries, found, rfl, hname, hparent, hchild, ?_⟩
      -- whatever is found, it is no directory and the new file takes its place
      cases found with
      | none => exact ⟨by simp, h⟩
      | some node =>
        cases node with
        | file old => exact ⟨by simp, h⟩
        | dir sub => simp at h

/-- A file is written into an existing directory, under a name that led to no directory. -/
theorem write_eq_ok {d d' : Disk} {p : Path} {bytes : ByteArray} (h : d.write p bytes = .ok d') :
    ∃ name entries, d.Slot p name entries ∧ (∀ sub, entries.lookup name ≠ some (.dir sub)) ∧
      d' = { d with
        root := d.root.update (Node.setChild name (.file bytes))
          (p.parent.resolve d.cwd.place) } := by
  obtain ⟨name, s, entries, found, hlast, hname, hparent, hchild, hold, hput⟩ :=
    exists_put_of_write h
  obtain ⟨hlost, hd'⟩ := put_eq_ok hput
  refine ⟨name, entries, slot_of_parentDir hlast hname hparent hlost, ?_, ?_⟩
  · rw [child?_eq_ok hchild]
    exact hold
  · rw [hd', (parentDir_eq_ok hparent).1]

/-- What is removed is an entry of an existing directory. -/
theorem removeDir_eq_ok {d d' : Disk} {p : Path} (h : d.removeDir p = .ok d') :
    ∃ name entries, d.Slot p name entries ∧ d.cwd.Stays d'.cwd ∧
      d'.root = d.root.update (Node.eraseChild name) (p.parent.resolve d.cwd.place) := by
  unfold removeDir at h
  cases hlast : p.parts.getLast? with
  | none => simp [hlast] at h
  | some name =>
    simp only [hlast] at h
    obtain ⟨⟨s, entries⟩, hparent, h⟩ := bind_eq_ok_iff.1 h
    obtain ⟨hplace, hlook, -⟩ := parentDir_eq_ok hparent
    by_cases hname : name = parentName
    · simp [hname, bind_eq_ok_iff] at h
    · simp only [hname, if_false] at h
      obtain ⟨found, hchild, h⟩ := bind_eq_ok_iff.1 h
      have hfound := child?_eq_ok hchild
      cases found with
      | none => simp only [Option.isNone_none, if_true, bind_eq_ok_iff, throw_eq_ok_iff, false_and,
          exists_false] at h
      | some node =>
        -- a removed directory looks empty, so the entry was found in one that is still there
        have hlost : s.lost = 0 := by
          by_cases hlost : s.lost = 0
          · exact hlost
          · rw [look, if_neg hlost] at hlook
            obtain rfl : [] = entries := by simpa using hlook
            simp at hfound
        simp only [Option.isNone_some, Bool.false_eq_true, if_false, pure_eq_ok_iff] at h
        refine ⟨name, entries, slot_of_parentDir hlast hname hparent hlost, ?_, ?_⟩
        · rw [← h]
          exact d.cwd.stays_afterRemoval _
        · rw [← h, hplace]

/-- A directory is emptied, unless it was removed already and looks empty anyway. -/
theorem clear_eq_ok {d d' : Disk} {p : Path} (h : d.clear p = .ok d') :
    d.cwd.Stays d'.cwd ∧
      ((d'.root = d.root ∧ ∃ s, d.walk p = .ok s ∧ s.lost ≠ 0) ∨
        ∃ entries, d.root.get? (p.resolve d.cwd.place) = some (.dir entries) ∧
          d'.root = d.root.update (fun _ => .dir []) (p.resolve d.cwd.place)) := by
  unfold clear at h
  obtain ⟨entries, hentries, h⟩ := bind_eq_ok_iff.1 h
  obtain ⟨s, hwalk, h⟩ := bind_eq_ok_iff.1 h
  obtain ⟨s', hwalk', hlook⟩ := entries_eq_ok hentries
  obtain rfl : s' = s := by
    rw [hwalk] at hwalk'
    simpa using hwalk'.symm
  by_cases hlost : s'.lost = 0
  · simp only [hlost, if_true, pure_eq_ok_iff] at h
    have hplace := place_of_walk hwalk
    refine ⟨?_, .inr ⟨entries, ?_, ?_⟩⟩
    · rw [← h]
      exact d.cwd.stays_afterClearing _
    · rw [← hplace]
      exact get?_of_look hlook hlost
    · rw [← h, hplace]
  · obtain rfl : d = d' := by simpa [hlost] using h
    exact ⟨.refl _, .inl ⟨rfl, s', hwalk, hlost⟩⟩

theorem stays_of_removed {d d₁ d₂ : Disk} {p : Path} (hclear : d.clear p = .ok d₁)
    (hremove : d₁.removeDir p = .ok d₂) : d.cwd.Stays d₂.cwd := by
  obtain ⟨_, _, -, hcwd, -⟩ := removeDir_eq_ok hremove
  exact (clear_eq_ok hclear).1.trans hcwd

theorem wellFormed_of_makeDir {d d' : Disk} {p : Path} (hd : d.root.WellFormed)
    (h : d.makeDir p = .ok d') : d'.root.WellFormed := by
  obtain ⟨name, entries, hslot, -, rfl⟩ := makeDir_eq_ok h
  exact hd.update (fun _ => Node.WellFormed.setChild hslot.name_ne Node.wellFormed_empty) _

theorem wellFormed_of_write {d d' : Disk} {p : Path} {bytes : ByteArray} (hd : d.root.WellFormed)
    (h : d.write p bytes = .ok d') : d'.root.WellFormed := by
  obtain ⟨name, entries, hslot, -, rfl⟩ := write_eq_ok h
  exact hd.update (fun _ => Node.WellFormed.setChild hslot.name_ne (.file bytes)) _

theorem wellFormed_of_removeDir {d d' : Disk} {p : Path} (hd : d.root.WellFormed)
    (h : d.removeDir p = .ok d') : d'.root.WellFormed := by
  obtain ⟨name, entries, -, -, hroot⟩ := removeDir_eq_ok h
  rw [hroot]
  exact hd.update (fun _ => Node.WellFormed.eraseChild name) _

theorem wellFormed_of_clear {d d' : Disk} {p : Path} (hd : d.root.WellFormed)
    (h : d.clear p = .ok d') : d'.root.WellFormed := by
  obtain ⟨-, ⟨hroot, -⟩ | ⟨entries, -, hroot⟩⟩ := clear_eq_ok h
  · rwa [hroot]
  · rw [hroot]
    exact hd.update (fun _ _ => Node.wellFormed_empty) _

/-! ## The same changes, as they are seen -/

theorem cwd_of_makeDir {d d' : Disk} {p : Path} (h : d.makeDir p = .ok d') : d'.cwd = d.cwd := by
  obtain ⟨_, _, -, -, rfl⟩ := makeDir_eq_ok h
  rfl

theorem cwd_of_write {d d' : Disk} {p : Path} {bytes : ByteArray} (h : d.write p bytes = .ok d') :
    d'.cwd = d.cwd := by
  obtain ⟨_, _, -, -, rfl⟩ := write_eq_ok h
  rfl

/-- Creating a directory changes no file. -/
theorem file?_of_makeDir {d d' : Disk} {p : Path} (h : d.makeDir p = .ok d') (l : Location) :
    d'.root.file? l = d.root.file? l := by
  obtain ⟨name, entries, hslot, hnone, rfl⟩ := makeDir_eq_ok h
  exact Node.file?_setDir hslot.dir hnone l

/-- Writing a file changes this file only. -/
theorem file?_of_write {d d' : Disk} {p : Path} {bytes : ByteArray}
    (h : d.write p bytes = .ok d') (l : Location) :
    d'.root.file? l = if l = p.resolve d.cwd.place then some bytes else d.root.file? l := by
  obtain ⟨name, entries, hslot, hold, rfl⟩ := write_eq_ok h
  rw [hslot.resolve_eq]
  exact Node.file?_setFile hslot.dir hold bytes l

/-- Removing a directory removes the files below its location, and no other. -/
theorem file?_of_removeDir {d d' : Disk} {p : Path} (h : d.removeDir p = .ok d') (l : Location) :
    d'.root.file? l = if p.resolve d.cwd.place <+: l then none else d.root.file? l := by
  obtain ⟨name, entries, hslot, -, hroot⟩ := removeDir_eq_ok h
  rw [hroot, hslot.resolve_eq]
  exact Node.file?_erase _ _ _ _

/-- Emptying a directory leaves the files alone that do not lie below it. -/
theorem file?_of_clear {d d' : Disk} {p : Path} (h : d.clear p = .ok d') {l : Location}
    (hl : p.resolve d.cwd.place <+: l → l = p.resolve d.cwd.place) :
    d'.root.file? l = d.root.file? l := by
  obtain ⟨-, ⟨hroot, -⟩ | ⟨entries, hdir, hroot⟩⟩ := clear_eq_ok h
  · rw [hroot]
  · rw [hroot, Node.file?_clear hdir]
    split
    · next hbelow =>
      rw [hl hbelow, Node.file?, hdir]
      rfl
    · rfl

/-- What can be emptied and then removed is a directory. -/
theorem file?_eq_none_of_removable {d d₁ d₂ : Disk} {p : Path} (hclear : d.clear p = .ok d₁)
    (hremove : d₁.removeDir p = .ok d₂) : d.root.file? (p.resolve d.cwd.place) = none := by
  obtain ⟨name, entries, hslot, -, -⟩ := removeDir_eq_ok hremove
  obtain ⟨-, ⟨-, s, hwalk, hlost⟩ | ⟨entries', hdir, -⟩⟩ := clear_eq_ok hclear
  · exact absurd (lost_of_walk hwalk hslot.last hslot.name_ne) hlost
  · rw [Node.file?, hdir]
    rfl

end Disk

end ActionDocs
