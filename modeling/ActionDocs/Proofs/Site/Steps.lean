import ActionDocs.Proofs.Disk.Changes
import ActionDocs.Site.Generate

/-!
# The steps of a run

A run is a sequence of single changes of the disk. What each of them keeps, every run keeps, and the
disk that a run leaves behind is described step by step.

- `Run.after`: the world that a run leaves behind, whether it succeeds or fails.
- `Run.Keeps`: a property of disks that a run keeps in either case.
- `Run.Keeps.bind`, `Run.Keeps.change`: it is enough to look at the single changes.
- `Run.keeps_makeDirs_on_way`, `Run.keeps_writePage`: the changes in several steps.
- `Run.bind_eq_ok`, `Run.change_eq_ok`: how the steps of a run that succeeds fit together.
- `Run.bind_eq_error`: a run fails in its first part or in its second.
- `Run.sameFiles_of_makeDirs`, `Run.fileWritten_of_writePage`, `Run.file?_of_removed`: what is seen
  on the disk after the changes in several steps.
-/

namespace ActionDocs

open Text

namespace Run

variable {α β : Type} {P : Disk → Prop}

/-! ## Runs that succeed -/

theorem bind_eq_ok {x : Run α} {f : α → Run β} {w w' : World} {b : β} :
    (x >>= f) w = .ok b w' ↔ ∃ a w₁, x w = .ok a w₁ ∧ f a w₁ = .ok b w' := by
  show EStateM.bind x f w = .ok b w' ↔ _
  unfold EStateM.bind
  cases hx : x w with
  | error e w₁ => simp
  | ok a w₁ =>
    constructor
    · intro h
      exact ⟨a, w₁, rfl, h⟩
    · rintro ⟨a', w₁', heq, h⟩
      obtain ⟨rfl, rfl⟩ : a = a' ∧ w₁ = w₁' := by simpa using heq
      exact h

theorem bind_eq_error {x : Run α} {f : α → Run β} {w w' : World} {e : Failure} :
    (x >>= f) w = .error e w' ↔
      x w = .error e w' ∨ ∃ a w₁, x w = .ok a w₁ ∧ f a w₁ = .error e w' := by
  show EStateM.bind x f w = .error e w' ↔ _
  unfold EStateM.bind
  cases hx : x w with
  | error e₁ w₁ => simp
  | ok a w₁ =>
    constructor
    · intro h
      exact .inr ⟨a, w₁, rfl, h⟩
    · rintro (h | ⟨a', w₁', heq, h⟩)
      · cases h
      · obtain ⟨rfl, rfl⟩ : a = a' ∧ w₁ = w₁' := by simpa using heq
        exact h

theorem pure_eq_ok {a b : α} {w w' : World} :
    (pure a : Run α) w = .ok b w' ↔ a = b ∧ w = w' := by
  show EStateM.pure a w = .ok b w' ↔ _
  simp [EStateM.pure]

theorem throw_eq_ok {e : Failure} {a : α} {w w' : World} :
    (throw e : Run α) w = .ok a w' ↔ False := by
  show EStateM.Result.error e w = .ok a w' ↔ _
  simp

theorem disk_eq_ok {d : Disk} {w w' : World} : Run.disk w = .ok d w' ↔ w.disk = d ∧ w = w' := by
  show EStateM.Result.ok w.disk w = .ok d w' ↔ _
  simp

theorem modify_eq_ok {f : World → World} {w w' : World} {u : Unit} :
    (modify f : Run Unit) w = .ok u w' ↔ w' = f w := by
  show EStateM.Result.ok () (f w) = .ok u w' ↔ _
  simp [eq_comm]

theorem orRefused_eq_ok {x : Except FileError α} {a : α} {w w' : World} :
    orRefused x w = .ok a w' ↔ x = .ok a ∧ w = w' := by
  cases x with
  | ok b => simp [orRefused, pure_eq_ok]
  | error e => simp [orRefused, throw_eq_ok]

theorem change_eq_ok {f : Disk → Except FileError Disk} {w w' : World} {u : Unit} :
    change f w = .ok u w' ↔ ∃ d, f w.disk = .ok d ∧ w' = { w with disk := d } := by
  unfold change
  simp only [bind_eq_ok, disk_eq_ok, orRefused_eq_ok]
  constructor
  · rintro ⟨_, _, ⟨rfl, rfl⟩, d, _, ⟨hd, rfl⟩, hset⟩
    exact ⟨d, hd, (modify_eq_ok.1 hset)⟩
  · rintro ⟨d, hd, rfl⟩
    exact ⟨_, _, ⟨rfl, rfl⟩, d, _, ⟨hd, rfl⟩, rfl⟩

theorem change_eq_error {f : Disk → Except FileError Disk} {w : World} {cause : FileError}
    (h : f w.disk = .error cause) : change f w = .error (.refused cause) w := by
  show EStateM.bind (orRefused (f w.disk)) _ w = _
  rw [h]
  rfl

theorem notes_eq_ok {log : Log} {w w' : World} {u : Unit} :
    notes log w = .ok u w' ↔ w' = { w with log := w.log ++ log } := by
  exact modify_eq_ok

/-- Whether a run succeeds with a result that passes a test. -/
def succeedsWith (x : Run α) (w : World) (test : α → Bool) : Bool :=
  match x w with
  | .ok a _ => test a
  | .error _ _ => false

theorem exists_of_succeedsWith {x : Run α} {w : World} {test : α → Bool}
    (h : succeedsWith x w test = true) : ∃ a w', x w = .ok a w' ∧ test a = true := by
  unfold succeedsWith at h
  split at h
  · next a w' hrun => exact ⟨a, w', hrun, h⟩
  · cases h

/-- Whether a run ends in the given failure. -/
def failsWith (x : Run α) (w : World) (e : Failure) : Bool :=
  match x w with
  | .ok _ _ => false
  | .error cause _ => cause == e

theorem exists_of_failsWith {x : Run α} {w : World} {e : Failure} (h : failsWith x w e = true) :
    ∃ w', x w = .error e w' := by
  unfold failsWith at h
  split at h
  · cases h
  · next cause w' hrun => exact ⟨w', eq_of_beq h ▸ hrun⟩

/-! ## Properties that a run keeps -/

/-- The world that a run leaves behind, whether it succeeds or fails. -/
def after (x : Run α) (w : World) : World :=
  match x w with
  | .ok _ w' => w'
  | .error _ w' => w'

theorem after_of_eq_ok {x : Run α} {w w' : World} {a : α} (h : x w = .ok a w') :
    x.after w = w' := by
  unfold after
  rw [h]

theorem after_of_eq_error {x : Run α} {w w' : World} {e : Failure} (h : x w = .error e w') :
    x.after w = w' := by
  unfold after
  rw [h]

theorem after_bind (x : Run α) (f : α → Run β) (w : World) :
    (x >>= f).after w =
      match x w with
      | .ok a w₁ => (f a).after w₁
      | .error _ w₁ => w₁ := by
  unfold after
  show (match EStateM.bind x f w with | .ok _ w' => w' | .error _ w' => w') = _
  unfold EStateM.bind
  cases x w <;> rfl

/-- A run keeps a property of disks if it holds afterwards in any case. -/
def Keeps (P : Disk → Prop) (x : Run α) : Prop :=
  ∀ w, P w.disk → P (x.after w).disk

theorem Keeps.of_eq_ok {x : Run α} {w w' : World} {a : α} (hx : Keeps P x) (h : x w = .ok a w')
    (hw : P w.disk) : P w'.disk := by
  rw [← after_of_eq_ok h]
  exact hx w hw

theorem keeps_pure (a : α) : Keeps P (pure a : Run α) :=
  fun _ h => h

theorem keeps_throw (e : Failure) : Keeps P (throw e : Run α) :=
  fun _ h => h

theorem keeps_disk : Keeps P Run.disk :=
  fun _ h => h

theorem keeps_orRefused (x : Except FileError α) : Keeps P (orRefused x) := by
  cases x with
  | ok a => exact keeps_pure a
  | error e => exact keeps_throw _

/-- What holds after the first part of a run, and is kept by the second, holds after the run. -/
theorem after_bind_of_keeps {x : Run α} {f : α → Run β} {w : World} (hx : P (x.after w).disk)
    (hf : ∀ a, Keeps P (f a)) : P ((x >>= f).after w).disk := by
  rw [after_bind]
  unfold after at hx
  cases hxw : x w with
  | ok a w₁ =>
    rw [hxw] at hx
    exact hf a w₁ hx
  | error e w₁ =>
    rw [hxw] at hx
    exact hx

theorem Keeps.bind {x : Run α} {f : α → Run β} (hx : Keeps P x) (hf : ∀ a, Keeps P (f a)) :
    Keeps P (x >>= f) :=
  fun w hw => after_bind_of_keeps (hx w hw) hf

/-- A change keeps what it keeps when it is not refused. -/
theorem Keeps.change {f : Disk → Except FileError Disk}
    (hf : ∀ d d', P d → f d = .ok d' → P d') : Keeps P (Run.change f) := by
  intro w hw
  cases hd : f w.disk with
  | ok d =>
    rw [after_of_eq_ok (a := ()) (change_eq_ok.2 ⟨d, hd, rfl⟩)]
    exact hf _ _ hw hd
  | error cause =>
    rw [after_of_eq_error (change_eq_error hd)]
    exact hw

theorem keeps_notes (log : Log) : Keeps P (notes log) :=
  fun _ h => h

theorem keeps_note (level : Log.Level) (message : Text) : Keeps P (note level message) :=
  keeps_notes _

/-- A run that reads the disk first goes on with the disk that is there. -/
theorem after_disk_bind (f : Disk → Run β) (w : World) :
    (Run.disk >>= f).after w = (f w.disk).after w := rfl

/-! ## Creating directories and writing pages -/

theorem keeps_ensureDir {p : Path} (hmake : ∀ d d', P d → d.makeDir p = .ok d' → P d') :
    Keeps P (ensureDir p) := by
  intro w hw
  unfold ensureDir
  rw [after_disk_bind]
  cases hd : w.disk.makeDir p with
  | ok d => exact hmake _ _ hw hd
  | error cause =>
    -- a directory that is there already is no reason to stop
    have hrest : Keeps P (do
        if ← orRefused (w.disk.isDir p) then return () else throw (.refused cause)) := by
      refine (keeps_orRefused _).bind fun found => ?_
      cases found
      · exact keeps_throw _
      · exact keeps_pure _
    cases cause
    case notFound => exact keeps_throw _ w hw
    all_goals exact hrest w hw

/-- Whatever creating any of the directories on the way keeps, creating all of them keeps. -/
theorem keeps_makeDirsFrom {anchor : Anchor} {names : List Text}
    (hmake : ∀ above, above <:+ names → ∀ d d', P d →
      d.makeDir ⟨anchor, above.reverse⟩ = .ok d' → P d') (levels : Nat) :
    Keeps P (makeDirsFrom anchor levels names) := by
  -- a directory whose parent is missing is created after its parent, one level further down
  induction levels generalizing names with
  | zero => exact keeps_throw _
  | succ levels ih =>
    cases names with
    | nil => exact keeps_ensureDir (hmake [] (List.suffix_refl _))
    | cons name above =>
      have hlast := keeps_ensureDir (hmake (name :: above) (List.suffix_refl _))
      have habove := ih fun names hnames => hmake names (hnames.trans (List.suffix_cons _ _))
      rw [makeDirsFrom]
      refine keeps_disk.bind fun d => ?_
      split
      · exact habove.bind fun _ => hlast
      · exact hlast

theorem keeps_makeDirs_on_way {p : Path}
    (hmake : ∀ front, front <+: p.parts → ∀ d d', P d →
      d.makeDir ⟨p.anchor, front⟩ = .ok d' → P d') : Keeps P (makeDirs p) := by
  refine keeps_makeDirsFrom (fun above habove => hmake above.reverse ?_) _
  rwa [← List.reverse_suffix, List.reverse_reverse]

theorem keeps_makeDirs (hmake : ∀ d d' p, P d → d.makeDir p = .ok d' → P d') (p : Path) :
    Keeps P (makeDirs p) :=
  keeps_makeDirs_on_way fun _ _ d d' => hmake d d' _

theorem keeps_writePage (hmake : ∀ d d' p, P d → d.makeDir p = .ok d' → P d') {p : Path}
    {page : Text} (hwrite : ∀ d d', P d → d.write p (encode (trim page)) = .ok d' → P d') :
    Keeps P (writePage p page) :=
  (keeps_makeDirs hmake _).bind fun _ => .change hwrite

/-- What creating directories leaves alone: the files, where the program stands, and that the tree
is well-formed. -/
theorem keeps_makeDirs_files (p : Path) (cwd : Spot) (files : Location → Option ByteArray) :
    Keeps (fun d => d.root.WellFormed ∧ d.cwd = cwd ∧ ∀ l, d.root.file? l = files l)
      (makeDirs p) := by
  refine keeps_makeDirs ?_ p
  rintro d d' p ⟨hwf, hcwd, hfiles⟩ hmake
  refine ⟨Disk.wellFormed_of_makeDir hwf hmake, (Disk.cwd_of_makeDir hmake).trans hcwd, ?_⟩
  intro l
  rw [Disk.file?_of_makeDir hmake, hfiles]

/-- A disk on which nothing but directories is new. -/
structure SameFiles (d d' : Disk) : Prop where
  wellFormed : d'.root.WellFormed
  cwd : d'.cwd = d.cwd
  file? : ∀ l, d'.root.file? l = d.root.file? l

theorem sameFiles_of_makeDirs {p : Path} {w w' : World} (hwf : w.disk.root.WellFormed)
    (h : makeDirs p w = .ok () w') : SameFiles w.disk w'.disk := by
  have hkept := (keeps_makeDirs_files p w.disk.cwd w.disk.root.file?).of_eq_ok h
    ⟨hwf, rfl, fun _ => rfl⟩
  exact ⟨hkept.1, hkept.2.1, hkept.2.2⟩

/-- A disk on which a file was written, and nothing but directories is new besides. -/
structure FileWritten (d d' : Disk) (place : Location) (bytes : ByteArray) : Prop where
  wellFormed : d'.root.WellFormed
  cwd : d'.cwd = d.cwd
  file? : ∀ l, d'.root.file? l = if l = place then some bytes else d.root.file? l

theorem fileWritten_of_write {d d' : Disk} {p : Path} {bytes : ByteArray}
    (hwf : d.root.WellFormed) (h : d.write p bytes = .ok d') :
    FileWritten d d' (p.resolve d.cwd.place) bytes :=
  ⟨Disk.wellFormed_of_write hwf h, Disk.cwd_of_write h, Disk.file?_of_write h⟩

/-- Writing a page is seen as a change of one file. -/
theorem fileWritten_of_writePage {p : Path} {page : Text} {w w' : World}
    (hwf : w.disk.root.WellFormed) (h : writePage p page w = .ok () w') :
    FileWritten w.disk w'.disk (p.resolve w.disk.cwd.place) (encode (trim page)) := by
  unfold writePage at h
  obtain ⟨_, w₁, hdirs, hchange⟩ := bind_eq_ok.1 h
  obtain ⟨d, hwrite, rfl⟩ := change_eq_ok.1 hchange
  have hsame := sameFiles_of_makeDirs hwf hdirs
  have hwritten := fileWritten_of_write hsame.wellFormed hwrite
  refine ⟨hwritten.wellFormed, hwritten.cwd.trans hsame.cwd, ?_⟩
  intro l
  rw [hwritten.file? l, hsame.cwd, hsame.file? l]

/-! ## Removing a directory -/

theorem removeTree_eq_ok {p : Path} {w w' : World} :
    removeTree p w = .ok () w' ↔
      ∃ d₁ d₂, w.disk.clear p = .ok d₁ ∧ d₁.removeDir p = .ok d₂ ∧ w' = { w with disk := d₂ } := by
  unfold removeTree
  simp only [bind_eq_ok, change_eq_ok]
  constructor
  · rintro ⟨_, _, ⟨d₁, hclear, rfl⟩, d₂, hremove, rfl⟩
    exact ⟨d₁, d₂, hclear, hremove, rfl⟩
  · rintro ⟨d₁, d₂, hclear, hremove, rfl⟩
    exact ⟨(), _, ⟨d₁, hclear, rfl⟩, d₂, hremove, rfl⟩

/-- Emptying and removing a directory removes the files below its location, and no other. -/
theorem file?_of_removed {d d₁ d₂ : Disk} {p : Path} (hclear : d.clear p = .ok d₁)
    (hremove : d₁.removeDir p = .ok d₂) (l : Location) :
    d₂.root.file? l = if p.resolve d.cwd.place <+: l then none else d.root.file? l := by
  have hplace : d₁.cwd.place = d.cwd.place := (Disk.clear_eq_ok hclear).1.place
  rw [Disk.file?_of_removeDir hremove, hplace]
  split
  · rfl
  · next hl => exact Disk.file?_of_clear hclear fun h => absurd h hl

end Run

end ActionDocs
