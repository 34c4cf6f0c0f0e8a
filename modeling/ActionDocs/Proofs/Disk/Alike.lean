import ActionDocs.Proofs.Disk.Directories
import ActionDocs.Proofs.Disk.Order

/-!
# Disks that look alike

Two trees look alike if the same is found at every location of them: nothing, a directory, or a file
with the same bytes. The order in which a disk lists a directory is all that can differ. No step of
the program tells two such disks apart: it reads the same, is refused for the same reason, and
changes them into disks that look alike again.

- `Node.seen`: what is found at a location.
- `Node.Alike`: the same is found at every location.
- `Node.Alike.sorted_eq`: with the entries in the order of their names, the trees are the same.
- `Node.Alike.update`: the same change keeps trees alike.
- `Agrees`: two computations both succeed, with related results, or fail for the same reason.
- `Disk.Alike`: disks that look alike, with the program at the same spot.
- `Disk.Alike.walk_eq`, `Disk.Alike.entries`: paths lead to the same.
- `Disk.Alike.makeDir`, `Disk.Alike.write`, `Disk.Alike.removeDir`, `Disk.Alike.clear`: the changes.
- `Disk.AgreeOutside`, `Disk.AgreeOutside.clear`: emptying a directory can make disks look alike.
-/

namespace ActionDocs

open Text

namespace Node

/-! ## What is seen -/

/-- What is found at a location: nothing, a directory, or a file with its bytes. -/
def seen (root : Node) (l : Location) : Option (Option ByteArray) :=
  (root.get? l).map bytes?

theorem seen_append (root : Node) (l₁ l₂ : Location) :
    root.seen (l₁ ++ l₂) = (root.get? l₁).bind (·.seen l₂) := by
  unfold seen
  rw [get?_append, Option.map_bind]
  rfl

/-- Where the same is seen on two trees, the same is seen from two nodes of them. -/
theorem seen_of_get? {root root' node node' : Node} {place l : Location}
    (hnode : root.get? place = some node) (hnode' : root'.get? place = some node')
    (h : root'.seen (place ++ l) = root.seen (place ++ l)) : node'.seen l = node.seen l := by
  rwa [seen_append, seen_append, hnode, hnode'] at h

theorem isSome_seen_singleton (name : Text) (entries : Entries) :
    ((Node.dir entries).seen [name]).isSome = (entries.lookup name).isSome := by
  simp [seen, get?]

theorem seen_cons_dir (name : Text) (rest : Location) (entries : Entries) :
    (Node.dir entries).seen (name :: rest) = (entries.lookup name).bind (·.seen rest) := by
  unfold seen
  rw [get?, Option.map_bind]
  rfl

theorem hasDir_iff_seen {root : Node} {l : Location} : root.HasDir l ↔ root.seen l = some none := by
  unfold HasDir seen
  cases root.get? l with
  | none => simp
  | some node => cases node <;> simp

theorem file?_eq_seen (root : Node) (l : Location) : root.file? l = (root.seen l).join := by
  unfold file? seen
  cases root.get? l <;> rfl

/-- What is seen is told by the files and the directories. -/
theorem seen_eq {root root' : Node} {l : Location} (hfile : root'.file? l = root.file? l)
    (hdir : root'.HasDir l ↔ root.HasDir l) : root'.seen l = root.seen l := by
  rw [file?_eq_seen, file?_eq_seen] at hfile
  rw [hasDir_iff_seen, hasDir_iff_seen] at hdir
  cases hold : root.seen l with
  | none =>
    rw [hold] at hfile hdir
    cases hnew : root'.seen l with
    | none => rfl
    | some found =>
      rw [hnew] at hfile hdir
      cases found with
      | none => simp at hdir
      | some bytes => simp at hfile
  | some found =>
    rw [hold] at hfile hdir
    cases found with
    | none => exact hdir.2 rfl
    | some bytes =>
      cases hnew : root'.seen l with
      | none => simp [hnew] at hfile
      | some found' => simpa [hnew] using hfile

/-! ## Trees that look alike -/

/-- Two trees in which the same is found at every location. -/
structure Alike (node node' : Node) : Prop where
  left : node.WellFormed
  right : node'.WellFormed
  seen (l : Location) : node'.seen l = node.seen l

theorem Alike.refl {node : Node} (h : node.WellFormed) : Alike node node :=
  ⟨h, h, fun _ => rfl⟩

theorem alike_empty : Alike (.dir []) (.dir []) :=
  .refl wellFormed_empty

theorem Alike.isDir_eq {node node' : Node} (h : Alike node node') : node'.isDir = node.isDir := by
  have hroot := h.seen []
  cases node <;> cases node' <;> simp [Node.seen, Node.get?, isDir] at hroot ⊢

theorem Alike.eq_file {node' : Node} {bytes : ByteArray} (h : Alike (.file bytes) node') :
    node' = .file bytes := by
  have hroot := h.seen []
  cases node' with
  | file bytes' => simpa [Node.seen, Node.get?] using hroot
  | dir entries => simp [Node.seen, Node.get?] at hroot

theorem Alike.exists_dir {node' : Node} {entries : Entries} (h : Alike (.dir entries) node') :
    ∃ entries', node' = .dir entries' := by
  have hroot := h.seen []
  cases node' with
  | file bytes => simp [Node.seen, Node.get?] at hroot
  | dir entries' => exact ⟨entries', rfl⟩

/-- At any location of them, trees that look alike hold trees that look alike, or nothing. -/
theorem Alike.get? {node node' : Node} (h : Alike node node') (l : Location) :
    Option.Rel Alike (node.get? l) (node'.get? l) := by
  have hseen := h.seen l
  unfold Node.seen at hseen
  cases hfound : node.get? l with
  | none =>
    rw [hfound] at hseen
    rw [Option.map_eq_none_iff.1 hseen]
    exact .none
  | some found =>
    rw [hfound] at hseen
    obtain ⟨found', hfound', -⟩ := Option.map_eq_some_iff.1 hseen
    rw [hfound']
    exact .some ⟨h.left.get? hfound, h.right.get? hfound',
      fun m => seen_of_get? hfound hfound' (h.seen (l ++ m))⟩

theorem Alike.lookup {entries entries' : Entries} (h : Alike (.dir entries) (.dir entries'))
    (name : Text) : Option.Rel Alike (entries.lookup name) (entries'.lookup name) := by
  have hname := h.get? [name]
  simpa [Node.get?] using hname

/-- Directories look alike if every name leads to the same in them. -/
theorem alike_dir {entries entries' : Entries} (h : (Node.dir entries).WellFormed)
    (h' : (Node.dir entries').WellFormed)
    (hnames : ∀ name, Option.Rel Alike (entries.lookup name) (entries'.lookup name)) :
    Alike (.dir entries) (.dir entries') := by
  refine ⟨h, h', fun l => ?_⟩
  cases l with
  | nil => rfl
  | cons name rest =>
    have hname := hnames name
    rw [seen_cons_dir, seen_cons_dir]
    generalize entries.lookup name = child, entries'.lookup name = child' at hname ⊢
    cases hname with
    | none => rfl
    | some hchild => exact hchild.seen rest

/-- Trees that look alike are the same once their entries stand in the order of their names. -/
theorem Alike.sorted_eq {node node' : Node} (h : Alike node node') :
    node'.sorted = node.sorted := by
  obtain ⟨hwf, hwf', hseen⟩ := h
  induction hwf generalizing node' with
  | file bytes => rw [Alike.eq_file ⟨.file bytes, hwf', hseen⟩]
  | @dir entries distinct named children ih =>
    have halike : Alike (.dir entries) node' := ⟨.dir distinct named children, hwf', hseen⟩
    obtain ⟨entries', rfl⟩ := halike.exists_dir
    rw [Node.sorted, Node.sorted]
    refine congrArg Node.dir ?_
    have hincreasing := increasing_sortedEntries distinct
    have hincreasing' := increasing_sortedEntries hwf'.distinct
    have hnodup : ∀ {list : Entries}, Increasing list → list.Nodup :=
      fun hlist => hlist.imp fun hab heq => hab.2 (congrArg Prod.fst heq)
    -- the same names lead to the same trees, so the sorted lists have the same entries
    refine hincreasing'.eq_of_perm hincreasing
      ((List.perm_ext_iff_of_nodup (hnodup hincreasing') (hnodup hincreasing)).2 ?_)
    rintro ⟨name, found⟩
    rw [mem_sortedEntries, mem_sortedEntries]
    have hname := halike.lookup name
    constructor
    · rintro ⟨old', hmem', rfl⟩
      rw [(lookup_eq_some_iff hwf'.distinct).2 hmem'] at hname
      generalize hold : entries.lookup name = old at hname
      cases hname with
      | some hchild =>
        have hmem := mem_of_lookup hold
        exact ⟨_, hmem, (ih _ hmem hchild.right hchild.seen).symm⟩
    · rintro ⟨old, hmem, rfl⟩
      rw [(lookup_eq_some_iff distinct).2 hmem] at hname
      generalize hold' : entries'.lookup name = old' at hname
      cases hname with
      | some hchild => exact ⟨_, mem_of_lookup hold', ih _ hmem hchild.right hchild.seen⟩

/-! ## Changes of trees that look alike -/

/-- Of two trees that look alike, the same change makes two trees that look alike. -/
theorem Alike.update {f : Node → Node}
    (hf : ∀ {node node'}, Alike node node' → Alike (f node) (f node')) (l : Location)
    {node node' : Node} (h : Alike node node') :
    Alike (Node.update f l node) (Node.update f l node') := by
  have hwf : ∀ n : Node, n.WellFormed → (f n).WellFormed := fun n hn => (hf (.refl hn)).left
  induction l generalizing node node' with
  | nil => exact hf h
  | cons name rest ih =>
    cases node with
    | file bytes =>
      rw [h.eq_file]
      exact .refl (.file bytes)
    | dir entries =>
      obtain ⟨entries', rfl⟩ := h.exists_dir
      refine alike_dir (h.left.update hwf (name :: rest)) (h.right.update hwf (name :: rest)) ?_
      intro m
      have hname := h.lookup m
      rw [lookup_map_at, lookup_map_at]
      split
      · generalize entries.lookup m = child, entries'.lookup m = child' at hname ⊢
        cases hname with
        | none => exact .none
        | some hchild => exact .some (ih hchild)
      · exact hname

theorem Alike.setChild {name : Text} {child : Node} (hname : name ≠ parentName)
    (hchild : child.WellFormed) {node node' : Node} (h : Alike node node') :
    Alike (Node.setChild name child node) (Node.setChild name child node') := by
  cases node with
  | file bytes =>
    rw [h.eq_file]
    exact .refl (.file bytes)
  | dir entries =>
    obtain ⟨entries', rfl⟩ := h.exists_dir
    refine alike_dir (WellFormed.setChild hname hchild h.left)
      (WellFormed.setChild hname hchild h.right) fun m => ?_
    rw [lookup_setEntry, lookup_setEntry]
    split
    · exact .some (.refl hchild)
    · exact h.lookup m

theorem Alike.eraseChild (name : Text) {node node' : Node} (h : Alike node node') :
    Alike (Node.eraseChild name node) (Node.eraseChild name node') := by
  cases node with
  | file bytes =>
    rw [h.eq_file]
    exact .refl (.file bytes)
  | dir entries =>
    obtain ⟨entries', rfl⟩ := h.exists_dir
    refine alike_dir (h.left.eraseChild name) (h.right.eraseChild name) fun m => ?_
    rw [lookup_filter_ne, lookup_filter_ne]
    split
    · exact .none
    · exact h.lookup m

end Node

/-! ## Computations that agree -/

/-- Two computations both succeed, with related results, or both fail for the same reason. -/
inductive Agrees {ε α β : Type} (r : α → β → Prop) : Except ε α → Except ε β → Prop where
  | ok {a : α} {b : β} (h : r a b) : Agrees r (.ok a) (.ok b)
  | error (e : ε) : Agrees r (.error e) (.error e)

theorem Agrees.bind {ε α β γ δ : Type} {r : α → β → Prop} {s : γ → δ → Prop} {x : Except ε α}
    {y : Except ε β} {f : α → Except ε γ} {g : β → Except ε δ} (h : Agrees r x y)
    (hfg : ∀ a b, r a b → Agrees s (f a) (g b)) : Agrees s (x >>= f) (y >>= g) := by
  cases h with
  | ok hab => exact hfg _ _ hab
  | error e => exact .error e

theorem agrees_eq {ε α : Type} (x : Except ε α) : Agrees Eq x x := by
  cases x with
  | ok a => exact .ok rfl
  | error e => exact .error e

namespace Disk

variable {d d' : Disk}

/-! ## What is seen on the way of a path -/

theorem look_eq_of_seen {s : Spot} (hhere : d'.root.seen s.place = d.root.seen s.place) :
    (d'.look s).map Node.bytes? = (d.look s).map Node.bytes? := by
  unfold look
  split
  · exact hhere
  · rfl

/-- Whether a name can be followed depends on what is seen here and behind the name. -/
theorem step_eq_of_seen {s : Spot} {name : Text}
    (hhere : d'.root.seen s.place = d.root.seen s.place)
    (hnext : d'.root.seen (Path.advance s.place name) = d.root.seen (Path.advance s.place name)) :
    d'.step s name = d.step s name := by
  have hlook := look_eq_of_seen hhere
  unfold step
  cases hfound : d.look s with
  | none =>
    rw [hfound] at hlook
    rw [Option.map_eq_none_iff.1 hlook]
  | some node =>
    rw [hfound] at hlook
    obtain ⟨node', hfound', hkind⟩ := Option.map_eq_some_iff.1 hlook
    rw [hfound']
    cases node with
    | file bytes => rw [Node.bytes?_eq_some_iff.1 hkind]
    | dir entries =>
      obtain ⟨entries', rfl⟩ := Node.bytes?_eq_none_iff.1 hkind
      by_cases hname : name = parentName
      · simp only [hname, if_true]
      · -- the name leads somewhere on both disks or on none
        have hchild : (entries'.lookup name).isSome = (entries.lookup name).isSome := by
          rw [Path.advance, if_neg hname] at hnext
          by_cases hlost : s.lost = 0
          · have hseen := congrArg Option.isSome hnext
            rw [Node.seen_append, Node.seen_append, get?_of_look hfound hlost,
              get?_of_look hfound' hlost, Option.bind_some, Option.bind_some,
              Node.isSome_seen_singleton, Node.isSome_seen_singleton] at hseen
            exact hseen
          · rw [look, if_neg hlost] at hfound hfound'
            obtain rfl : [] = entries := by simpa using hfound
            obtain rfl : [] = entries' := by simpa using hfound'
            rfl
        simp only [hname, if_false, child?]
        by_cases hlong : s.lost = 0 ∧ nameLimit < byteLength name
        · rw [if_pos hlong, if_pos hlong]
        · rw [if_neg hlong, if_neg hlong]
          cases hold : entries.lookup name <;> cases hnew : entries'.lookup name <;>
            simp [hold, hnew] at hchild ⊢

/-- Where a path leads to depends on what is seen on its way. -/
theorem walk_eq_of_seen (hcwd : d'.cwd = d.cwd) {p : Path}
    (hway : ∀ l ∈ p.way d.cwd.place, d'.root.seen l = d.root.seen l) : d'.walk p = d.walk p := by
  have hfollow : ∀ (names : List Text) (s : Spot),
      (∀ l ∈ names.scanl Path.advance s.place, d'.root.seen l = d.root.seen l) →
        names.foldlM d'.step s = names.foldlM d.step s := by
    intro names
    induction names with
    | nil => exact fun _ _ => rfl
    | cons name names ih =>
      intro s hseen
      rw [List.scanl_cons] at hseen
      have hstep : d'.step s name = d.step s name := by
        refine step_eq_of_seen (hseen _ (by simp)) (hseen _ (List.mem_cons_of_mem _ ?_))
        cases names <;> simp
      rw [List.foldlM_cons, List.foldlM_cons, hstep]
      cases hnext : d.step s name with
      | error cause => rfl
      | ok next =>
        rw [← place_of_step hnext] at hseen
        exact ih next fun l hl => hseen l (List.mem_cons_of_mem _ hl)
  have hanchor : d'.anchor p.anchor = d.anchor p.anchor := by
    cases p.anchor with
    | here => exact hcwd
    | root | doubleRoot => rfl
  unfold walk
  rw [follow_eq_foldlM, follow_eq_foldlM, hanchor, hfollow]
  rwa [place_anchor]

theorem find_of_walk {p : Path} {s : Spot} (h : d.walk p = .ok s) :
    d.find p = match d.look s with
      | none => .error .notFound
      | some node => .ok node := by
  unfold find
  rw [h]
  show (match d.look s with | none => throw FileError.notFound | some node => pure node) = _
  cases d.look s <;> rfl

theorem isDir_eq_of_seen (hcwd : d'.cwd = d.cwd) {p : Path}
    (hway : ∀ l ∈ p.way d.cwd.place, d'.root.seen l = d.root.seen l) : d'.isDir p = d.isDir p := by
  have hwalks := walk_eq_of_seen hcwd hway
  unfold isDir satisfies
  cases hwalk : d.walk p with
  | error cause =>
    rw [hwalk] at hwalks
    unfold find
    rw [hwalk, hwalks]
    rfl
  | ok s =>
    rw [hwalk] at hwalks
    have hend : d'.root.seen s.place = d.root.seen s.place := by
      rw [place_of_walk hwalk]
      exact hway _ (p.resolve_mem_way _)
    have hlook := look_eq_of_seen hend
    rw [find_of_walk hwalk, find_of_walk hwalks]
    cases hfound : d.look s with
    | none =>
      rw [hfound] at hlook
      rw [Option.map_eq_none_iff.1 hlook]
    | some node =>
      rw [hfound] at hlook
      obtain ⟨node', hfound', hkind⟩ := Option.map_eq_some_iff.1 hlook
      rw [hfound']
      cases node with
      | file bytes => rw [Node.bytes?_eq_some_iff.1 hkind]
      | dir entries =>
        obtain ⟨entries', rfl⟩ := Node.bytes?_eq_none_iff.1 hkind
        rfl

/-- Two disks that look alike, with the program at the same spot. -/
structure Alike (d d' : Disk) : Prop where
  root : d.root.Alike d'.root
  cwd : d'.cwd = d.cwd

/-! ## Reading -/

theorem Alike.look (h : Alike d d') (s : Spot) :
    Option.Rel Node.Alike (d.look s) (d'.look s) := by
  unfold Disk.look
  split
  · exact h.root.get? s.place
  · exact .some Node.alike_empty

/-- Two lists of entries of directories that look alike. -/
abbrev EntriesAlike (entries entries' : Entries) : Prop :=
  (Node.dir entries).Alike (.dir entries')

theorem EntriesAlike.child? {entries entries' : Entries} (h : EntriesAlike entries entries')
    (lost : Nat) (name : Text) :
    Agrees (Option.Rel Node.Alike) (child? lost entries name) (child? lost entries' name) := by
  unfold Disk.child?
  split
  · exact .error _
  · exact .ok (h.lookup name)

theorem Alike.walk_eq (h : Alike d d') (p : Path) : d'.walk p = d.walk p :=
  walk_eq_of_seen h.cwd fun l _ => h.root.seen l

theorem Alike.find (h : Alike d d') (p : Path) : Agrees Node.Alike (d.find p) (d'.find p) := by
  unfold Disk.find
  rw [h.walk_eq]
  refine (agrees_eq _).bind ?_
  rintro s _ rfl
  have hlook := h.look s
  generalize d.look s = found, d'.look s = found' at hlook ⊢
  cases hlook with
  | none => exact .error _
  | some hnode => exact .ok hnode

theorem Alike.entries (h : Alike d d') (p : Path) :
    Agrees EntriesAlike (d.entries p) (d'.entries p) := by
  unfold Disk.entries
  refine (h.find p).bind fun node node' hnode => ?_
  cases node with
  | file bytes =>
    rw [hnode.eq_file]
    exact .error _
  | dir entries =>
    obtain ⟨entries', rfl⟩ := hnode.exists_dir
    exact .ok hnode

theorem Alike.isDir_eq (h : Alike d d') (p : Path) : d'.isDir p = d.isDir p :=
  isDir_eq_of_seen h.cwd fun l _ => h.root.seen l

theorem Alike.resolve_eq (h : Alike d d') (p : Path) : d'.resolve p = d.resolve p := by
  unfold Disk.resolve
  rw [h.cwd]

/-! ## Changes -/

/-- Two spots with the entries that are found there. -/
def SpotsAlike (found found' : Spot × Entries) : Prop :=
  found.1 = found'.1 ∧ EntriesAlike found.2 found'.2

theorem Alike.parentDir (h : Alike d d') (p : Path) :
    Agrees SpotsAlike (d.parentDir p) (d'.parentDir p) := by
  unfold Disk.parentDir
  refine (agrees_eq p.check).bind fun _ _ _ => ?_
  rw [h.walk_eq]
  refine (agrees_eq _).bind ?_
  rintro s _ rfl
  have hlook := h.look s
  generalize d.look s = found, d'.look s = found' at hlook ⊢
  cases hlook with
  | none => exact .error _
  | @some node node' hnode =>
    cases node with
    | file bytes =>
      rw [hnode.eq_file]
      exact .error _
    | dir entries =>
      obtain ⟨entries', rfl⟩ := hnode.exists_dir
      exact .ok ⟨rfl, hnode⟩

theorem Alike.put (h : Alike d d') (s : Spot) {name : Text} (hname : name ≠ parentName)
    {node : Node} (hnode : node.WellFormed) :
    Agrees Alike (d.put s name node) (d'.put s name node) := by
  unfold Disk.put
  split
  · exact .ok ⟨h.root.update (Node.Alike.setChild hname hnode) s.place, h.cwd⟩
  · exact .error _

theorem Alike.makeDir (h : Alike d d') (p : Path) : Agrees Alike (d.makeDir p) (d'.makeDir p) := by
  unfold Disk.makeDir
  cases p.parts.getLast? with
  | none => exact .error _
  | some name =>
    refine (h.parentDir p).bind ?_
    rintro ⟨s, entries⟩ ⟨_, entries'⟩ ⟨rfl, hentries⟩
    by_cases hname : name = parentName
    · simp only [hname, if_true]
      exact .error _
    · simp only [hname, if_false]
      refine (hentries.child? s.lost name).bind fun found found' hfound => ?_
      cases hfound with
      | none => exact h.put s hname Node.wellFormed_empty
      | some _ => exact .error _

theorem Alike.write (h : Alike d d') (p : Path) (bytes : ByteArray) :
    Agrees Alike (d.write p bytes) (d'.write p bytes) := by
  unfold Disk.write
  cases p.parts.getLast? with
  | none => exact .error _
  | some name =>
    refine (h.parentDir p).bind ?_
    rintro ⟨s, entries⟩ ⟨_, entries'⟩ ⟨rfl, hentries⟩
    by_cases hname : name = parentName
    · simp only [hname, if_true]
      exact .error _
    · simp only [hname, if_false]
      refine (hentries.child? s.lost name).bind fun found found' hfound => ?_
      cases hfound with
      | none => exact h.put s hname (.file bytes)
      | @some old old' hold =>
        cases old with
        | file oldBytes =>
          rw [hold.eq_file]
          exact h.put s hname (.file bytes)
        | dir sub =>
          obtain ⟨sub', rfl⟩ := hold.exists_dir
          exact .error _

theorem Alike.removeDir (h : Alike d d') (p : Path) :
    Agrees Alike (d.removeDir p) (d'.removeDir p) := by
  unfold Disk.removeDir
  cases p.parts.getLast? with
  | none => exact .error _
  | some name =>
    refine (h.parentDir p).bind ?_
    rintro ⟨s, entries⟩ ⟨_, entries'⟩ ⟨rfl, hentries⟩
    by_cases hname : name = parentName
    · simp only [hname, if_true]
      exact .error _
    · simp only [hname, if_false]
      refine (hentries.child? s.lost name).bind fun found found' hfound => ?_
      cases hfound with
      | none => exact .error _
      | some _ =>
        refine .ok ⟨h.root.update (Node.Alike.eraseChild name) s.place, ?_⟩
        rw [h.cwd]

theorem Alike.clear (h : Alike d d') (p : Path) : Agrees Alike (d.clear p) (d'.clear p) := by
  unfold Disk.clear
  refine (h.entries p).bind fun _ _ _ => ?_
  rw [h.walk_eq, h.cwd]
  refine (agrees_eq _).bind ?_
  rintro s _ rfl
  split
  · exact .ok ⟨h.root.update (fun _ => Node.alike_empty) s.place, rfl⟩
  · exact .ok h

/-! ## Disks that agree but for one directory -/

/-- Two disks that agree on everything outside a directory, which is there on both of them. -/
structure AgreeOutside (place : Location) (d d' : Disk) : Prop where
  left : d.root.WellFormed
  right : d'.root.WellFormed
  cwd : d'.cwd = d.cwd
  found : d.root.HasDir place
  found' : d'.root.HasDir place
  outside (l : Location) : ¬ place <+: l → d'.root.seen l = d.root.seen l

theorem AgreeOutside.seen_eq {place l : Location} (h : AgreeOutside place d d')
    (hl : place <+: l → l = place) : d'.root.seen l = d.root.seen l := by
  by_cases hpre : place <+: l
  · rw [hl hpre, Node.hasDir_iff_seen.1 h.found, Node.hasDir_iff_seen.1 h.found']
  · exact h.outside l hpre

/-- Whatever is put into a directory, the disks agree outside it. -/
theorem agreeOutside_of_filled {place : Location} (h : d.root.WellFormed)
    (hplace : d.root.HasDir place) {entries : Entries} (hentries : (Node.dir entries).WellFormed) :
    AgreeOutside place d { d with root := d.root.update (fun _ => .dir entries) place } := by
  have hfound : (d.root.update (fun _ => .dir entries) place).HasDir place := by
    obtain ⟨old, hold⟩ := hplace
    have hdir := (Node.hasDir_update_append (f := fun _ => .dir entries) hold []).2 ⟨entries, rfl⟩
    rwa [List.append_nil] at hdir
  exact ⟨h, h.update (fun _ _ => hentries) place, rfl, hplace, hfound, fun l hl =>
    Node.seen_eq (Node.file?_update_of_not_below _ _ hl) (Node.hasDir_update_of_not_below _ _ hl)⟩

/-- Emptying a directory leaves nothing behind of what was in it. -/
theorem AgreeOutside.emptied {place : Location} (h : AgreeOutside place d d') :
    (d.root.update (fun _ => .dir []) place).Alike (d'.root.update (fun _ => .dir []) place) := by
  have hempty : ∀ n : Node, n.WellFormed → (Node.dir []).WellFormed :=
    fun _ _ => Node.wellFormed_empty
  refine ⟨h.left.update hempty place, h.right.update hempty place, fun l => ?_⟩
  obtain ⟨entries, hdir⟩ := h.found
  obtain ⟨entries', hdir'⟩ := h.found'
  refine Node.seen_eq ?_ ?_
  · rw [Node.file?_clear hdir, Node.file?_clear hdir']
    split
    · rfl
    · next hl => rw [Node.file?_eq_seen, Node.file?_eq_seen, h.outside l hl]
  · rw [Node.hasDir_clear hdir, Node.hasDir_clear hdir', Node.hasDir_iff_seen,
      Node.hasDir_iff_seen]
    exact and_congr_right fun hl => by rw [h.seen_eq hl]

/-- A directory that can be listed can be emptied. -/
theorem clear_of_entries {p : Path} {entries : Entries} (hp : d.Stands p.anchor)
    (h : d.entries p = .ok entries) :
    d.clear p = .ok {
      root := d.root.update (fun _ => .dir []) (p.resolve d.cwd.place)
      cwd := d.cwd.afterClearing (p.resolve d.cwd.place) } := by
  obtain ⟨s, hwalk, -⟩ := entries_eq_ok h
  have hlost : s.lost = 0 := (hasDir_of_foldlM hp (walk_eq_ok hwalk)).1
  refine bind_eq_ok_iff.2 ⟨entries, h, bind_eq_ok_iff.2 ⟨s, hwalk, ?_⟩⟩
  rw [if_pos hlost, place_of_walk hwalk]
  rfl

/-- Emptying the directory makes both disks look alike. -/
theorem AgreeOutside.clear {p : Path} (h : AgreeOutside (p.resolve d.cwd.place) d d')
    (hp : d.Stands p.anchor) (hdir : d.isDir p = .ok true) (hdir' : d'.isDir p = .ok true) :
    ∃ d₁ d₁', d.clear p = .ok d₁ ∧ d'.clear p = .ok d₁' ∧ d₁.Alike d₁' := by
  obtain ⟨entries, hentries⟩ := entries_of_isDir hdir
  obtain ⟨entries', hentries'⟩ := entries_of_isDir hdir'
  have hp' : d'.Stands p.anchor := by
    unfold Stands anchor at hp ⊢
    rwa [h.cwd]
  refine ⟨_, _, clear_of_entries hp hentries, clear_of_entries hp' hentries', ?_, ?_⟩
  · rw [h.cwd]
    exact h.emptied
  · rw [h.cwd]

end Disk

end ActionDocs
