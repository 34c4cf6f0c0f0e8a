import ActionDocs.Disk.Node

/-!
# The files that are seen on a tree

A tree is looked at through the bytes of the files at its locations. Every change of a tree is
described by what it does to this view.

- `Node.file?`: the bytes of the file at a location.
- `Node.get?_update_of_not_below`: a change at a location is not seen anywhere else.
- `Node.get?_update_append`: what is seen at and below a changed location.
- `Node.file?_setFile`, `Node.file?_setDir`, `Node.file?_erase`, `Node.file?_clear`: the four
  changes that a run makes, as they are seen.
-/

namespace ActionDocs

namespace Node

/-- The bytes of a file. -/
def bytes? : Node → Option ByteArray
  | .file bytes => some bytes
  | .dir _ => none

/-- The bytes of the file at a location, if there is a file. -/
def file? (root : Node) (l : Location) : Option ByteArray :=
  (root.get? l).bind bytes?

@[simp] theorem bytes?_file (bytes : ByteArray) : (Node.file bytes).bytes? = some bytes := rfl

@[simp] theorem bytes?_dir (entries : Entries) : (Node.dir entries).bytes? = none := rfl

theorem bytes?_eq_some_iff {node : Node} {bytes : ByteArray} :
    node.bytes? = some bytes ↔ node = .file bytes := by
  cases node <;> simp

theorem bytes?_eq_none_iff {node : Node} : node.bytes? = none ↔ ∃ entries, node = .dir entries := by
  cases node <;> simp

theorem file?_eq_some_iff {root : Node} {l : Location} {bytes : ByteArray} :
    root.file? l = some bytes ↔ root.get? l = some (.file bytes) := by
  simp [file?, Option.bind_eq_some_iff, bytes?_eq_some_iff]

/-- The view below a location is the view of the node at it. -/
theorem file?_append (root : Node) (l₁ l₂ : Location) :
    root.file? (l₁ ++ l₂) = (root.get? l₁).bind (·.file? l₂) := by
  unfold file?
  rw [get?_append, Option.bind_assoc]

theorem file?_of_get? {root node : Node} {l : Location} (h : root.get? l = some node)
    (l' : Location) : root.file? (l ++ l') = node.file? l' := by
  rw [file?_append, h, Option.bind_some]

@[simp] theorem file?_cons_dir (name : Text) (rest : Location) (entries : Entries) :
    (Node.dir entries).file? (name :: rest) = (entries.lookup name).bind (·.file? rest) := by
  simp [file?, get?, Option.bind_assoc]

@[simp] theorem file?_cons_file (name : Text) (rest : Location) (bytes : ByteArray) :
    (Node.file bytes).file? (name :: rest) = none := rfl

/-! ## Entries -/

theorem lookup_cons_eq (m n : Text) (node : Node) (entries : Entries) :
    List.lookup m ((n, node) :: entries) = if m = n then some node else entries.lookup m := by
  rw [List.lookup_cons]
  by_cases h : m = n
  · simp [h]
  · have hbeq : (m == n) = false := by simpa using h
    simp [hbeq, h]

/-- What a name leads to after the node of one name was changed. -/
theorem lookup_map_at (g : Node → Node) (name m : Text) (entries : Entries) :
    (entries.map fun (n, node) => (n, if n = name then g node else node)).lookup m =
      if m = name then (entries.lookup m).map g else entries.lookup m := by
  induction entries with
  | nil => simp
  | cons entry entries ih =>
    obtain ⟨n, node⟩ := entry
    rw [List.map_cons, lookup_cons_eq, lookup_cons_eq, ih]
    by_cases hm : m = n
    · subst hm
      by_cases hn : m = name <;> simp [hn]
    · simp [hm]

theorem lookup_setEntry (name m : Text) (node : Node) (entries : Entries) :
    (setEntry name node entries).lookup m =
      if m = name then some node else entries.lookup m := by
  induction entries with
  | nil => rw [setEntry, lookup_cons_eq]
  | cons entry entries ih =>
    obtain ⟨n, old⟩ := entry
    rw [setEntry]
    by_cases hn : n = name
    · subst hn
      by_cases hm : m = n <;> simp [lookup_cons_eq, hm]
    · rw [if_neg hn, lookup_cons_eq, lookup_cons_eq, ih]
      by_cases hm : m = n
      · subst hm
        simp [hn]
      · simp [hm]

theorem lookup_filter_ne (name m : Text) (entries : Entries) :
    (entries.filter (·.1 != name)).lookup m =
      if m = name then none else entries.lookup m := by
  induction entries with
  | nil => simp
  | cons entry entries ih =>
    obtain ⟨n, node⟩ := entry
    rw [List.filter_cons, lookup_cons_eq]
    by_cases hn : n = name
    · subst hn
      by_cases hm : m = n
      · rw [if_neg (by simp), ih, if_pos hm]
        simp [hm]
      · rw [if_neg (by simp), ih, if_neg hm]
        simp [hm]
    · rw [if_pos (by simpa using hn), lookup_cons_eq, ih]
      by_cases hm : m = n
      · subst hm
        simp [hn]
      · simp [hm]

/-! ## Changes at a location -/

/-- At and below a changed location, the changed node is seen. -/
theorem get?_update_append (f : Node → Node) (place rest : Location) (root : Node) :
    get? (place ++ rest) (update f place root) = ((get? place root).map f).bind (get? rest) := by
  induction place generalizing root with
  | nil => simp [update, get?]
  | cons name place ih =>
    cases root with
    | file bytes => simp [update, get?]
    | dir entries =>
      rw [update, List.cons_append, get?, get?, lookup_map_at, if_pos rfl]
      cases entries.lookup name with
      | none => rfl
      | some child => exact ih child

/-- A change is not seen at locations that are not below it, except that directories on the way to it
have other entries. -/
theorem get?_update_of_not_below (f : Node → Node) {place l : Location} (root : Node)
    (h : ¬ place <+: l) :
    get? l (update f place root) = get? l root ∨
      ∃ entries entries', get? l root = some (.dir entries) ∧
        get? l (update f place root) = some (.dir entries') := by
  -- induction along the place, up to where the other location leaves it
  induction place generalizing root l with
  | nil => exact absurd l.nil_prefix h
  | cons name place ih =>
    cases root with
    | file bytes => exact .inl rfl
    | dir entries =>
      cases l with
      | nil => exact .inr ⟨_, _, rfl, rfl⟩
      | cons m l =>
        rw [update, get?, get?, lookup_map_at]
        by_cases hm : m = name
        · subst hm
          have hrest : ¬ place <+: l := fun hp => h (List.cons_prefix_cons.2 ⟨rfl, hp⟩)
          rw [if_pos rfl]
          cases entries.lookup m with
          | none => exact .inl rfl
          | some child => exact ih child hrest
        · rw [if_neg hm]
          exact .inl rfl

theorem file?_update_of_not_below (f : Node → Node) {place l : Location} (root : Node)
    (h : ¬ place <+: l) : (update f place root).file? l = root.file? l := by
  unfold file?
  rcases get?_update_of_not_below f root h with heq | ⟨entries, entries', hold, hnew⟩
  · rw [heq]
  · rw [hold, hnew]
    rfl

theorem file?_update_append (f : Node → Node) (place rest : Location) (root : Node) :
    (update f place root).file? (place ++ rest) =
      ((get? place root).map f).bind (·.file? rest) := by
  unfold file?
  rw [get?_update_append, Option.bind_assoc]

/-- A new entry of a directory is seen at and below its name. -/
theorem file?_setChild_append {root : Node} {place : Location} {entries : Entries}
    (hdir : root.get? place = some (.dir entries)) (name : Text) (child : Node)
    (rest : Location) :
    (update (setChild name child) place root).file? (place ++ name :: rest) = child.file? rest := by
  rw [file?_update_append, hdir, Option.map_some, setChild, Option.bind_some, file?_cons_dir,
    lookup_setEntry, if_pos rfl, Option.bind_some]

/-- Everything else is seen as before. -/
theorem file?_setChild_of_not_below {root : Node} {place l : Location} {entries : Entries}
    (hdir : root.get? place = some (.dir entries)) {name : Text} (child : Node)
    (h : ¬ place ++ [name] <+: l) :
    (update (setChild name child) place root).file? l = root.file? l := by
  by_cases hplace : place <+: l
  · obtain ⟨rest, rfl⟩ := hplace
    rw [file?_update_append, file?_append, hdir, Option.map_some, setChild]
    cases rest with
    | nil => rfl
    | cons m rest =>
      -- in the same directory, but behind another name
      have hm : m ≠ name := by
        rintro rfl
        exact h ⟨rest, by simp⟩
      simp [lookup_setEntry, hm]
  · exact file?_update_of_not_below _ root hplace

/-- Writing a file is seen at its location only. -/
theorem file?_setFile {root : Node} {place : Location} {entries : Entries}
    (hdir : root.get? place = some (.dir entries)) {name : Text}
    (hold : ∀ sub, entries.lookup name ≠ some (.dir sub)) (bytes : ByteArray) (l : Location) :
    (update (setChild name (.file bytes)) place root).file? l =
      if l = place ++ [name] then some bytes else root.file? l := by
  by_cases hl : place ++ [name] <+: l
  · obtain ⟨rest, rfl⟩ := hl
    rw [List.append_assoc, List.singleton_append, file?_setChild_append hdir]
    cases rest with
    | nil => simp [file?, get?]
    | cons m rest =>
      -- nothing lies below a file or below a name that leads nowhere
      rw [if_neg (by simp), file?_cons_file, file?_append, hdir, Option.bind_some, file?_cons_dir]
      cases hn : entries.lookup name with
      | none => rfl
      | some old =>
        cases old with
        | file old => rfl
        | dir sub => exact absurd hn (hold sub)
  · rw [file?_setChild_of_not_below hdir _ hl, if_neg]
    rintro rfl
    exact hl (List.prefix_refl _)

/-- A new directory is not seen among the files. -/
theorem file?_setDir {root : Node} {place : Location} {entries : Entries}
    (hdir : root.get? place = some (.dir entries)) {name : Text}
    (hold : entries.lookup name = none) (l : Location) :
    (update (setChild name (.dir [])) place root).file? l = root.file? l := by
  by_cases hl : place ++ [name] <+: l
  · obtain ⟨rest, rfl⟩ := hl
    rw [List.append_assoc, List.singleton_append, file?_setChild_append hdir, file?_append, hdir,
      Option.bind_some, file?_cons_dir, hold]
    cases rest with
    | nil => rfl
    | cons m rest => simp
  · exact file?_setChild_of_not_below hdir _ hl

/-- An entry that is erased is no longer seen, and nothing below it. -/
theorem file?_erase (root : Node) (place : Location) (name : Text) (l : Location) :
    (update (eraseChild name) place root).file? l =
      if place ++ [name] <+: l then none else root.file? l := by
  by_cases hplace : place <+: l
  · obtain ⟨rest, rfl⟩ := hplace
    rw [file?_update_append, file?_append]
    cases hnode : root.get? place with
    | none => simp
    | some node =>
      cases node with
      | file bytes =>
        -- a file has no entries to lose
        cases rest with
        | nil =>
          have hl : ¬ place ++ [name] <+: place ++ [] := by
            intro h
            have hlen := h.length_le
            simp only [List.length_append, List.length_singleton, List.append_nil] at hlen
            omega
          rw [if_neg hl, Option.map_some, eraseChild]
        | cons m rest => simp [eraseChild]
      | dir entries =>
        cases rest with
        | nil => simp [eraseChild, file?, get?]
        | cons m rest =>
          by_cases hm : m = name
          · subst hm
            simp [eraseChild, lookup_filter_ne]
          · simp [eraseChild, lookup_filter_ne, hm, Ne.symm hm]
  · have hl : ¬ place ++ [name] <+: l := fun h => hplace ((List.prefix_append _ _).trans h)
    rw [file?_update_of_not_below _ root hplace, if_neg hl]

/-- A directory that is emptied leaves nothing to be seen below it. -/
theorem file?_clear {root : Node} {place : Location} {entries : Entries}
    (hdir : root.get? place = some (.dir entries)) (l : Location) :
    (update (fun _ => .dir []) place root).file? l =
      if place <+: l then none else root.file? l := by
  by_cases hplace : place <+: l
  · obtain ⟨rest, rfl⟩ := hplace
    rw [file?_update_append, hdir, if_pos (List.prefix_append _ _)]
    cases rest with
    | nil => rfl
    | cons m rest => simp
  · rw [file?_update_of_not_below _ root hplace, if_neg hplace]

end Node

end ActionDocs
