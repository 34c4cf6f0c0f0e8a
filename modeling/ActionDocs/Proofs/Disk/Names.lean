import ActionDocs.Proofs.Disk.Tree
import ActionDocs.Proofs.Text.Lines
import Mathlib.Data.List.TakeWhile

/-!
# Names of files

A disk gives no empty names, no name that stands for a directory itself, and no name with a slash in
it. So a path that is written down can be read again. The suffix of a name begins at its last dot.

- `Node.Named`: the promise of a disk about the names in its tree.
- `Path.ofText_here`: a relative path that was written down is read again.
- `splitSuffix_append`: a name is made up of its stem and its suffix.
- `splitSuffix_of_dot`: what stem and suffix are.
-/

namespace ActionDocs

open Text

/-! ## Names that can be followed -/

/-- A name that can stand in a written path. -/
def IsName (name : Text) : Prop :=
  Path.isStep name = true ∧ '/' ∉ name

instance : DecidablePred IsName :=
  fun name => inferInstanceAs (Decidable (Path.isStep name = true ∧ '/' ∉ name))

theorem IsName.ne_nil {name : Text} (h : IsName name) : name ≠ [] := by
  rintro rfl
  exact absurd h.1 (by decide)

/-- A location whose names can stand in a written path. -/
def Location.Named (l : Location) : Prop :=
  ∀ name ∈ l, IsName name

/-- A tree in which all names can stand in a written path. -/
def Node.Named (root : Node) : Prop :=
  ∀ found ∈ Node.listing [] root, Location.Named found.1

instance : DecidablePred Location.Named :=
  fun l => inferInstanceAs (Decidable (∀ name ∈ l, IsName name))

instance : DecidablePred Node.Named :=
  fun root => inferInstanceAs (Decidable (∀ found ∈ Node.listing [] root, Location.Named found.1))

theorem Node.Named.get? {root node : Node} {l : Location} (h : root.Named) (hwf : root.WellFormed)
    (hl : root.get? l = some node) : l.Named :=
  h (l, node) ((Node.mem_listing_iff hwf).2 ⟨l, rfl, hl⟩)

/-- The names on the way are found again in the path. -/
theorem Location.Named.fields_intercalate {l : Location} (h : l.Named) (hne : l ≠ []) :
    fields (· == '/') (List.intercalate "/" l) = l :=
  Text.fields_intercalate hne fun name hname => (h name hname).2

/-- A path that is written down from the working directory on is read again. -/
theorem Path.ofText_here {l : Location} (hne : l ≠ []) (h : l.Named) :
    Path.ofText ("./" ++ List.intercalate "/" l) = ⟨.here, l⟩ := by
  have hsteps : l.filter isStep = l := List.filter_eq_self.2 fun name hname => (h name hname).1
  have hanchor : anchorOf ('.' :: '/' :: List.intercalate "/" l) = .here := rfl
  have hdot : fields (· == '/') ('.' :: '/' :: List.intercalate "/" l) = ['.'] :: l := by
    rw [← List.singleton_append, fields_append_cons (beq_eq_false_of_not_mem (by decide)) rfl,
      h.fields_intercalate hne]
  show Path.mk (anchorOf ('.' :: '/' :: List.intercalate "/" l))
    ((fields (· == '/') ('.' :: '/' :: List.intercalate "/" l)).filter isStep) = _
  rw [hanchor, hdot, List.filter_cons_of_neg (by decide), hsteps]

/-! ## Stems and suffixes -/

/-- Read backwards, a text without dots is passed as a whole on the way to the last dot. -/
theorem ne_dot_of_mem_reverse {t : Text} (h : '.' ∉ t) : ∀ c ∈ t.reverse, (c != '.') = true := by
  intro c hc
  rw [bne_iff_ne]
  rintro rfl
  exact h (List.mem_reverse.1 hc)

/-- The stem and the suffix of a name, told by its last dot. -/
theorem splitSuffix_of_dot {stem ending : Text} (hdot : '.' ∉ ending) :
    splitSuffix (stem ++ '.' :: ending) =
      if ending = [] ∨ stem = [] then (stem ++ '.' :: ending, []) else (stem, '.' :: ending) := by
  have hending : (((stem ++ '.' :: ending).reverse).takeWhile (· != '.')).reverse = ending := by
    rw [List.reverse_append, List.reverse_cons, List.append_assoc,
      List.takeWhile_append_of_pos (ne_dot_of_mem_reverse hdot)]
    simp
  have hstem : (stem ++ '.' :: ending).take
      ((stem ++ '.' :: ending).length - ending.length - 1) = stem := by
    have hlength : (stem ++ '.' :: ending).length - ending.length - 1 = stem.length := by
      rw [List.length_append, List.length_cons]
      omega
    rw [hlength, List.take_left]
  unfold splitSuffix
  simp only [hending, hstem, Bool.or_eq_true, List.isEmpty_iff]

theorem splitSuffix_of_no_dot {name : Text} (hdot : '.' ∉ name) :
    splitSuffix name = (name, []) := by
  have hall : name.reverse.takeWhile (· != '.') = name.reverse :=
    List.takeWhile_eq_self_iff.2 (ne_dot_of_mem_reverse hdot)
  unfold splitSuffix
  rw [hall]
  simp

/-- A name has no dot, or it has a last one. -/
theorem exists_last_dot {name : Text} (h : '.' ∈ name) :
    ∃ stem ending, name = stem ++ '.' :: ending ∧ '.' ∉ ending := by
  obtain ⟨ending, stem, hname, hdot⟩ := List.eq_append_cons_of_mem (List.mem_reverse.2 h)
  refine ⟨stem.reverse, ending.reverse, ?_, by simpa using hdot⟩
  rw [← List.reverse_reverse name, hname]
  simp

/-- A name is made up of its stem and its suffix. -/
theorem splitSuffix_append (name : Text) : (splitSuffix name).1 ++ (splitSuffix name).2 = name := by
  by_cases h : '.' ∈ name
  · obtain ⟨stem, ending, rfl, hdot⟩ := exists_last_dot h
    rw [splitSuffix_of_dot hdot]
    split
    · exact List.append_nil _
    · rfl
  · rw [splitSuffix_of_no_dot h]
    exact List.append_nil _

theorem IsName.not_mem_stem {name : Text} (h : IsName name) : '/' ∉ (splitSuffix name).1 := by
  intro hmem
  refine h.2 ?_
  rw [← splitSuffix_append name]
  exact List.mem_append_left _ hmem

/-- A name that is not empty has a stem. -/
theorem splitSuffix_fst_ne_nil {name : Text} (h : name ≠ []) : (splitSuffix name).1 ≠ [] := by
  by_cases hdot : '.' ∈ name
  · obtain ⟨stem, ending, rfl, hending⟩ := exists_last_dot hdot
    rw [splitSuffix_of_dot hending]
    split
    · exact h
    · next hboth => exact fun hstem => hboth (.inr hstem)
  · rw [splitSuffix_of_no_dot hdot]
    exact h

end ActionDocs
