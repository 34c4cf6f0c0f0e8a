import ActionDocs.Proofs.Disk.Order
import Mathlib.Data.List.Lex

/-!
# Listing a tree from the top

When everything in a sorted tree is listed, a directory stands in front of what is in it, and apart
from that the names decide. This order of locations is the lexicographic one, so it is told without
the tree, and what lies in a directory follows it without a gap.

- `Location.Precedes`: the order in which everything is listed.
- `Location.Precedes.isPrefix`: between a directory and what is in it there is nothing else.
- `Location.exists_eq_append_filter`: each location is followed by all that lies below it.
- `Node.pairwise_listingOf`: a sorted tree is listed in this order.
-/

namespace ActionDocs

open Text

/-- A location is listed before another one: it is on the way to it, or the first names that differ
are in the order of code points. -/
def Location.Precedes : Location → Location → Prop :=
  List.Lex fun a b => isUpTo a b = true ∧ a ≠ b

namespace Location

/-- The order of names is strict. -/
instance asymm_names : Std.Asymm fun a b : Text => isUpTo a b = true ∧ a ≠ b where
  asymm _ _ h h' := h.2 (isUpTo_antisymm h.1 h'.1)

namespace Precedes

variable {l m n : Location}

theorem append (here : Location) (h : Precedes l m) : Precedes (here ++ l) (here ++ m) :=
  List.Lex.append_left _ h here

theorem asymm (h : Precedes l m) : ¬ Precedes m l :=
  Std.Asymm.asymm (r := List.Lex fun a b : Text => isUpTo a b = true ∧ a ≠ b) l m h

theorem ne (h : Precedes l m) : l ≠ m := by
  rintro rfl
  exact h.asymm h

/-- A location is listed before everything below it. -/
theorem of_isPrefix (h : l <+: m) (hne : l ≠ m) : Precedes l m := by
  obtain ⟨rest, rfl⟩ := h
  cases rest with
  | nil => simp at hne
  | cons name rest =>
    have hbelow : Precedes (l ++ []) (l ++ name :: rest) := append l List.Lex.nil
    rwa [List.append_nil] at hbelow

/-- What is listed between a location and something below it lies below it as well. -/
theorem isPrefix (h : Precedes l m) (h' : Precedes m n) (hn : l <+: n) : l <+: m := by
  induction h generalizing n with
  | nil => exact List.nil_prefix
  | @cons a l m h ih =>
    cases h' with
    | cons h' => exact List.cons_prefix_cons.2 ⟨rfl, ih h' (List.cons_prefix_cons.1 hn).2⟩
    | rel h' => exact absurd (List.cons_prefix_cons.1 hn).1 h'.2
  | rel h =>
    obtain ⟨rest, rfl⟩ := hn
    -- the first name comes back only if the two names are the same
    cases h' with
    | cons _ => exact absurd rfl h.2
    | rel h' => exact absurd (isUpTo_antisymm h.1 h'.1) h.2

end Precedes

/-- The second location lies below the first. -/
def IsAbove (l m : Location) : Prop :=
  l <+: m ∧ l ≠ m

instance (l m : Location) : Decidable (IsAbove l m) :=
  inferInstanceAs (Decidable (_ ∧ _))

section Lists

variable {α : Type} {place : α → Location} {l : Location} {xs : List α}

/-- In a list that starts behind a location, what lies below the location comes first. -/
theorem eq_filter_append_filter (h : xs.Pairwise fun x y => Precedes (place x) (place y))
    (hl : ∀ x ∈ xs, Precedes l (place x)) :
    xs = xs.filter (fun x => IsAbove l (place x)) ++
      xs.filter (fun x => ¬ IsAbove l (place x)) := by
  induction xs with
  | nil => rfl
  | cons x xs ih =>
    obtain ⟨hx, hxs⟩ := List.pairwise_cons.1 h
    by_cases hbelow : IsAbove l (place x)
    · rw [List.filter_cons_of_pos (by simpa using hbelow),
        List.filter_cons_of_neg (by simpa using hbelow), List.cons_append,
        ← ih hxs fun y hy => hl y (by simp [hy])]
    · -- nothing below the location comes later than this
      have hnone : ∀ y ∈ x :: xs, ¬ IsAbove l (place y) := by
        intro y hy hpre
        rcases List.mem_cons.1 hy with rfl | hy
        · exact hbelow hpre
        · have hlx := hl x (by simp)
          exact hbelow ⟨hlx.isPrefix (hx y hy) hpre.1, hlx.ne⟩
      rw [List.filter_eq_nil_iff.2 (by simpa using hnone), List.nil_append,
        List.filter_eq_self.2 (by simpa using hnone)]

/-- In a list in this order, each location is followed by all that lies below it, without a gap. -/
theorem exists_eq_append_filter (h : xs.Pairwise fun x y => Precedes (place x) (place y)) {x : α}
    (hx : x ∈ xs) :
    ∃ before after,
      xs = before ++ x :: xs.filter (fun y => IsAbove (place x) (place y)) ++ after := by
  obtain ⟨before, rest, rfl⟩ := List.append_of_mem hx
  obtain ⟨-, hbehind, hbefore⟩ := List.pairwise_append.1 h
  obtain ⟨hfirst, hrest⟩ := List.pairwise_cons.1 hbehind
  -- neither the location itself nor anything in front of it lies below it
  have hnone : before.filter (fun y => IsAbove (place x) (place y)) = [] := by
    refine List.filter_eq_nil_iff.2 fun y hy => ?_
    rw [decide_eq_true_iff]
    rintro ⟨hpre, hne⟩
    exact (hbefore y hy x (by simp)).asymm (.of_isPrefix hpre hne)
  have hself : ¬ IsAbove (place x) (place x) := fun hbelow => hbelow.2 rfl
  refine ⟨before, rest.filter (fun y => ¬ IsAbove (place x) (place y)), ?_⟩
  rw [List.filter_append, hnone, List.nil_append, List.filter_cons_of_neg (by simpa using hself),
    List.append_assoc, List.cons_append, ← eq_filter_append_filter hrest hfirst]

end Lists

end Location

namespace Node

/-! ## Sorted trees -/

/-- The order of nodes by their locations. -/
abbrev ListedFirst (f g : Location × Node) : Prop :=
  Location.Precedes f.1 g.1

theorem pairwise_listingOf_of_children {entries : Entries} (h : Increasing entries)
    (hwf : ∀ entry ∈ entries, entry.2.WellFormed)
    (ih : ∀ entry ∈ entries, ∀ here, (listing here entry.2).Pairwise ListedFirst)
    (here : Location) : (listingOf here entries).Pairwise ListedFirst := by
  induction entries with
  | nil => exact .nil
  | cons entry entries ihEntries =>
    obtain ⟨name, node⟩ := entry
    obtain ⟨hfirst, hrest⟩ := List.pairwise_cons.1 h
    rw [listingOf, List.pairwise_append]
    refine ⟨ih (name, node) (by simp) _, ?_, ?_⟩
    · exact ihEntries hrest (fun e he => hwf e (List.mem_cons_of_mem _ he))
        fun e he => ih e (List.mem_cons_of_mem _ he)
    · -- what lies behind different names stands in the order of these names
      rintro ⟨l, found⟩ hf ⟨m, found'⟩ hg
      obtain ⟨name', node', hmem, hg⟩ := mem_listingOf.1 hg
      obtain ⟨rel, rfl, -⟩ := (mem_listing_iff (hwf (name, node) (by simp))).1 hf
      obtain ⟨rel', rfl, -⟩ := (mem_listing_iff (hwf _ (List.mem_cons_of_mem _ hmem))).1 hg
      show Location.Precedes (here ++ [name] ++ rel) (here ++ [name'] ++ rel')
      rw [List.append_assoc, List.append_assoc]
      exact Location.Precedes.append here (List.Lex.rel (hfirst _ hmem))

theorem pairwise_listing {node : Node} (h : node.WellFormed) (here : Location) :
    (listing here node.sorted).Pairwise ListedFirst := by
  induction h generalizing here with
  | file bytes => exact List.pairwise_singleton _ _
  | @dir entries distinct named children ih =>
    have hwf : (Node.dir (sortedEntries entries)).WellFormed :=
      (WellFormed.dir distinct named children).sorted
    have hbelow : ∀ entry ∈ sortedEntries entries, ∀ here,
        (listing here entry.2).Pairwise ListedFirst := by
      rintro ⟨name, node⟩ hmem here
      obtain ⟨old, hold, rfl⟩ := mem_sortedEntries.1 hmem
      exact ih _ hold here
    rw [Node.sorted, listing, List.pairwise_cons]
    refine ⟨?_, pairwise_listingOf_of_children (increasing_sortedEntries distinct) hwf.children
      hbelow here⟩
    rintro ⟨l, found⟩ hmem
    obtain ⟨rel, hne, rfl, -⟩ := (mem_listingOf_iff hwf).1 hmem
    exact .of_isPrefix (List.prefix_append here rel) (by simpa using hne)

/-- What is in a sorted directory is listed in the order of the locations. -/
theorem pairwise_listingOf {entries : Entries} (h : (Node.dir entries).WellFormed)
    (here : Location) : (listingOf here (sortedEntries entries)).Pairwise ListedFirst := by
  have hlisting := pairwise_listing h here
  rw [Node.sorted, listing] at hlisting
  exact (List.pairwise_cons.1 hlisting).2

end Node

end ActionDocs
