import ActionDocs.Grouping
import Mathlib.Data.List.Basic
import Mathlib.Data.List.Induction

/-!
# What grouping keeps

- `keysOf`, `membersOf`: the distinct keys of a list, and its members that have a given key.
- `groupBy_eq`: the groups are those of the distinct keys in the order in which the keys first
  occur, and the group of a key is the part of the list that has this key.
- `Contiguous`, `flatMap_membersOf`: if the members with a key stand next to each other, the groups
  one after the other are the list again.
-/

namespace ActionDocs

universe u v

variable {α : Type u} {κ : Type v} [DecidableEq κ]

theorem nodup_eraseDups (keys : List κ) : keys.eraseDups.Nodup := by
  induction h : keys.length using Nat.strongRecOn generalizing keys with
  | ind n ih =>
    cases keys with
    | nil => simp
    | cons k keys =>
      rw [List.eraseDups_cons, List.nodup_cons]
      have hlen : (keys.filter fun b => !b == k).length < n := by
        have hle := List.length_filter_le (fun b => !b == k) keys
        rw [List.length_cons] at h
        omega
      refine ⟨?_, ih _ hlen _ rfl⟩
      intro hmem
      have hfilter := List.mem_filter.1 (List.mem_eraseDups.1 hmem)
      simp at hfilter

/-- The distinct keys of the members of a list, in the order in which they first occur. -/
def keysOf (key : α → κ) (l : List α) : List κ :=
  (l.map key).eraseDups

/-- The members of a list that have a key. -/
def membersOf (key : α → κ) (l : List α) (k : κ) : List α :=
  l.filter fun a => key a == k

theorem nodup_keysOf (key : α → κ) (l : List α) : (keysOf key l).Nodup :=
  nodup_eraseDups _

theorem mem_keysOf {key : α → κ} {l : List α} {k : κ} :
    k ∈ keysOf key l ↔ ∃ a ∈ l, key a = k := by
  unfold keysOf
  rw [List.mem_eraseDups, List.mem_map]

theorem mem_membersOf {key : α → κ} {l : List α} {k : κ} {a : α} :
    a ∈ membersOf key l k ↔ a ∈ l ∧ key a = k := by
  simp [membersOf]

/-- The group of a key is the part of the list that has this key. -/
def groupsOf (key : α → κ) (l : List α) (keys : List κ) : List (κ × List α) :=
  keys.map fun k => (k, membersOf key l k)

theorem addToGroup_of_not_mem (key : α → κ) (l : List α) {keys : List κ} {a : α}
    (h : key a ∉ keys) :
    addToGroup (key a) a (groupsOf key l keys) =
      groupsOf key (l ++ [a]) keys ++ [(key a, [a])] := by
  induction keys with
  | nil => rfl
  | cons k keys ih =>
    have hk : key a ≠ k := fun heq => h (by simp [heq])
    have hkeys : key a ∉ keys := fun hmem => h (by simp [hmem])
    show addToGroup (key a) a ((k, _) :: groupsOf key l keys) = _
    rw [addToGroup, if_neg hk, ih hkeys]
    simp [groupsOf, membersOf, hk]

theorem addToGroup_of_mem (key : α → κ) (l : List α) {keys : List κ} (hnodup : keys.Nodup) {a : α}
    (h : key a ∈ keys) :
    addToGroup (key a) a (groupsOf key l keys) = groupsOf key (l ++ [a]) keys := by
  induction keys with
  | nil => simp at h
  | cons k keys ih =>
    obtain ⟨hk, hnodup⟩ := List.nodup_cons.1 hnodup
    show addToGroup (key a) a ((k, _) :: groupsOf key l keys) = _
    rw [addToGroup]
    by_cases heq : key a = k
    · -- the groups of the other keys do not change
      have hrest : groupsOf key l keys = groupsOf key (l ++ [a]) keys := by
        refine List.map_congr_left ?_
        intro k' hk'
        have hne : key a ≠ k' := by
          rintro rfl
          exact hk (heq ▸ hk')
        simp [membersOf, hne]
      rw [if_pos heq, hrest]
      simp [groupsOf, membersOf, heq]
    · have hmem : key a ∈ keys := by simpa [heq] using h
      rw [if_neg heq, ih hnodup hmem]
      simp [groupsOf, membersOf, heq]

/-- A key that comes last is new unless it occurred before. -/
theorem eraseDups_concat (keys : List κ) (k : κ) :
    (keys ++ [k]).eraseDups = if k ∈ keys then keys.eraseDups else keys.eraseDups ++ [k] := by
  rw [List.eraseDups_append]
  by_cases h : k ∈ keys
  · have hnone : [k].removeAll keys = [] := by simp [List.removeAll, h]
    simp [hnone, h]
  · have hone : [k].removeAll keys = [k] := by simp [List.removeAll, h]
    simp [hone, h, List.eraseDups_cons]

/-- Grouping lists the distinct keys in the order in which they first occur, each with the members
that have it, in the order of the list. -/
theorem groupBy_eq (key : α → κ) (l : List α) :
    groupBy key l = groupsOf key l (keysOf key l) := by
  unfold keysOf
  -- the last member joins the group of its key, or starts the last group
  induction l using List.reverseRecOn with
  | nil => rfl
  | append_singleton l a ih =>
    have hstep : groupBy key (l ++ [a]) = addToGroup (key a) a (groupBy key l) := by
      simp [groupBy]
    rw [hstep, ih, List.map_append, List.map_singleton, eraseDups_concat]
    split
    · next hmem => exact addToGroup_of_mem key l (nodup_eraseDups _) (List.mem_eraseDups.2 hmem)
    · next hnew =>
      have hfirst : l.filter (fun b => key b == key a) = [] := by
        refine List.filter_eq_nil_iff.2 fun b hb heq => hnew ?_
        exact List.mem_map.2 ⟨b, hb, by simpa using heq⟩
      rw [addToGroup_of_not_mem key l fun h => hnew (List.mem_eraseDups.1 h)]
      simp [groupsOf, membersOf, hfirst]

/-! ## Putting the groups back together -/

/-- Between two members with the same key there are only members with this key. -/
def Contiguous (key : α → κ) (l : List α) : Prop :=
  ∀ a b c, List.Sublist [a, b, c] l → key a = key c → key b = key c

omit [DecidableEq κ] in
theorem Contiguous.of_cons {key : α → κ} {a : α} {l : List α} (h : Contiguous key (a :: l)) :
    Contiguous key l :=
  fun x y z hsub => h x y z (hsub.cons a)

omit [DecidableEq κ] in
/-- In a contiguous list, a key that comes back after the first member comes back at once. -/
theorem Contiguous.head_eq {key : α → κ} {a b : α} {l : List α}
    (h : Contiguous key (a :: b :: l)) (hmem : ∃ c ∈ b :: l, key c = key a) : key b = key a := by
  obtain ⟨c, hc, hkey⟩ := hmem
  rcases List.mem_cons.1 hc with rfl | hc
  · exact hkey
  · have hsub : List.Sublist [a, b, c] (a :: b :: l) :=
      ((List.singleton_sublist.2 hc).cons_cons b).cons_cons a
    exact (h a b c hsub hkey.symm).trans hkey

theorem membersOf_cons_self (key : α → κ) (a : α) (l : List α) :
    membersOf key (a :: l) (key a) = a :: membersOf key l (key a) := by
  simp [membersOf]

/-- A member joins no group but that of its own key. -/
theorem flatMap_membersOf_cons {key : α → κ} {a : α} {keys : List κ} (h : key a ∉ keys)
    (l : List α) : keys.flatMap (membersOf key (a :: l)) = keys.flatMap (membersOf key l) := by
  refine List.flatMap_congr fun k hk => ?_
  have hne : key a ≠ k := fun heq => h (heq ▸ hk)
  simp [membersOf, hne]

/-- If the members with a key stand next to each other, the groups one after the other are the list
again. -/
theorem flatMap_membersOf {key : α → κ} {l : List α} (h : Contiguous key l) :
    (keysOf key l).flatMap (membersOf key l) = l := by
  induction l with
  | nil => rfl
  | cons a l ih =>
    have hrest := ih h.of_cons
    by_cases hmem : ∃ c ∈ l, key c = key a
    · -- the key of the first member is that of the second one, whose group is the first one
      cases l with
      | nil => simp at hmem
      | cons b l =>
        have hb : key b = key a := h.head_eq hmem
        have hkeys : keysOf key (b :: l) =
            key a :: ((l.map key).filter fun k => !k == key a).eraseDups := by
          simp [keysOf, List.eraseDups_cons, hb]
        have hsame : keysOf key (a :: b :: l) = keysOf key (b :: l) := by
          rw [hkeys]
          simp [keysOf, List.eraseDups_cons, hb]
        have hnew : key a ∉ ((l.map key).filter fun k => !k == key a).eraseDups := by
          simp
        rw [hkeys, List.flatMap_cons] at hrest
        rw [hsame, hkeys, List.flatMap_cons, membersOf_cons_self, flatMap_membersOf_cons hnew,
          List.cons_append, hrest]
    · have hnew : key a ∉ keysOf key l := fun hk => hmem (mem_keysOf.1 hk)
      have hkeys : keysOf key (a :: l) = key a :: keysOf key l := by
        have hall : (l.map key).filter (fun k => !k == key a) = l.map key := by
          refine List.filter_eq_self.2 fun k hk => ?_
          obtain ⟨c, hc, rfl⟩ := List.mem_map.1 hk
          simpa using fun heq => hmem ⟨c, hc, heq⟩
        rw [keysOf, List.map_cons, List.eraseDups_cons, hall, keysOf]
      have hnone : membersOf key l (key a) = [] :=
        List.filter_eq_nil_iff.2 fun c hc heq => hmem ⟨c, hc, eq_of_beq heq⟩
      rw [hkeys, List.flatMap_cons, membersOf_cons_self, hnone, flatMap_membersOf_cons hnew, hrest]
      rfl

end ActionDocs
