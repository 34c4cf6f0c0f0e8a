import ActionDocs.Proofs.Text.Front
import ActionDocs.Proofs.Text.Lines
import ActionDocs.Proofs.Text.Position

/-!
# Reading texts with turned line ends

Turning the line ends of a text changes its length and the offsets in it, but not what is read from
it: a reader that treats the two line ends alike reads the same, and leaves what it would have left
before, with the line ends turned.

- `Text.unixNewlines_word_append`: a word in front of a text stays as it is.
- `Text.after?_unixNewlines`, `Text.cut?_unixNewlines`: cutting at a pattern without line ends.
- `Text.dropWhile_unixNewlines`, `Text.identifier?_unixNewlines`: reading characters of one kind.
- `Text.withLineEnds`: a text with other line ends.
- `Text.unixNewlines_withLineEnds`: turning them gives the text back.
-/

namespace ActionDocs.Text

/-! ## Turning the parts of a text -/

theorem unixNewlines_word_append {word : Text} (hword : '\r' ∉ word) (t : Text) :
    unixNewlines (word ++ t) = word ++ unixNewlines t := by
  rw [unixNewlines_append, unixNewlines_of_not_mem hword]
  intro hlast
  exact absurd (List.mem_of_getLast? hlast) hword

theorem unixNewlines_append_of_head? {t t' : Text} (h : t'.head? ≠ some '\n') :
    unixNewlines (t ++ t') = unixNewlines t ++ unixNewlines t' :=
  unixNewlines_append fun _ => h

theorem head?_append_ne {t : Text} {c : Char} (ht : t.head? = some c) (hc : c ≠ '\n')
    (rest : Text) : (t ++ rest).head? ≠ some '\n' := by
  rw [List.head?_append, ht, Option.some_or]
  intro heq
  exact hc (Option.some.inj heq)

theorem head?_unixNewlines {t : Text} {c : Char} (h : (unixNewlines t).head? = some c) :
    c = '\n' ∨ t.head? = some c := by
  rw [unixNewlines.eq_def] at h
  split at h
  · exact .inr h
  · exact .inl (Option.some.inj h).symm
  · next d cs _ =>
    by_cases hd : d = '\r'
    · subst hd
      exact .inl (Option.some.inj h).symm
    · have hbeq : (d == '\r') = false := by simpa using hd
      rw [hbeq] at h
      exact .inr h

theorem stops_unixNewlines {t : Text} (h : Stops isIdent t) : Stops isIdent (unixNewlines t) := by
  intro c hc
  rcases head?_unixNewlines hc with rfl | hc
  · decide
  · exact h c hc

/-! ## Cutting at a pattern -/

section Pattern

variable {pat : Text} (hpat : OneLine pat)

include hpat

/-- What follows a pattern at the front is the same as before, with all line ends turned. -/
theorem after?_unixNewlines (t : Text) :
    after? pat (unixNewlines t) = (after? pat t).map unixNewlines := by
  cases hafter : after? pat t with
  | some rest =>
    rw [after?_eq_some_iff.1 hafter, unixNewlines_word_append hpat.1]
    exact after?_eq_some_iff.2 rfl
  | none =>
    have hnot : ¬ pat <+: unixNewlines t := by
      intro hpre
      have hsome := after?_isSome ((prefix_unixNewlines_iff hpat.1 hpat.2 t).1 hpre)
      rw [hafter] at hsome
      cases hsome
    cases hturned : after? pat (unixNewlines t) with
    | none => rfl
    | some rest =>
      rw [after?_eq_some_iff.1 hturned] at hnot
      exact absurd (List.prefix_append pat rest) hnot

/-- A cut is made at the same occurrence as before, and both parts are the same with all line ends
turned. -/
theorem cut?_unixNewlines (hne : pat ≠ []) (hborder : Unbordered pat) (t : Text) :
    cut? pat (unixNewlines t) =
      (cut? pat t).map fun (before, after) => (unixNewlines before, unixNewlines after) := by
  have hoccurs := infix_unixNewlines_iff hne hpat.1 hpat.2
  cases hcut : cut? pat t with
  | none =>
    refine cut?_eq_none fun hin => ?_
    have hsome := cut?_isSome ((hoccurs t).1 hin)
    rw [hcut] at hsome
    cases hsome
  | some parts =>
    obtain ⟨before, after⟩ := parts
    have hbefore : ¬ pat <:+: before := by
      rintro ⟨front, back, rfl⟩
      have hpos := List.length_pos_iff.2 hne
      refine not_standsAt_of_lt_cut? hcut (j := front.length) ?_ ?_
      · simp only [List.length_append]
        omega
      · rw [StandsAt, eq_of_cut?_eq_some hcut]
        simp only [List.append_assoc, List.drop_left]
        exact List.prefix_append pat _
    obtain ⟨p, ps, rfl⟩ := List.exists_cons_of_ne_nil hne
    have hp : p ≠ '\n' := fun heq => hpat.2 (by simp [heq])
    rw [eq_of_cut?_eq_some hcut, List.append_assoc,
      unixNewlines_append_of_head? (head?_append_ne rfl hp after),
      unixNewlines_word_append hpat.1]
    exact cut?_append hne hborder (mt (hoccurs before).1 hbefore) _

theorem occursIn_unixNewlines (hne : pat ≠ []) (t : Text) :
    occursIn pat (unixNewlines t) = occursIn pat t := by
  rw [Bool.eq_iff_iff, occursIn_iff, occursIn_iff]
  exact infix_unixNewlines_iff hne hpat.1 hpat.2 t

end Pattern

/-! ## Reading characters of one kind -/

section Kind

variable {p : Char → Bool}

/-- The front of a text with all line ends turned is a line feed where the text has a line end. -/
theorem exists_unixNewlines_cons {c : Char} {cs : Text} (hnot : ∀ ds, c = '\r' → cs ≠ '\n' :: ds)
    (hp : p '\r' = p '\n') :
    ∃ d, unixNewlines (c :: cs) = d :: unixNewlines cs ∧ p d = p c ∧ (c ≠ '\r' → d = c) := by
  refine ⟨if c == '\r' then '\n' else c, ?_, ?_, ?_⟩
  · rw [unixNewlines]
    intro ds hc hcs
    exact hnot ds hc hcs
  · split
    · next hc => rw [beq_iff_eq.1 hc, hp]
    · rfl
  · intro hc
    rw [if_neg (by simpa using hc)]

theorem any_head?_unixNewlines (hp : p '\r' = p '\n') (t : Text) :
    (unixNewlines t).head?.any p = t.head?.any p := by
  cases t using unixNewlines.fun_cases with
  | case1 => rfl
  | case2 cs => exact hp.symm
  | case3 c cs hnot =>
    obtain ⟨d, hcons, hd, -⟩ := exists_unixNewlines_cons hnot hp
    rw [hcons]
    exact hd

/-- Characters are dropped as before, if line ends are treated alike. -/
theorem dropWhile_unixNewlines (hp : p '\r' = p '\n') (t : Text) :
    (unixNewlines t).dropWhile p = unixNewlines (t.dropWhile p) := by
  induction t using unixNewlines.induct with
  | case1 => rfl
  | case2 cs ih =>
    rw [unixNewlines, List.dropWhile_cons, List.dropWhile_cons, List.dropWhile_cons, hp, ih]
    cases p '\n' <;> simp [unixNewlines]
  | case3 c cs hnot ih =>
    obtain ⟨d, hcons, hd, -⟩ := exists_unixNewlines_cons hnot hp
    rw [hcons, List.dropWhile_cons, List.dropWhile_cons, hd, ih]
    split
    · rfl
    · exact hcons.symm

/-- The characters in front of the first line end are taken as before. -/
theorem takeWhile_unixNewlines (hr : p '\r' = false) (hn : p '\n' = false) (t : Text) :
    (unixNewlines t).takeWhile p = t.takeWhile p := by
  induction t using unixNewlines.induct with
  | case1 => rfl
  | case2 cs ih => simp [unixNewlines, hr, hn]
  | case3 c cs hnot ih =>
    obtain ⟨d, hcons, hd, hsame⟩ := exists_unixNewlines_cons hnot (hr.trans hn.symm)
    rw [hcons, List.takeWhile_cons, List.takeWhile_cons, hd, ih]
    split
    · next hc =>
      rw [hsame]
      rintro rfl
      rw [hr] at hc
      cases hc
    · rfl

end Kind

theorem trimLeft_unixNewlines (t : Text) : trimLeft (unixNewlines t) = unixNewlines (trimLeft t) :=
  dropWhile_unixNewlines (by decide) t

/-- No line end is part of an identifier. -/
theorem identifier?_unixNewlines (t : Text) :
    identifier? (unixNewlines t) =
      (identifier? t).map fun (name, rest) => (name, unixNewlines rest) := by
  unfold identifier?
  rw [takeWhile_unixNewlines (by decide) (by decide), dropWhile_unixNewlines (by decide)]
  split <;> rfl

/-! ## Other line ends -/

/-- A text with other line ends instead of its line feeds. -/
def withLineEnds (lineEnd t : Text) : Text :=
  t.flatMap fun c => if c == '\n' then lineEnd else [c]

/-- Turning the line ends of a text that was given other ones gives the text back. -/
theorem unixNewlines_withLineEnds {lineEnd t : Text}
    (hend : lineEnd = ['\r', '\n'] ∨ lineEnd = ['\r']) (ht : '\r' ∉ t) :
    unixNewlines (withLineEnds lineEnd t) = t := by
  induction t with
  | nil => rfl
  | cons c t ih =>
    have hc : c ≠ '\r' := fun heq => ht (by simp [heq])
    have hrest := ih fun hmem => ht (by simp [hmem])
    have hcons : withLineEnds lineEnd (c :: t) =
        (if c == '\n' then lineEnd else [c]) ++ withLineEnds lineEnd t := rfl
    -- the text behind a carriage return starts with no line feed, as it has none
    have hhead : (withLineEnds lineEnd t).head? ≠ some '\n' := by
      cases t with
      | nil => exact fun h => nomatch h
      | cons d t =>
        show ((if d == '\n' then lineEnd else [d]) ++ withLineEnds lineEnd t).head? ≠ some '\n'
        split
        · rcases hend with rfl | rfl <;> exact head?_append_ne (c := '\r') rfl (by decide) _
        · next hd => simpa using hd
    rw [hcons]
    split
    · next hn =>
      rw [beq_iff_eq.1 hn, unixNewlines_append_of_head? hhead, hrest]
      rcases hend with rfl | rfl <;> rfl
    · rw [List.singleton_append, unixNewlines_cons_of_ne hc, hrest]

end ActionDocs.Text
