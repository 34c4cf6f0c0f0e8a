import ActionDocs.Text.Basic

/-!
# Doc comments in a source text

A doc comment runs from an opening mark to the nearest closing mark. It documents a declaration if
the text right behind the closing mark has the shape of one.

- `Head`, `Shape`: what a declaration looks like at the front of a text.
- `Comment`: a doc comment with the declaration that follows it.
- `Comment.scan`: all comments in front of declarations of one shape, in the order of the text.
-/

namespace ActionDocs

open Text

/-- The head of a declaration: the name it gives, if its shape has one, and the number of characters
it takes. -/
structure Head where
  name? : Option Text
  length : Nat
  deriving DecidableEq, Repr

/-- A shape decides whether a text starts with a declaration. -/
abbrev Shape := Text → Option Head

/-- A doc comment that documents a declaration. -/
structure Comment where
  /-- The text between the two marks. -/
  body : Text
  /-- The name of the declaration. -/
  name : Text
  /-- The offset of the opening mark. -/
  start : Nat
  /-- The offset right behind the head of the declaration. -/
  stop : Nat
  deriving DecidableEq, Repr

namespace Comment

/-- The mark that opens a doc comment. -/
def opener : Text := ['/', '*', '*']

/-- The mark that closes a comment. -/
def closer : Text := ['*', '/']

/-- The documented declarations in the rest of a text that starts at a given offset.

A comment with no declaration behind it is passed over, except for the slash of its closing mark,
which may belong to the next opening mark. Behind a declaration the scan goes on at its end, and it
stops at a comment that is never closed. -/
def scanFrom (shape : Shape) (fallback : Text) (offset : Nat) (text : Text) : List Comment :=
  match _hopen : cut? opener text with
  | none => []
  | some (before, inside) =>
    match _hclose : cut? closer inside with
    | none => []
    | some (body, after) =>
      let start := offset + before.length
      let close := start + opener.length + body.length
      match shape after with
      | none => scanFrom shape fallback (close + 1) ('/' :: after)
      | some head =>
        let stop := close + closer.length + head.length
        ⟨body, head.name?.getD fallback, start, stop⟩ ::
          scanFrom shape fallback stop (after.drop head.length)
  termination_by text.length
  decreasing_by
    all_goals
      have hin := congrArg List.length (eq_of_cut?_eq_some _hopen)
      have hout := congrArg List.length (eq_of_cut?_eq_some _hclose)
      simp [opener, closer] at hin hout ⊢
      omega

/-- The comments in front of declarations of a shape. A shape that gives no name leaves the
declaration with the fallback. -/
def scan (shape : Shape) (text : Text) (fallback : Text := []) : List Comment :=
  scanFrom shape fallback 0 text

end Comment

end ActionDocs
