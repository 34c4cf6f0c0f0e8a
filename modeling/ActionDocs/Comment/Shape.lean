import ActionDocs.Comment.Basic
import ActionDocs.Text.Cursor

/-!
# Shapes of declarations

The four ways in which a source file declares what it documents, each read from the front of a text.

- `Shape.namedFunction`: `function Name`.
- `Shape.prototypeMember`: `Path.To.Class.prototype.name`.
- `Shape.assignedFunction`: `this.name = function` or `var name = function`.
- `Shape.wrappedFunction`: `(function (arguments)`.
- `baseClass?`: the class whose prototype another prototype is created from.

Identifiers are always taken whole, so none of the readers ever has to go back.
-/

namespace ActionDocs

open Text

/-- The head that ends at a cursor, with a name. -/
def Head.named (name : Text) (c : Cursor) : Head :=
  ⟨some name, c.read⟩

/-- The head that ends at a cursor, without a name. -/
def Head.anonymous (c : Cursor) : Head :=
  ⟨none, c.read⟩

namespace Shape

/-- A function with a name: the shape of a class. -/
def namedFunction : Shape := fun text => do
  let c ← (Cursor.start text).skipBlanks.expect? "function"
  let c ← c.expectBlanks?
  let (name, c) ← c.identifier?
  return .named name c

/-- Read a chain of identifiers, each behind a dot, up to the first that is `prototype`, and the
member that follows it. -/
def memberOfPrototype? (c : Cursor) : Option (Text × Cursor) :=
  match _hdot : c.expect? "." with
  | none => none
  | some c₁ =>
    match _hid : c₁.identifier? with
    | none => none
    | some (segment, c₂) =>
      if segment = ("prototype" : Text) then (c₂.expect? ".").bind Cursor.identifier?
      else memberOfPrototype? c₂
  termination_by c.rest.length
  decreasing_by
    have hdot := Cursor.length_lt_of_expect?_eq_some (by decide) _hdot
    have hid := Cursor.length_lt_of_identifier?_eq_some _hid
    omega

/-- A member of the prototype of a class, which may be given by a dotted path. -/
def prototypeMember : Shape := fun text => do
  let (_, c) ← (Cursor.start text).skipBlanks.identifier?
  let (name, c) ← memberOfPrototype? c
  return .named name c

/-- Read the word that makes an assigned function a member or a local one. -/
def binder? (c : Cursor) : Option Cursor :=
  match c.expect? "this." with
  | some c => some c
  | none => (c.expect? "var").bind Cursor.expectBlanks?

/-- Whether a text starts with a word character. -/
def startsInWord : Text → Bool
  | [] => false
  | c :: _ => isWord c

/-- A function assigned to a member of the object or to a local variable. -/
def assignedFunction : Shape := fun text => do
  let c ← binder? (Cursor.start text).skipBlanks
  let (name, c) ← c.identifier?
  let c ← c.skipBlanks.expect? "="
  let c ← c.skipBlanks.expect? "function"
  if startsInWord c.rest then none else return .named name c

/-- An anonymous function in parentheses: the shape of an action. -/
def wrappedFunction : Shape := fun text => do
  let c ← (Cursor.start text).skipBlanks.expect? "("
  let c ← c.skipBlanks.expect? "function"
  let c ← c.skipBlanks.expect? "("
  let c ← (c.skipWhile (· != ')')).expect? ")"
  return .anonymous c

/-- The shape that every text has. -/
def anything : Shape := fun _ => some ⟨none, 0⟩

end Shape

/-- The base class, read from what follows the name of the derived class. -/
def baseClassAfterName? (t : Text) : Option Text := do
  let rest ← after? ".prototype" t
  let rest ← after? "=" (trimLeft rest)
  let rest ← after? "Object.create(" (trimLeft rest)
  let (name, rest) ← identifier? (trimLeft rest)
  let rest ← after? ".prototype" rest
  let _ ← after? ")" (trimLeft rest)
  return name

/-- The base class named by the first assignment of a created prototype. -/
def baseClass? : Text → Option Text
  | [] => none
  | c :: cs =>
    match (if isIdent c then baseClassAfterName? cs else none) with
    | some name => some name
    | none => baseClass? cs

end ActionDocs
