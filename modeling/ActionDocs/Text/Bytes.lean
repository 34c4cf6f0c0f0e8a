import ActionDocs.Text.Basic

/-!
# Texts as bytes

Files hold bytes; a text is stored in UTF-8 and read back strictly.

- `encode`, `decode?`: writing and reading UTF-8.
- `byteLength`: how many bytes a text takes.
-/

namespace ActionDocs.Text

/-- The UTF-8 form of a text. -/
def encode (t : Text) : ByteArray :=
  (String.ofList t).toUTF8

/-- Read UTF-8. Overlong forms, surrogates and everything above U+10FFFF are refused. -/
def decode? (bytes : ByteArray) : Option Text :=
  (String.fromUTF8? bytes).map String.toList

/-- How many bytes a text takes in UTF-8. -/
def byteLength (t : Text) : Nat :=
  t.foldl (fun n c => n + c.utf8Size) 0

/-- What was written is read back. -/
theorem decode?_encode (t : Text) : decode? (encode t) = some t := by
  have valid : (String.ofList t).toUTF8.IsValidUTF8 := (String.ofList t).isValidUTF8
  have back : String.fromUTF8? (String.ofList t).toUTF8 = some (String.ofList t) := by
    rw [String.fromUTF8?, dif_pos valid]
    rfl
  rw [decode?, encode, back, Option.map_some, String.toList_ofList]

end ActionDocs.Text
