import VhdlOrder.Text.Position

/-! # Reading a text character by character

A cursor is the part of a text still to be read together with the position reached. Reading a
character is the only way forward, so a cursor that was reached from another one differs from it by
exactly the characters read in between; `Cursor.Reaches` says so.
-/

namespace VhdlOrder

/-- The characters left to read and the position of the last character read. -/
structure Cursor where
  position : Position
  rest : List Char
deriving DecidableEq, Inhabited

namespace Cursor

/-- The cursor before the first character of `text`. -/
def ofText (text : String) : Cursor := ⟨.start, text.toList⟩

/-- Reads the next character, if there is one. -/
def next? (cursor : Cursor) : Option (Char × Cursor) :=
  match cursor.rest with
  | [] => none
  | c :: rest => some (c, ⟨cursor.position.step c, rest⟩)

/-- The next character, which stays unread. -/
def peek? (cursor : Cursor) : Option Char := cursor.rest.head?

/-- Whether there is a next character and it satisfies `accepts`. -/
def peekIs (cursor : Cursor) (accepts : Char → Bool) : Bool := cursor.peek?.any accepts

/-- Reads on up to the first character that satisfies `stop`, which stays unread. -/
def skipUntil (cursor : Cursor) (stop : Char → Bool) : Cursor :=
  let passed := cursor.rest.takeWhile fun c => !stop c
  ⟨cursor.position.advance passed, cursor.rest.dropWhile fun c => !stop c⟩

/-- `later` is `cursor` after exactly the characters of `text` were read. -/
def Reaches (cursor : Cursor) (text : List Char) (later : Cursor) : Prop :=
  cursor.rest = text ++ later.rest ∧ later.position = cursor.position.advance text

theorem Reaches.refl (cursor : Cursor) : cursor.Reaches [] cursor := ⟨rfl, rfl⟩

theorem Reaches.trans {first second third : Cursor} {one two : List Char}
    (left : first.Reaches one second) (right : second.Reaches two third) :
    first.Reaches (one ++ two) third :=
  ⟨by rw [left.1, right.1, List.append_assoc],
   by rw [right.2, left.2, Position.advance_append]⟩

theorem Reaches.length_le {cursor later : Cursor} {text : List Char}
    (reach : cursor.Reaches text later) : later.rest.length ≤ cursor.rest.length := by
  rw [reach.1, List.length_append]; omega

/-- Reading one character is a step of one character. -/
theorem reaches_cons (position : Position) (c : Char) (rest : List Char) :
    (⟨position, c :: rest⟩ : Cursor).Reaches [c] ⟨position.step c, rest⟩ := ⟨rfl, rfl⟩

theorem reaches_skipUntil (cursor : Cursor) (stop : Char → Bool) :
    cursor.Reaches (cursor.rest.takeWhile fun c => !stop c) (cursor.skipUntil stop) :=
  ⟨(List.takeWhile_append_dropWhile ..).symm, rfl⟩

end Cursor

end VhdlOrder
