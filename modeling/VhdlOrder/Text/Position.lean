/-! # Positions in a source text

A position is a line number and a column number. The position before the first character is line 1,
column 0, and each character read moves the column on by one; a line feed then starts the next line
at column 0. The position of a token is therefore the position just after its first character.
-/

namespace VhdlOrder

/-- A line and a column; columns count characters. -/
structure Position where
  line : Nat
  column : Nat
deriving DecidableEq, Inhabited

namespace Position

/-- The position before any character is read. -/
def start : Position := ⟨1, 0⟩

/-- Moves one column on. -/
def nextColumn (position : Position) : Position := ⟨position.line, position.column + 1⟩

/-- Moves to the beginning of the next line. -/
def nextLine (position : Position) : Position := ⟨position.line + 1, 0⟩

/-- Moves over the character `c`. -/
def step (position : Position) (c : Char) : Position :=
  if c = '\n' then position.nextColumn.nextLine else position.nextColumn

/-- Moves over every character of `text` in turn. -/
def advance (position : Position) (text : List Char) : Position := text.foldl step position

@[simp] theorem advance_nil (position : Position) : position.advance [] = position := rfl

@[simp] theorem advance_cons (position : Position) (c : Char) (text : List Char) :
    position.advance (c :: text) = (position.step c).advance text := rfl

theorem advance_append (position : Position) (first second : List Char) :
    position.advance (first ++ second) = (position.advance first).advance second := by
  simp [advance]

/-- Positions are ordered by line, and within a line by column. -/
def compare (a b : Position) : Ordering := (Ord.compare a.line b.line).then (Ord.compare a.column b.column)

/-- The written form `:line:column`. -/
def render (position : Position) : String :=
  ":" ++ toString position.line ++ ":" ++ toString position.column

end Position

/-- A value and the position in the source where it is written. -/
structure Located (α : Type) where
  position : Position
  value : α
deriving DecidableEq

end VhdlOrder
