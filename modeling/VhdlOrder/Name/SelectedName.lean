import VhdlOrder.Name.IdentifierText
import VhdlOrder.Text.Position

/-! # Selected names

A selected name is one identifier or several joined by points, such as `work.pkg.item`. A reference
is a selected name used at a place of a source.
-/

namespace VhdlOrder

/-- One or more identifiers joined by points. -/
structure SelectedName where
  first : Identifier
  suffix : List Identifier
deriving DecidableEq, Inhabited

namespace SelectedName

/-- The name that is one identifier. -/
def ofIdentifier (name : Identifier) : SelectedName := ⟨name, []⟩

/-- The identifiers of the name in order. -/
def parts (name : SelectedName) : List Identifier := name.first :: name.suffix

/-- The last identifier of the name. -/
def last (name : SelectedName) : Identifier := name.suffix.getLast?.getD name.first

/-- Whether the name has a prefix, as `pkg.item` has. -/
def isExpanded (name : SelectedName) : Bool := !name.suffix.isEmpty

/-- Whether two lists of identifiers name the same things in the same order. -/
def sameParts : List Identifier → List Identifier → Bool
  | [], [] => true
  | a :: first, b :: second => a.same b && sameParts first second
  | _, _ => false

/-- Whether two names are the same up to the case of basic identifiers. -/
def same (a b : SelectedName) : Bool := sameParts a.parts b.parts

/-- The name as it is written. -/
def render (name : SelectedName) : String := ".".intercalate (name.parts.map Identifier.render)

/-- The pieces of a text between its points. -/
def pieces : List Char → List Char × List (List Char)
  | [] => ([], [])
  | c :: rest =>
      let (piece, more) := pieces rest
      if c = '.' then ([], piece :: more) else (c :: piece, more)

/-- The identifiers that the texts are. -/
def readAll : List (List Char) → Except NameFault (List Identifier)
  | [] => .ok []
  | text :: rest =>
      match Identifier.readList text with
      | .error fault => .error fault
      | .ok name =>
          match readAll rest with
          | .error fault => .error fault
          | .ok names => .ok (name :: names)

/-- The selected name that `text` is; every piece between points must be an identifier. -/
def readList (text : List Char) : Except NameFault SelectedName :=
  let (piece, more) := pieces text
  match Identifier.readList piece with
  | .error fault => .error fault
  | .ok first =>
      match readAll more with
      | .error fault => .error fault
      | .ok suffix => .ok ⟨first, suffix⟩

/-- The selected name that `text` is. -/
def read (text : String) : Except NameFault SelectedName := readList text.toList

end SelectedName

/-- A name used at a place of a source. -/
structure Reference where
  name : SelectedName
  position : Position
deriving DecidableEq, Inhabited

/-- Whether two references are the same name at the same place. -/
def Reference.same (a b : Reference) : Bool := a.name.same b.name && a.position == b.position

end VhdlOrder
