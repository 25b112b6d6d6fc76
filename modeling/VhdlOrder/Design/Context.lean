import VhdlOrder.Design.Parser

/-! # Context clauses

What a design unit writes in front of itself: the libraries it names, the names it uses and the
context declarations it refers to.
-/

namespace VhdlOrder

/-- A name imported by a `use` clause, without the closing `.all`. -/
structure UseClause where
  name : SelectedName
  all : Bool
  position : Position
deriving DecidableEq

/-- The imported name as it is written. -/
def UseClause.render (clause : UseClause) : String :=
  if clause.all then clause.name.render ++ ".all" else clause.name.render

/-- The name as a reference to what it denotes. -/
def UseClause.reference (clause : UseClause) : Reference := ⟨clause.name, clause.position⟩

/-- Library clauses, use clauses and context references in the order in which they are written, each
kind on its own. -/
structure ContextClause where
  libraries : List (Located Identifier)
  uses : List UseClause
  contexts : List Reference
deriving DecidableEq

namespace ContextClause

/-- The clause without items. -/
def empty : ContextClause := ⟨[], [], []⟩

def isEmpty (clause : ContextClause) : Bool :=
  clause.libraries.isEmpty && clause.uses.isEmpty && clause.contexts.isEmpty

/-- The items of two clauses one after the other. -/
def append (first second : ContextClause) : ContextClause :=
  ⟨first.libraries ++ second.libraries, first.uses ++ second.uses, first.contexts ++ second.contexts⟩

/-- The clause with further use clauses at the end. -/
def addUses (clause : ContextClause) (uses : List UseClause) : ContextClause :=
  { clause with uses := clause.uses ++ uses }

/-- The names of a library clause after its first word. -/
def parseLibraries : Parser (List (Located Identifier)) := Parser.commaList Parser.identifier

/-- One imported name. -/
def parseUse : Parser UseClause := do
  let (reference, all) ← Parser.selectedName
  return ⟨reference.name, all, reference.position⟩

/-- The names of a use clause after its first word. -/
def parseUses : Parser (List UseClause) := Parser.commaList parseUse

/-- One name of a context reference. -/
def parseContext : Parser Reference := return (← Parser.selectedName).1

/-- The names of a context reference, the first of which begins with `first`. -/
def parseContextsAfter (first : Located Identifier) : Parser (List Reference) := do
  let (name, _) ← Parser.selectedNameAfter first.value
  if ← Parser.acceptDelimiter .comma then
    return ⟨name, first.position⟩ :: (← Parser.commaList parseContext)
  else
    Parser.delimiter .semicolon
    return [⟨name, first.position⟩]

/-- An item that begins with `library`. -/
def parseLibraryItem : Parser ContextClause := return { empty with libraries := ← parseLibraries }

/-- An item that begins with `use`. -/
def parseUseItem : Parser ContextClause := return { empty with uses := ← parseUses }

/-- A context reference that begins with the identifier `first`. -/
def parseContextItem (first : Located Identifier) : Parser ContextClause :=
  return { empty with contexts := ← parseContextsAfter first }

/-- The items of a context declaration through its `end`. -/
def parseItems : Parser ContextClause := Parser.fix fun further => do
  let token ← Parser.next (.keyword .end)
  match token.value with
  | .keyword .end => return empty
  | .keyword .library => return (← parseLibraryItem).append (← further)
  | .keyword .use => return (← parseUseItem).append (← further)
  | .keyword .context => return (← parseContextItem (← Parser.identifier)).append (← further)
  | _ => Parser.unexpected token .contextItem

end ContextClause

end VhdlOrder
