import VhdlOrder.Design.Interface

/-! # Declarations of one statement

Subtypes, objects, aliases, attributes and components. The words that follow each of them are read up
to the semicolon, and only the names in them are kept.
-/

namespace VhdlOrder.SimpleDeclaration

/-- A subtype declaration after its first word. -/
def parseSubtype : Parser Declaration := do
  let name ← Parser.identifier
  Parser.keyword .is
  return .withReferences name .subtype (References.collect (← Parser.statement))

/-- The kind of an object by the word that begins its declaration; a constant without a value is a
deferred constant. -/
def objectKind (word : Keyword) (hasValue : Bool) : DeclarationKind :=
  match word with
  | .constant => if hasValue then .constant else .deferredConstant
  | .signal => .signal
  | .variable => .variableObject
  | _ => .file

/-- The declarations of an object statement that begins at `position` with the word `word` and goes on
with `tokens` up to its semicolon. -/
def objects (position : Position) (word : Keyword) (tokens : List PlacedToken) :
    Except SyntaxFault (List Declaration) :=
  match Interface.behind? (.delimiter .colon) tokens with
  | none => .error (.expecting position .objectColon (some (.delimiter .semicolon)))
  | some rest =>
      let kind := objectKind word (rest.any fun token => token.value.isDelimiter .variableAssign)
      let references := References.collect rest
      match Interface.identifiers (Interface.before (.delimiter .colon) tokens) with
      | [] => .error (.expecting position .identifier (some (.delimiter .colon)))
      | names => .ok (names.map fun name => .withReferences name kind references)

/-- The declaration of constants, signals, variables or files after the word `word` at `position`. -/
def parseObjects (position : Position) (word : Keyword) : Parser (List Declaration) := do
  let tokens ← Parser.statement
  Parser.ofExcept (objects position word tokens)

/-- The declaration of shared variables after the word `shared` at `position`. -/
def parseShared (position : Position) : Parser (List Declaration) := do
  Parser.keyword .variable
  parseObjects position .variable

/-- An alias declaration after its first word. -/
def parseAlias : Parser Declaration := do
  let token ← Parser.next .aliasDesignator
  let name ← Parser.ofExcept (Interface.designator token)
  return .withReferences name .alias (References.collect (← Parser.statement))

/-- An attribute declaration, or an attribute specification, which declares nothing but refers to the
attribute and to the names in its value. -/
def parseAttribute : Parser (List Declaration × List Reference) := do
  let name ← Parser.identifier
  if ← Parser.acceptDelimiter .colon then
    let typeMark ← Parser.statement
    return ([.withReferences name .attributeName (References.collect typeMark)], [])
  else
    Parser.keyword .of
    let specification ← Parser.statement
    let value := (Interface.behind? (.keyword .is) specification).getD []
    return ([], ⟨.ofIdentifier name.value, name.position⟩ :: References.collect value)

/-- The generics and ports of a component through its `end`. -/
def componentInterface : Parser (List Declaration) := Parser.fix fun further => do
  if ← Parser.acceptKeyword .end then return []
  else
    let isGeneric ← Parser.acceptKeyword .generic
    let isPort ← if isGeneric then pure false else Parser.acceptKeyword .port
    if isGeneric || isPort then
      let items ← Interface.parse
      Parser.delimiter .semicolon
      return items ++ (← further)
    else Parser.unexpected (← Parser.next .componentEnd) .componentItem

/-- A component declaration after its first word. -/
def parseComponent : Parser Declaration := do
  let name ← Parser.identifier
  Parser.acceptKeywords [.is]
  let locals ← componentInterface
  Parser.keyword .component
  Parser.ending [] name.value
  let references := Declaration.outside locals (Declaration.allReferences locals)
  return { Declaration.withReferences name .component references with locals := locals }

end VhdlOrder.SimpleDeclaration
