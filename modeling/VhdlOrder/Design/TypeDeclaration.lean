import VhdlOrder.Design.Interface
import VhdlOrder.Design.Region

/-! # Type declarations

A type declaration introduces the type and, after it, its enumeration literals or physical units. The
elements of a record and the inside of a protected type are no declarations of their own; a protected
type only mentions the names in it.
-/

namespace VhdlOrder.TypeDeclaration

/-- The literals of an enumeration type after the opening parenthesis. Character literals declare no
name. -/
def literals : Parser (List Declaration) := Parser.fix fun further => do
  let token ← Parser.next (.delimiter .rightParen)
  match token.value with
  | .delimiter .rightParen => return []
  | .delimiter .comma | .character _ => further
  | .identifier name =>
      let more ← further
      return .simple ⟨token.position, name⟩ .enumerationLiteral :: more
  | _ => Parser.unexpected token .enumerationLiteral

/-- The references in the element declarations of a record type through its `end`. -/
def recordReferences : Parser (List Reference) := Parser.fix fun further => do
  if ← Parser.acceptKeyword .end then return []
  else
    let tokens ← Parser.statement
    let indication := tokens.dropWhile fun token => !token.value.isDelimiter .colon
    return References.collect indication ++ (← further)

/-- The units of a physical type after the first one, through the `end`. -/
def secondaryUnits : Parser (List Declaration) := Parser.fix fun further => do
  if ← Parser.acceptKeyword .end then return []
  else
    let name ← Parser.identifier
    let _ ← Parser.statement
    return .simple name .physicalUnit :: (← further)

/-- The units of the physical type `name` after the word `units`. -/
def units (name : Identifier) : Parser (List Declaration) := do
  let first ← Parser.identifier
  Parser.delimiter .semicolon
  let more ← secondaryUnits
  Parser.keyword .units
  Parser.ending [] name
  return .simple first .physicalUnit :: more

/-- Whether a token is a real literal. -/
def isReal : Token → Bool
  | .decimal text | .based text => text.toList.contains '.'
  | _ => false

/-- The class of a type whose definition is neither an enumeration, a record nor a protected type. A
range is floating only if a real literal is written in it. -/
def classOf (definition : List PlacedToken) (hasUnits : Bool) : TypeClass :=
  match definition.head?.map Located.value with
  | some (.keyword .array) => .array
  | some (.keyword .access) => .access
  | some (.keyword .file) => .file
  | _ =>
      if hasUnits then .physical
      else if definition.any fun token => isReal token.value then .floating
      else .integer

/-- The declaration of a type. -/
def typeOf (name : Located Identifier) (typeClass : TypeClass) (references : List Reference)
    (mentions : List Identifier) : Declaration :=
  ⟨name.value, .type, name.position, some typeClass, references, mentions, []⟩

/-- An enumeration type after its opening parenthesis. -/
def enumeration (name : Located Identifier) : Parser (List Declaration) := do
  let items ← literals
  Parser.delimiter .semicolon
  return typeOf name .enumeration [] [] :: items

/-- A record type after the word `record`. -/
def record (name : Located Identifier) : Parser (List Declaration) := do
  let references ← recordReferences
  Parser.keyword .record
  Parser.ending [] name.value
  return [typeOf name .record references []]

/-- A protected type or its body after the word `protected`. -/
def protectedRegion (name : Located Identifier) : Parser (List Declaration) := do
  let isBody ← Parser.acceptKeyword .body
  let inside ← Region.skip (some .protected)
  if isBody then Parser.acceptKeywords [.body] else pure ()
  Parser.ending [] name.value
  return [typeOf name .protectedType (References.expanded inside) (References.mentions inside)]

/-- A numeric, physical, array, access or file type. -/
def otherDefinition (name : Located Identifier) : Parser (List Declaration) := do
  let (definition, stop) ← Parser.takeUntil fun token =>
    token.isDelimiter .semicolon || token.isKeyword .units
  let hasUnits := stop.value.isKeyword .units
  let items ← if hasUnits then units name.value else pure []
  return typeOf name (classOf definition hasUnits) (References.collect definition) [] :: items

/-- A type declaration after its first word. -/
def parse : Parser (List Declaration) := do
  let name ← Parser.identifier
  if ← Parser.acceptDelimiter .semicolon then return [typeOf name .incomplete [] []]
  else
    Parser.keyword .is
    if ← Parser.acceptDelimiter .leftParen then enumeration name
    else if ← Parser.acceptKeyword .record then record name
    else if ← Parser.acceptKeyword .protected then protectedRegion name
    else otherDefinition name

end VhdlOrder.TypeDeclaration
