import VhdlOrder.Design.Context
import VhdlOrder.Design.SimpleDeclaration
import VhdlOrder.Design.TypeDeclaration

/-! # Declarative parts

The declarations, use clauses and attribute specifications of a package, a package body or a
subprogram, up to the word `begin` or `end` that closes the part. Packages, package bodies and
subprogram bodies inside a part have parts of their own. An item that introduces no name is skipped to
its semicolon.
-/

namespace VhdlOrder

/-- The items of a declarative region. The references are those of items that declare nothing. -/
structure DeclarativePart where
  declarations : List Declaration
  uses : List UseClause
  references : List Reference

namespace DeclarativePart

/-- The part without items. -/
def empty : DeclarativePart := ⟨[], [], []⟩

/-- The items of two parts one after the other. -/
def append (first second : DeclarativePart) : DeclarativePart :=
  ⟨first.declarations ++ second.declarations, first.uses ++ second.uses,
   first.references ++ second.references⟩

/-- A part of declarations only. -/
def ofDeclarations (declarations : List Declaration) : DeclarativePart := ⟨declarations, [], []⟩

/-- The declaration of a subprogram with its parameters. -/
def subprogramDeclaration (name : Located Identifier) (kind : DeclarationKind)
    (parameters : List Declaration) (references : List Reference) : Declaration :=
  { Declaration.withReferences name kind (Declaration.outside parameters references) with
    locals := parameters }

/-- The declaration of a subprogram with its body: what the body declares, refers to or mentions counts
as far as it is not local. -/
def subprogramBody (name : Located Identifier) (kind : DeclarationKind)
    (parameters : List Declaration) (references : List Reference) (part : DeclarativePart)
    (statements : List PlacedToken) : Declaration :=
  let locals := parameters ++ part.declarations
  let references :=
    references ++ Declaration.allReferences part.declarations ++ part.references
      ++ part.uses.map UseClause.reference ++ References.expanded statements
  let mentions :=
    (References.mentions statements).filter fun mention => !Declaration.declares locals mention
  { Declaration.withReferences name kind (Declaration.outside locals references) with
    mentions := mentions
    locals := locals }

/-- The rest of a subprogram body after its `end`, which may repeat the first word and the designator. -/
def subprogramEnding (word : Keyword) (name : Identifier) : Parser Unit := do
  Parser.acceptKeywords [word]
  match ← Parser.peek? with
  | some (.identifier _) | some (.string _) =>
      let last ← Parser.ofExcept (Interface.designator (← Parser.next (.delimiter .semicolon)))
      if last.value.same name then Parser.delimiter .semicolon
      else throw (.endingMismatch last.position name last.value)
  | _ => Parser.delimiter .semicolon

/-- A subprogram after its first word, which is `word`: a declaration, an instance, or a body, whose
declarative part is read by `part`. -/
def subprogram (part : Parser DeclarativePart) (word : Keyword) (kind : DeclarationKind) :
    Parser Declaration := do
  let name ← Parser.ofExcept (Interface.designator (← Parser.next .subprogramDesignator))
  let (tokens, stop) ← Parser.takeUntil fun token =>
    token.isDelimiter .semicolon || token.isKeyword .is
  let (parameters, references) ← Parser.ofExcept (Interface.header tokens)
  if stop.value.isDelimiter .semicolon then
    return subprogramDeclaration name kind parameters references
  else if ← Parser.acceptKeyword .new then
    return .withReferences name kind (References.collect (← Parser.statement))
  else
    let inside ← part
    Parser.keyword .begin
    let statements ← Region.skip none
    subprogramEnding word name.value
    return subprogramBody name kind parameters references inside statements

/-- A subprogram whose first word is `pure` or `impure`, after that word. -/
def qualifiedSubprogram (part : Parser DeclarativePart) : Parser Declaration := do
  let token ← Parser.next .subprogramKind
  match token.value with
  | .keyword .function => subprogram part .function .function
  | .keyword .procedure => subprogram part .procedure .procedure
  | _ => Parser.unexpected token .subprogramKind

/-- The generics of a package after the word `generic`, if that word follows. -/
def nestedGenerics : Parser (List Declaration) := do
  if ← Parser.acceptKeyword .generic then
    let items ← Interface.parse
    Parser.delimiter .semicolon
    return items
  else return []

/-- A package inside a declarative part after its first word: an instance, or a declaration whose own
part is read by `part`. -/
def nestedPackage (part : Parser DeclarativePart) : Parser Declaration := do
  let name ← Parser.identifier
  Parser.keyword .is
  if ← Parser.acceptKeyword .new then
    return .withReferences name .package (References.collect (← Parser.statement))
  else
    let generics ← nestedGenerics
    let inside ← part
    Parser.keyword .end
    Parser.ending [.package] name.value
    let locals := generics ++ inside.declarations
    let references :=
      inside.references ++ Declaration.allReferences locals ++ inside.uses.map UseClause.reference
    return { Declaration.withReferences name .package (Declaration.outside locals references) with
      locals := locals }

/-- A package body inside a declarative part after the words `package body`. It declares nothing
outside; its use clauses and its references to outside names are left. -/
def nestedBody (part : Parser DeclarativePart) : Parser DeclarativePart := do
  let name ← Parser.identifier
  Parser.keyword .is
  let inside ← part
  Parser.keyword .end
  Parser.ending [.package, .body] name.value
  let references := Declaration.allReferences inside.declarations ++ inside.references
  return ⟨[], inside.uses, Declaration.outside inside.declarations references⟩

/-- The item that begins with the reserved word `word` at `position`, after that word. -/
def item (part : Parser DeclarativePart) (position : Position) (word : Keyword) :
    Parser DeclarativePart := do
  match word with
  | .type => return ofDeclarations (← TypeDeclaration.parse)
  | .subtype => return ofDeclarations [← SimpleDeclaration.parseSubtype]
  | .constant | .signal | .variable | .file =>
      return ofDeclarations (← SimpleDeclaration.parseObjects position word)
  | .shared => return ofDeclarations (← SimpleDeclaration.parseShared position)
  | .alias => return ofDeclarations [← SimpleDeclaration.parseAlias]
  | .attribute =>
      let (declarations, references) ← SimpleDeclaration.parseAttribute
      return ⟨declarations, [], references⟩
  | .component => return ofDeclarations [← SimpleDeclaration.parseComponent]
  | .function => return ofDeclarations [← subprogram part .function .function]
  | .procedure => return ofDeclarations [← subprogram part .procedure .procedure]
  | .pure | .impure => return ofDeclarations [← qualifiedSubprogram part]
  | .use => return ⟨[], ← ContextClause.parseUses, []⟩
  | .package =>
      if ← Parser.acceptKeyword .body then nestedBody part
      else return ofDeclarations [← nestedPackage part]
  | _ =>
      let _ ← Parser.statement
      return empty

/-- Takes one item, which begins with `token`; a lone semicolon is an item without content. -/
def anyItem (part : Parser DeclarativePart) (token : PlacedToken) : Parser DeclarativePart := do
  match token.value with
  | .keyword word =>
      let _ ← Parser.next (.keyword .end)
      item part token.position word
  | _ =>
      let _ ← Parser.statement
      return empty

/-- The next token with its place, which is not taken; there must be one besides the end of the file. -/
def head : Parser PlacedToken := fun tokens =>
  match tokens with
  | [] => .error (.unexpectedEnd .start (.keyword .end)) []
  | token :: _ =>
      if token.value = .endOfFile then .error (.unexpectedEnd token.position (.keyword .end)) tokens
      else .ok token tokens

/-- The items up to the word `begin` or `end`, which is not taken. -/
def parse : Parser DeclarativePart := Parser.fix fun part => do
  let token ← head
  if token.value = .keyword .end || token.value = .keyword .begin then return empty
  else
    let first ← anyItem part token
    return first.append (← part)

end DeclarativePart

end VhdlOrder
