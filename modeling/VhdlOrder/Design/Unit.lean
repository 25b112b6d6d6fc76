import VhdlOrder.Design.DeclarativePart

/-! # Design units

A design unit is a package, an entity or a context declaration, a secondary unit that completes one of
them, or a configuration. All units have a name, a place, a context clause and references to names
outside; the rest depends on the kind. Packages and package bodies are read declaration by declaration.
Of the other units only the interface is, and of the region behind it the references to names with a
prefix.
-/

namespace VhdlOrder

/-- The kinds of design units. -/
inductive UnitKind where
  | package | packageBody | entity | architecture | configuration | context
deriving DecidableEq

/-- The kind in words. -/
def UnitKind.render : UnitKind → String
  | .package => "package"
  | .packageBody => "package body"
  | .entity => "entity"
  | .architecture => "architecture"
  | .configuration => "configuration"
  | .context => "context"

/-- What a unit of each kind holds besides what all units hold. A package that is an instance has a
template, the package that it is an instance of. -/
inductive UnitContents where
  | package (generics declarations : List Declaration) (template : Option Reference)
  | packageBody (declarations : List Declaration)
  | entity (generics ports : List Declaration)
  | architecture (entity : Identifier)
  | configuration (entity : Identifier)
  | context (clause : ContextClause)

/-- A design unit. The context clause of a package or package body also has the use clauses of its
declarative part. -/
structure DesignUnit where
  name : Identifier
  position : Position
  context : ContextClause
  references : List Reference
  contents : UnitContents

namespace DesignUnit

def kind (unit : DesignUnit) : UnitKind :=
  match unit.contents with
  | .package .. => .package
  | .packageBody .. => .packageBody
  | .entity .. => .entity
  | .architecture .. => .architecture
  | .configuration .. => .configuration
  | .context .. => .context

/-- Whether the unit has a name of its own in its library: bodies and architectures are found by the
name of the unit that they complete. -/
def isPrimary (unit : DesignUnit) : Bool :=
  unit.kind != .packageBody && unit.kind != .architecture

/-- The name of the unit that this unit completes or configures. -/
def owner? (unit : DesignUnit) : Option Identifier :=
  match unit.contents with
  | .packageBody _ => some unit.name
  | .architecture entity | .configuration entity => some entity
  | _ => none

/-- The name of the unit in messages. -/
def display (unit : DesignUnit) : String :=
  match unit.contents with
  | .architecture entity => entity.render ++ "(" ++ unit.name.render ++ ")"
  | .packageBody _ => unit.name.render ++ " (body)"
  | _ => unit.name.render

/-- The generics that the unit declares in its header. -/
def generics (unit : DesignUnit) : List Declaration :=
  match unit.contents with
  | .package generics _ _ | .entity generics _ => generics
  | _ => []

/-- The declarations of a package or package body. -/
def declarations (unit : DesignUnit) : List Declaration :=
  match unit.contents with
  | .package _ declarations _ | .packageBody declarations => declarations
  | _ => []

/-- The package that a package is an instance of. -/
def template? (unit : DesignUnit) : Option Reference :=
  match unit.contents with
  | .package _ _ template => template
  | _ => none

/-- The context items that a context declaration provides. -/
def clause? (unit : DesignUnit) : Option ContextClause :=
  match unit.contents with
  | .context clause => some clause
  | _ => none

/-- The constants that a package declares without a value. -/
def deferredConstants (unit : DesignUnit) : List Declaration :=
  match unit.contents with
  | .package _ declarations _ => declarations.filter fun item => item.kind == .deferredConstant
  | _ => []

/-- The generics of a package after the word `generic`, if that word follows. A generic map behind them
is skipped. -/
def packageGenerics : Parser (List Declaration) := do
  if ← Parser.acceptKeyword .generic then
    let items ← Interface.parse
    if ← Parser.acceptKeyword .generic then
      Parser.keyword .map
      let _ ← Parser.statement
      return items
    else
      Parser.delimiter .semicolon
      return items
  else return []

/-- A package after its first word, which stands at `position`. -/
def parsePackage (position : Position) (context : ContextClause) : Parser DesignUnit := do
  let name ← Parser.identifier
  Parser.keyword .is
  if ← Parser.acceptKeyword .new then
    let (template, _) ← Parser.selectedName
    let references := References.collect (← Parser.statement)
    return ⟨name.value, position, context, references, .package [] [] (some template)⟩
  else
    let generics ← packageGenerics
    let part ← DeclarativePart.parse
    Parser.keyword .end
    Parser.ending [.package] name.value
    return ⟨name.value, position, context.addUses part.uses, part.references,
      .package generics part.declarations none⟩

/-- A package body after the words `package body`, which begin at `position`. -/
def parsePackageBody (position : Position) (context : ContextClause) : Parser DesignUnit := do
  let name ← Parser.identifier
  Parser.keyword .is
  let part ← DeclarativePart.parse
  Parser.keyword .end
  Parser.ending [.package, .body] name.value
  return ⟨name.value, position, context.addUses part.uses, part.references,
    .packageBody part.declarations⟩

/-- An interface list after the word `word`, if that word follows, with the semicolon behind it. -/
def interfaceAfter (word : Keyword) : Parser (List Declaration) := do
  if ← Parser.acceptKeyword word then
    let items ← Interface.parse
    Parser.delimiter .semicolon
    return items
  else return []

/-- The references to names with a prefix in the rest of a unit, which ends with its `end`. -/
def regionReferences : Parser (List Reference) := return References.expanded (← Region.skip none)

/-- An entity after its first word. -/
def parseEntity (position : Position) (context : ContextClause) : Parser DesignUnit := do
  let name ← Parser.identifier
  Parser.keyword .is
  let generics ← interfaceAfter .generic
  let ports ← interfaceAfter .port
  let interface := Declaration.allReferences (generics ++ ports)
  let inside ← regionReferences
  Parser.ending [.entity] name.value
  let references := (interface.filter fun reference => reference.name.isExpanded) ++ inside
  return ⟨name.value, position, context, references, .entity generics ports⟩

/-- A unit that begins with its name and the name of an entity, after its first word, which is `word`
and is repeated after the `end`. -/
def parseOfEntity (word : Keyword) (contents : Identifier → UnitContents) (position : Position)
    (context : ContextClause) : Parser DesignUnit := do
  let name ← Parser.identifier
  Parser.keyword .of
  let entity ← Parser.identifier
  Parser.keyword .is
  let references ← regionReferences
  Parser.ending [word] name.value
  return ⟨name.value, position, context, references, contents entity.value⟩

/-- A context declaration after the words `context name is`. -/
def parseContext (name : Identifier) (position : Position) (context : ContextClause) :
    Parser DesignUnit := do
  let clause ← ContextClause.parseItems
  Parser.ending [.context] name
  return ⟨name, position, context, [], .context clause⟩

end DesignUnit

end VhdlOrder
