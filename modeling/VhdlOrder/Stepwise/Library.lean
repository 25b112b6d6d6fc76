import VhdlOrder.Proofs.Library.Tables
import VhdlOrder.Stepwise.Reading

/-! # A library by numbers

A unit is known by its number and holds the number of its file, and the tables of a library answer numbers of units.
Whatever is looked at is fetched by its number, a unit from the list of the units and a path from that of the files.
-/

namespace VhdlOrder

open Stepwise

namespace Library

/-- The path of the file that a unit stands in. -/
def fileOf? (library : Library) (number : Nat) : Option String := do
  library.files[(← library.units[number]?).source]?

/-- The name of a unit in messages. -/
def display? (library : Library) (number : Nat) : Option String := do return (← library.unit? number).display

/-- Where a unit is written. -/
def locate? (library : Library) (number : Nat) : Option String := do
  let unit ← library.unit? number
  return (← library.fileOf? number) ++ unit.position.render

/-- Reports a problem at a place of a source. -/
def report? (library : Library) (severity : Severity) (problem : Problem) (source : Nat) (position : Position) :
    Option Library := do
  return library.report (.place severity problem (← library.files[source]?) position)

/-- Adds a pragma, or reports why it is none. -/
def addPragma? (library : Library) (source : Nat) (item : Located (Except PragmaFault Pragma)) : Option Library :=
  match item.value with
  | .ok pragma =>
      if pragma.target.isSome then some { library with pragmas := library.pragmas ++ [⟨pragma, source⟩] }
      else library.report? .warning (.unknownPragma pragma.directive) source pragma.position
  | .error fault => library.report? .error (.pragma fault) source item.position

/-- Reports the lexical fault of a source. -/
def addLexicalFault? (library : Library) (source : Nat) (fault : Option (Located LexicalFault)) : Option Library :=
  match fault with
  | some fault => library.report? .error (.lexical fault.value) source fault.position
  | none => some library

/-- Reports the fault of the grammar of a source. -/
def addSyntaxFault? (library : Library) (source : Nat) (cutShort : Bool) (fault : Option SyntaxFault) :
    Option Library :=
  match fault with
  | some fault =>
      if cutShort && fault.isUnexpectedEnd then some library
      else library.report? .error (.grammar fault) source fault.position
  | none => some library

/-- The library after a source is read and before its units are added. -/
def opened? (library : Library) (file text directive : String) : Option Library := do
  let source := library.files.length
  let (tokens, lexicalFault) := Lexer.readUntilFault text
  let library ← (library.addFile file).addLexicalFault? source lexicalFault
  let library ← (← pragmas? tokens directive).foldlM (fun library => library.addPragma? source) library
  library.addSyntaxFault? source lexicalFault.isSome (DesignFile.units tokens).2

end Library

namespace Catalog

/-- A unit together with its number. -/
def fetch (catalog : Catalog) (number : Nat) : Option Entry := do return ⟨number, ← catalog.library.unit? number⟩

/-- The primary unit of a name, if there is one. -/
def primary? (catalog : Catalog) (name : Identifier) : Option (Option Entry) :=
  (catalog.tables.primary? name).mapM catalog.fetch

/-- The body of the package of a name, if there is one. -/
def body? (catalog : Catalog) (name : Identifier) : Option (Option Entry) :=
  (catalog.tables.body? name).mapM catalog.fetch

/-- The number of the architecture of an entity with the name `name`, if there is one. -/
def architecture? (catalog : Catalog) (entity name : Identifier) : Option (Option Nat) :=
  (catalog.tables.architecturesOf entity).findM? fun number => do
    return (← catalog.library.unit? number).name.same name

/-! ## Sources -/

/-- The number of the unit that has the name of `unit` already, if there is one. -/
def holderOf? (catalog : Catalog) (unit : DesignUnit) : Option (Option Nat) :=
  match unit.contents with
  | .packageBody _ => some (catalog.tables.body? unit.name)
  | .architecture entity => catalog.architecture? entity unit.name
  | _ => some (catalog.tables.primary? unit.name)

/-- Adds a unit of the source `source` and enters it, unless its name is taken. -/
def addUnit? (catalog : Catalog) (source : Nat) (unit : DesignUnit) : Option Catalog := do
  match ← catalog.holderOf? unit with
  | some first =>
      let problem := .duplicateUnit unit.kind (Library.duplicateName unit) (← catalog.library.locate? first)
      return { catalog with library := ← catalog.library.report? .error problem source unit.position }
  | none =>
      return { library := { catalog.library with units := catalog.library.units ++ [⟨unit, source⟩] }
               tables := catalog.tables.enter catalog.library.size unit }

/-- Adds the units and pragmas of a source. -/
def addSource? (catalog : Catalog) (file text directive : String) : Option Catalog := do
  let source := catalog.library.files.length
  let library ← catalog.library.opened? file text directive
  (Library.parsed text).foldlM (fun catalog => catalog.addUnit? source) { catalog with library := library }

/-! ## Links -/

/-- What is wrong with a unit that completes or configures another one. -/
def linkProblem? (catalog : Catalog) (unit : DesignUnit) : Option (Option Problem) :=
  match unit.contents with
  | .packageBody _ => do
      if (← catalog.primary? unit.name).any Entry.isPackage then return none
      else return some (.bodyWithoutPackage unit.name)
  | .architecture entity | .configuration entity => do
      if (← catalog.primary? entity).any Entry.isEntity then return none
      else return some (.missingEntity unit.kind unit.name entity)
  | _ => some none

/-- The problem of a unit, at its place. -/
def linkDiagnostic? (catalog : Catalog) (number : Nat) : Option (Option Diagnostic) := do
  let unit ← catalog.library.unit? number
  match ← catalog.linkProblem? unit with
  | none => return none
  | some problem => return some (.place .error problem (← catalog.library.fileOf? number) unit.position)

/-- Reports the units that complete or configure a missing one. -/
def link? (catalog : Catalog) : Option Catalog := do
  let found ← filterMap? catalog.linkDiagnostic? (List.range catalog.library.size)
  return { catalog with
    library := { catalog.library with diagnostics := catalog.library.diagnostics ++ found } }

/-- The catalog after a step. -/
def step? (catalog : Catalog) : Library.Step → Option Catalog
  | .add file text directive => catalog.addSource? file text directive
  | .link => catalog.link?

/-- The catalog after some steps from the empty one on. -/
def run? (name : Identifier) (steps : List Library.Step) : Option Catalog :=
  steps.foldlM step? ⟨.empty name, .empty⟩

/-! ## Targets -/

/-- The number of the unit that the identifiers name, if there is one. -/
def findParts? (catalog : Catalog) : List Identifier → Option (Option Nat)
  | [name] => some (catalog.tables.primary? name)
  | [owner, name] =>
      match if name.same Library.bodySuffix then catalog.tables.body? owner else none with
      | some body => some (some body)
      | none => catalog.architecture? owner name
  | _ => some none

/-- The number of the unit that a selected name means, if there is one. The name of the library may stand in front
of it. -/
def find? (catalog : Catalog) (name : SelectedName) : Option (Option Nat) := do
  let first ← name.parts[0]?
  if catalog.library.isWorking first && 1 < name.parts.length then
    catalog.findParts? (← slice? name.parts 1 name.parts.length)
  else catalog.findParts? name.parts

end Catalog

end VhdlOrder
