import VhdlOrder.CommandLine.Setup
import VhdlOrder.Elaboration.PragmaReport

/-! # Listing and describing units

The list of all units as a table or as JSON, and the description of a single unit.
-/

namespace VhdlOrder.Listing

/-- A row of the list. -/
structure Row where
  step : Step
  line : Nat
  dependencies : List String
deriving DecidableEq

/-- The row of a unit. -/
def row (elaboration : Elaboration) (entry : Entry) : Row :=
  let library := elaboration.library
  { step := ⟨entry.unit.name.render, entry.unit.kind, library.fileOf entry.index⟩
    line := entry.unit.position.line
    dependencies := (elaboration.dependenciesOf entry.index).map library.display }

/-- The rows of all units. -/
def rows (elaboration : Elaboration) : List Row := elaboration.library.entries.map (row elaboration)

/-- The text with blanks behind it, so that it has at least `width` characters. -/
def padded (width : Nat) (text : String) : String :=
  text ++ String.ofList (List.replicate (width - text.length) ' ')

/-- The row as a line of the table. -/
def Row.render (row : Row) : String :=
  padded 16 row.step.kind.render ++ padded 24 row.step.name ++ row.step.file ++ ":"
    ++ toString row.line

def Row.json (row : Row) : JsonValue :=
  .object [("name", .string row.step.name), ("kind", .string row.step.kind.slug),
    ("file", .string row.step.file), ("line", .number row.line),
    ("dependencies", .array (row.dependencies.map .string))]

/-- A title and the lines under it, with an empty line in front; nothing if there are no lines. -/
def block (colored : Bool) (title : String) (lines : List String) : List String :=
  if lines.isEmpty then []
  else "" :: (Paint.bold.apply colored title ++ ":") :: lines.map fun line => "    " ++ line

/-- The items of a context clause, one on each line. -/
def contextLines (clause : ContextClause) : List String :=
  clause.libraries.map (fun name => "library " ++ name.value.render)
    ++ clause.uses.map (fun use => "use " ++ use.render)
    ++ clause.contexts.map (fun context => "context " ++ context.name.render)

/-- A declaration with the class of its type, if it declares one. -/
def declarationLine (declaration : Declaration) : String :=
  match declaration.typeClass with
  | some typeClass => declaration.render ++ " (" ++ typeClass.render ++ ")"
  | none => declaration.render

/-- The ports of an entity. -/
def ports (unit : DesignUnit) : List Declaration :=
  match unit.contents with
  | .entity _ ports => ports
  | _ => []

/-- A dependency with the reason for it. -/
def dependencyLine (library : Library) (dependency : Dependency) : String :=
  library.display dependency.unit ++ " (" ++ dependency.kind.render ++ " " ++ dependency.via ++ ")"

/-- The description of a unit, line by line. -/
def describe (elaboration : Elaboration) (colored : Bool) (entry : Entry) : List String :=
  let library := elaboration.library
  let unit := entry.unit
  let title := Paint.blue.apply colored unit.kind.render ++ " " ++ unit.display
  let place := Paint.bold.apply colored "location" ++ ": " ++ library.locate entry.index
  title :: place ::
    (block colored "context" (contextLines unit.context)
      ++ block colored "generics" (unit.generics.map declarationLine)
      ++ block colored "ports" ((ports unit).map declarationLine)
      ++ block colored "declarations" (unit.declarations.map declarationLine)
      ++ block colored "dependencies"
          ((elaboration.resolution.dependencies entry.index).map (dependencyLine library))
      ++ block colored "dependents"
          ((elaboration.dependentsOf entry.index).map library.display))

end VhdlOrder.Listing
