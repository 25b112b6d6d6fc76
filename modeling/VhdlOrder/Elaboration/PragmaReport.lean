import VhdlOrder.Elaboration.Plan

/-! # Pragma reports

Each pragma with a target asks for a plan. Its report has the steps of the plan and the diagnostics at
their units, or the reason why there is no plan.
-/

namespace VhdlOrder

/-- A unit in an order: its name, its kind and its file. -/
structure Step where
  name : String
  kind : UnitKind
  file : String
deriving DecidableEq

/-- The kind of a unit as one word. -/
def UnitKind.slug : UnitKind → String
  | .packageBody => "package-body"
  | kind => kind.render

def Step.json (step : Step) : JsonValue :=
  .object [("name", .string step.name), ("kind", .string step.kind.slug),
    ("file", .string step.file)]

/-- What became of a pragma. -/
structure PragmaReport where
  target : SelectedName
  file : String
  position : Position
  failure : Option Diagnostic
  steps : List Step
  diagnostics : List Diagnostic
deriving DecidableEq

namespace PragmaReport

/-- Whether there is no plan, or an error at a unit of it. -/
def hasErrors (report : PragmaReport) : Bool :=
  report.failure.isSome || report.diagnostics.any Diagnostic.isError

def json (report : PragmaReport) : JsonValue :=
  .object ([("target", .string report.target.render), ("file", .string report.file),
      ("position", report.position.json)]
    ++ JsonValue.optional "failure" (report.failure.map Diagnostic.json)
    ++ [("steps", .array (report.steps.map Step.json)),
      ("diagnostics", .array (report.diagnostics.map Diagnostic.json))])

end PragmaReport

namespace Elaboration

/-- A unit as a step of an order. -/
def step? (library : Library) (index : Nat) : Option Step :=
  (library.unit? index).map fun unit => ⟨unit.name.render, unit.kind, library.fileOf index⟩

/-- The steps of an order. -/
def steps (elaboration : Elaboration) (order : List Nat) : List Step :=
  order.filterMap (step? elaboration.library)

/-- The report on a pragma, which is none if the pragma has no target. -/
def runPragma (elaboration : Elaboration) (item : LibraryPragma) : Option PragmaReport :=
  item.pragma.target.map fun target =>
    let file := elaboration.library.path item.source
    let position := item.pragma.position
    match elaboration.planFor target with
    | .ok order =>
        ⟨target, file, position, none, elaboration.steps order, elaboration.diagnosticsOf order⟩
    | .error fault => ⟨target, file, position, some (.place .error (.order fault) file position), [], []⟩

/-- The reports on all pragmas in order. -/
def runPragmas (elaboration : Elaboration) : List PragmaReport :=
  elaboration.library.pragmas.filterMap elaboration.runPragma

end Elaboration

end VhdlOrder
