import VhdlOrder.CommandLine.Listing

/-! # Carrying out commands

Each command reads the sources, does its work and prints the result. Problems with the sources are
printed as messages; only `check` fails because of them.
-/

namespace VhdlOrder

namespace Setup

/-- Prints the order of all units, or of those that the unit `top` needs. -/
def runOrder (setup : Setup) (path : Option String) (top : Option SelectedName) (json : Bool) :
    Run Unit := do
  let library ← setup.loadLibrary path
  Run.report setup.colored library.diagnostics
  let elaboration := Elaboration.ofLibrary library setup.settings.checks
  let result ← match top with
    | some name => pure (elaboration.plan (← findUnit elaboration name))
    | none => pure elaboration.order
  let order ← Run.ofExcept .noOrder result
  setup.inform
    ("ordered " ++ toString order.length ++ " of " ++ toString library.size ++ " unit(s)")
  if json then
    Run.line (JsonValue.array ((elaboration.steps order).map Step.json)).pretty
  else
    Run.lines (order.map fun index => library.display index ++ "\t" ++ library.fileOf index)

/-- All problems that a check finds: those of the sources, those of the names, the pragmas without a plan,
and a cycle. -/
def checkDiagnostics (elaboration : Elaboration) (reports : List PragmaReport) : List Diagnostic :=
  let cycle : List Diagnostic := match elaboration.order with
    | .ok _ => []
    | .error fault => [⟨.error, .order fault, none, none⟩]
  elaboration.library.diagnostics ++ elaboration.resolution.allDiagnostics
    ++ reports.filterMap PragmaReport.failure ++ cycle

/-- The steps of a plan, numbered from `number` on. -/
def numberedSteps (number : Nat) : List Step → List String
  | [] => []
  | step :: rest =>
      ("    " ++ toString number ++ ". " ++ step.kind.render ++ " " ++ step.name)
        :: numberedSteps (number + 1) rest

/-- A pragma report as lines. -/
def reportLines (colored : Bool) (directive : String) (report : PragmaReport) : List String :=
  (Paint.green.apply colored ("@" ++ directive) ++ " " ++ report.target.render ++ " (" ++ report.file
    ++ report.position.render ++ ")") :: numberedSteps 1 report.steps

/-- The pragma reports and the problems as JSON. -/
def checkJson (reports : List PragmaReport) (diagnostics : List Diagnostic) : JsonValue :=
  .object [("reports", .array (reports.map PragmaReport.json)),
    ("diagnostics", .array (diagnostics.map Diagnostic.json))]

/-- Runs all pragmas and prints the problems; fails if one of them is an error. -/
def runCheck (setup : Setup) (path : Option String) (json quiet : Bool) : Run Unit := do
  let library ← setup.loadLibrary path
  let elaboration := Elaboration.ofLibrary library setup.settings.checks
  let reports := elaboration.runPragmas
  setup.inform ("ran " ++ toString reports.length ++ " pragma(s)")
  let diagnostics := checkDiagnostics elaboration reports
  if json then Run.line (checkJson reports diagnostics).pretty
  else
    Run.report setup.colored diagnostics
    if !quiet then
      Run.lines (reports.flatMap (reportLines setup.colored setup.settings.directive))
  match Diagnostic.countErrors diagnostics with
  | 0 => return
  | count => throw (.errorsFound count)

/-- The lines of several trees, with an empty line between two of them. -/
def treeLines (elaboration : Elaboration) (ascii : Bool) (roots : List Nat) : List String :=
  let draw (root : Nat) : List String := (elaboration.tree root).map fun (twig, name) =>
    (if ascii then twig.renderAscii else twig.render) ++ name
  match roots with
  | [] => []
  | first :: rest => draw first ++ rest.flatMap fun root => "" :: draw root

/-- Prints the tree of the unit `root`, or those of all units that no other one depends on. -/
def runTree (setup : Setup) (path : Option String) (root : Option SelectedName) (ascii : Bool) :
    Run Unit := do
  let library ← setup.loadLibrary path
  Run.report setup.colored library.diagnostics
  let elaboration := Elaboration.ofLibrary library setup.settings.checks
  let roots ← match root with
    | some name => pure [← findUnit elaboration name]
    | none => pure elaboration.roots
  if roots.isEmpty then throw .noRootUnits
  Run.lines (treeLines elaboration ascii roots)

/-- Prints the list of units, or the description of the unit `name`. -/
def runListing (setup : Setup) (path : Option String) (name : Option SelectedName) (json : Bool) :
    Run Unit := do
  let library ← setup.loadLibrary path
  Run.report setup.colored library.diagnostics
  let elaboration := Elaboration.ofLibrary library setup.settings.checks
  match name with
  | some name =>
      match library.find? name with
      | none => throw (.unitNotFound name library.name)
      | some entry =>
          Run.lines (Listing.describe elaboration setup.colored entry)
          let diagnostics := elaboration.resolution.diagnostics entry.index
          if !diagnostics.isEmpty then
            Run.line ""
            Run.report setup.colored diagnostics
  | none =>
      let rows := Listing.rows elaboration
      if json then Run.line (JsonValue.array (rows.map Listing.Row.json)).pretty
      else Run.lines (rows.map Listing.Row.render)

/-- Prints the list of topics, or a page of the manual. -/
def runHelp (list : Bool) (topic : Option Topic) : Run Unit :=
  if list then Run.line Topic.index
  else Run.line ((topic.map Topic.page).getD Manual.program)

/-- Carries out a command. -/
def run (setup : Setup) : Command → Run Unit
  | .order path top json => setup.runOrder path top json
  | .check path json quiet => setup.runCheck path json quiet
  | .tree path root ascii => setup.runTree path root ascii
  | .listing path unit json => setup.runListing path unit json
  | .help list topic => runHelp list topic

end Setup

namespace Invocation

/-- The version of the program. -/
def versionLine : String := "vhdelab 0.3.0"

/-- Whether text is coloured; `visible` says whether colours can be seen. -/
def colored (invocation : Invocation) (visible : Bool) : Bool :=
  match invocation.color with
  | some .always => true
  | some .never => false
  | some .auto | none => visible

/-- Carries out what an invocation asks for. -/
def run (invocation : Invocation) (files : FileSystem) (colored : Bool) : Run Unit := do
  if invocation.version then Run.line versionLine
  else
    match invocation.command with
    | none => Run.line Help.program
    | some command =>
        let layers ← Setup.readLayers files invocation.config
        Setup.run ⟨files, layers, invocation.verbose, colored⟩ command

end Invocation

/-- Whether colours can be seen, as far as the user has not said it in the command line. The three
settings are those of the environment: the last one that asks for no colours at all, the second one that
asks for colours everywhere, and the first one for colours on a terminal; a `0` asks for the opposite. -/
def seesColors (terminal : Bool) (wanted forced refused : Option String) : Bool :=
  let holds (value : String) : Bool := value != "0"
  if forced.any holds then true
  else if refused.isSome then false
  else terminal && wanted.all holds

/-- The message that a run ends with. -/
def Run.closing (colored : Bool) (run : Run Unit) : Outcome :=
  let outcome := run.outcome
  match outcome.fault with
  | none => outcome
  | some fault =>
      let errors := outcome.output.errors ++ "error: " ++ fault.render colored ++ "\n"
      { outcome with output := { outcome.output with errors := errors } }

/-- What becomes of a command line; `visible` says whether colours can be seen. -/
def runCommandLine (files : FileSystem) (visible : Bool) (arguments : List String) : Outcome :=
  match Invocation.read arguments with
  | .error (.help text) => Run.closing false (Run.line text)
  | .error (.fault fault) => Run.closing false (throw (.argument fault))
  | .ok invocation =>
      let colored := invocation.colored visible
      Run.closing colored (invocation.run files colored)

end VhdlOrder
