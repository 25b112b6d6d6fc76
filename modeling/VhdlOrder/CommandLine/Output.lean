import VhdlOrder.CommandLine.Invocation
import VhdlOrder.Library.Basic
import VhdlOrder.Sources.Walk

/-! # Output of a run

A run prints lines to its two channels and may end with a fault. What was printed before the fault stays
printed.
-/

namespace VhdlOrder

/-- A reason to end a run. -/
inductive RunFault where
  | argument (fault : ArgumentFault)
  | settingsMissing (path : String)
  | settingsUnreadable
  | settingsRejected (path : String)
  | badFileset (fault : FilesetFault)
  | pathMissing (path : String)
  | noSourceFiles
  | badLibraryName (fault : LibraryNameFault)
  | sourceUnreadable (path : String)
  | unitNotFound (name : SelectedName) (library : Identifier)
  | noRootUnits
  | noOrder (fault : OrderFault)
  | errorsFound (count : Nat)
deriving DecidableEq

namespace RunFault

/-- A hint behind a message. -/
def hint (colored : Bool) (text : String) : String :=
  "\n\n" ++ Paint.green.apply colored "hint" ++ ": " ++ text

/-- The message about a settings file that is rejected, up to the reason. -/
def rejection (path : String) : String := "failed to parse \"" ++ path ++ "\" file: "

/-- What is wrong with bytes that are no text. -/
def notText : String := "stream did not contain valid UTF-8"

/-- The wording of the fault. -/
def render (colored : Bool) : RunFault → String
  | .argument fault => fault.render
  | .settingsMissing path => "failed to locate configuration file \"" ++ path ++ "\""
  | .settingsUnreadable => notText
  | .settingsRejected path => rejection path ++ "not a TOML document of known settings"
  | .badFileset fault => fault.render
  | .pathMissing path => "path " ++ Text.quoted path ++ " does not exist"
  | .noSourceFiles =>
      "no vhdl source files were found" ++ hint colored
        "directories are searched for files matching the \"general.patterns\" configuration"
  | .badLibraryName fault => fault.render
  | .sourceUnreadable path => "failed to read file " ++ Text.quoted path ++ ": " ++ notText
  | .unitNotFound name library =>
      "no unit named '" ++ name.render ++ "' in library '" ++ library.render ++ "'"
        ++ hint colored "use \x60vhdelab show\x60 to see the list of units"
  | .noRootUnits =>
      "every unit is part of a dependency cycle" ++ hint colored
        "use the \"--root\" option to select a unit to start from"
  | .noOrder fault => "failed to elaborate: " ++ fault.render
  | .errorsFound count => "analysis found " ++ toString count ++ " error(s)"

end RunFault

/-- The text printed to the two channels. -/
structure Output where
  standard : String
  errors : String
deriving DecidableEq

/-- Prints, and answers a value or ends with a fault. -/
abbrev Run := EStateM RunFault Output

namespace Run

/-- Prints a line. -/
def line (text : String) : Run Unit :=
  modify fun output => { output with standard := output.standard ++ text ++ "\n" }

/-- Prints several lines. -/
def lines : List String → Run Unit
  | [] => pure ()
  | text :: rest => do
      line text
      lines rest

/-- Prints a line to the channel for messages. -/
def message (text : String) : Run Unit :=
  modify fun output => { output with errors := output.errors ++ text ++ "\n" }

/-- Prints diagnostics, each on a line of the channel for messages. -/
def report (colored : Bool) : List Diagnostic → Run Unit
  | [] => pure ()
  | diagnostic :: rest => do
      message (diagnostic.render colored)
      report colored rest

/-- Ends with a fault, or goes on with the value. -/
def ofExcept {α β : Type} (fault : β → RunFault) : Except β α → Run α
  | .ok value => return value
  | .error cause => throw (fault cause)

end Run

/-- What a run has printed, and the fault that it has ended with. -/
structure Outcome where
  output : Output
  fault : Option RunFault
deriving DecidableEq

/-- The outcome of a run from its beginning. -/
def Run.outcome (run : Run Unit) : Outcome :=
  match run ⟨"", ""⟩ with
  | .ok _ output => ⟨output, none⟩
  | .error fault output => ⟨output, some fault⟩

/-- The exit code of the program. -/
def Outcome.code (outcome : Outcome) : Nat := if outcome.fault.isSome then 101 else 0

end VhdlOrder
