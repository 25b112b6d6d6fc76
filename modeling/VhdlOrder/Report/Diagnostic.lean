import VhdlOrder.Report.JsonValue
import VhdlOrder.Report.Problem

/-! # Diagnostics

A diagnostic is a problem with its severity and, as far as they are known, the file and the position
where it is. A diagnostic does not stop the analysis; only errors make a check fail. Text for a terminal
may be coloured. Whether it is coloured is decided once for a whole run; without colours a painted text is
the text itself.
-/

namespace VhdlOrder

/-! ## Colours -/

/-- The colours and weights in use. -/
inductive Paint where
  | cyan | yellow | red | green | blue | bold
deriving DecidableEq

/-- The number that selects the paint on a terminal. -/
def Paint.code : Paint → String
  | .cyan => "36"
  | .yellow => "33"
  | .red => "31"
  | .green => "32"
  | .blue => "34"
  | .bold => "1"

/-- The text between the escape sequences that switch the paint on and off, if colours are wanted. -/
def Paint.apply (paint : Paint) (colored : Bool) (text : String) : String :=
  if colored then "\x1b[" ++ paint.code ++ "m" ++ text ++ "\x1b[0m" else text

/-! ## Severities -/

/-- How grave a problem is, the least grave first. -/
inductive Severity where
  | note | warning | error
deriving DecidableEq

namespace Severity

/-- The place of the severity in the order from harmless to grave. -/
def rank : Severity → Nat
  | .note => 0
  | .warning => 1
  | .error => 2

def word : Severity → String
  | .note => "note"
  | .warning => "warning"
  | .error => "error"

def paint : Severity → Paint
  | .note => .cyan
  | .warning => .yellow
  | .error => .red

/-- The severity as messages show it. -/
def render (severity : Severity) (colored : Bool) : String :=
  severity.paint.apply colored severity.word

/-- The graver one of two severities. -/
def max (a b : Severity) : Severity := if a.rank < b.rank then b else a

end Severity

/-- A problem, how grave it is, and where it is. -/
structure Diagnostic where
  severity : Severity
  problem : Problem
  file : Option String
  position : Option Position
deriving DecidableEq

namespace Diagnostic

/-- A problem at a position of a file. -/
def place (severity : Severity) (problem : Problem) (file : String) (position : Position) :
    Diagnostic :=
  ⟨severity, problem, some file, some position⟩

def isError (diagnostic : Diagnostic) : Bool := diagnostic.severity == .error

/-- The message without the severity and the place. -/
def message (diagnostic : Diagnostic) : String := diagnostic.problem.render

/-- The place in front of the message, with a blank behind it if there is one. -/
def location (diagnostic : Diagnostic) : String :=
  match diagnostic.file, diagnostic.position with
  | some file, some position => file ++ position.render ++ " "
  | some file, none => file ++ " "
  | none, some position => position.render ++ " "
  | none, none => ""

/-- The diagnostic as one line. -/
def render (diagnostic : Diagnostic) (colored : Bool) : String :=
  diagnostic.severity.render colored ++ ": " ++ diagnostic.location ++ diagnostic.message

/-- The number of errors. -/
def countErrors (diagnostics : List Diagnostic) : Nat := diagnostics.countP isError

/-- The gravest severity among some diagnostics. -/
def worst : List Diagnostic → Option Severity
  | [] => none
  | diagnostic :: rest =>
      match worst rest with
      | none => some diagnostic.severity
      | some severity => some (diagnostic.severity.max severity)

end Diagnostic

/-- A position as the pair of its line and column. -/
def Position.json (position : Position) : JsonValue :=
  .array [.number position.line, .number position.column]

/-- The diagnostic with the fields that are known. -/
def Diagnostic.json (diagnostic : Diagnostic) : JsonValue :=
  .object ([("severity", .string diagnostic.severity.word), ("message", .string diagnostic.message)]
    ++ JsonValue.optional "file" (diagnostic.file.map .string)
    ++ JsonValue.optional "position" (diagnostic.position.map Position.json))

end VhdlOrder
