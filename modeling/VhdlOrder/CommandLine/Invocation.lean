import VhdlOrder.CommandLine.Argument
import VhdlOrder.CommandLine.Help
import VhdlOrder.CommandLine.Manual
import VhdlOrder.Name.SelectedName

/-! # Invocations

What the arguments of a command line ask for: a command with its own options, and the options that all
commands have in common.
-/

namespace VhdlOrder

/-- When text is coloured: always, never, or where colours can be seen. -/
inductive ColorMode where
  | always | never | auto
deriving DecidableEq

/-- A command. The path is that of the sources, and the name that of a unit. -/
inductive Command where
  | order (path : Option String) (top : Option SelectedName) (json : Bool)
  | check (path : Option String) (json quiet : Bool)
  | tree (path : Option String) (root : Option SelectedName) (ascii : Bool)
  | listing (path : Option String) (unit : Option SelectedName) (json : Bool)
  | help (list : Bool) (topic : Option Topic)
deriving DecidableEq

/-- The options in common and the command. -/
structure Invocation where
  version : Bool
  verbose : Bool
  color : Option ColorMode
  config : Option String
  command : Option Command
deriving DecidableEq

/-- The path of the sources that a command reads; `help` reads none. -/
def Command.sources? : Command → Option String
  | .order path _ _ | .check path _ _ | .tree path _ _ | .listing path _ _ => some (path.getD ".")
  | .help _ _ => none

/-- The file with settings in the current directory. -/
def nearbySettings : String := "./vhdelab.toml"

/-- The file with settings in the home directory. -/
def homeSettings : String := ".vhdelab/config.toml"

namespace Invocation

/-- The paths that carrying out the invocation reads, those of sources last. The file with settings in
the home directory is not among them. -/
def paths (invocation : Invocation) : List String :=
  match invocation.version, invocation.command with
  | false, some command =>
      invocation.config.toList ++ nearbySettings :: command.sources?.toList
  | _, _ => []

def readColor : String → Except String ColorMode
  | "always" => .ok .always
  | "never" => .ok .never
  | "auto" => .ok .auto
  | _ => .error "color mode must be 'auto', 'always', or 'never'"

def readTopic (text : String) : Except String Topic :=
  match Topic.ofName? text with
  | some topic => .ok topic
  | none => .error ("topic '" ++ text ++ "' not found")

def readUnit (text : String) : Except String SelectedName :=
  (SelectedName.read text).mapError NameFault.render

def path : ArgumentReader (Option String) := ArgumentReader.word "path" .ok

def readOrder : ArgumentReader Command := do
  ArgumentReader.help Help.order
  let json ← ArgumentReader.flag "json"
  let top ← ArgumentReader.option "top" "unit" readUnit
  return .order (← path) top json

def readCheck : ArgumentReader Command := do
  ArgumentReader.help Help.check
  let json ← ArgumentReader.flag "json"
  let quiet ← ArgumentReader.flag "quiet"
  return .check (← path) json quiet

def readTree : ArgumentReader Command := do
  ArgumentReader.help Help.tree
  let ascii ← ArgumentReader.flag "ascii"
  let root ← ArgumentReader.option "root" "unit" readUnit
  return .tree (← path) root ascii

def readListing : ArgumentReader Command := do
  ArgumentReader.help Help.listing
  let json ← ArgumentReader.flag "json"
  let unit ← ArgumentReader.option "unit" "unit" readUnit
  return .listing (← path) unit json

def readHelp : ArgumentReader Command := do
  ArgumentReader.help Help.help
  let list ← ArgumentReader.flag "list"
  return .help list (← ArgumentReader.word "topic" readTopic)

/-- The command with its own options, if there is one. -/
def readCommand : ArgumentReader (Option Command) := do
  match ← ArgumentReader.command "command" ["order", "check", "tree", "show", "help"] with
  | none => return none
  | some "order" => return some (← readOrder)
  | some "check" => return some (← readCheck)
  | some "tree" => return some (← readTree)
  | some "show" => return some (← readListing)
  | some _ => return some (← readHelp)

/-- What all arguments ask for. -/
def readAll : ArgumentReader Invocation := do
  ArgumentReader.help Help.program
  let version ← ArgumentReader.flag "version"
  let verbose ← ArgumentReader.flag "verbose"
  let color ← ArgumentReader.option "color" "when" readColor
  let config ← ArgumentReader.option "config" "file" .ok
  let command ← readCommand
  ArgumentReader.finish
  return ⟨version, verbose, color, config, command⟩

/-- What the arguments of a command line, without the name of the program, ask for. -/
def read (arguments : List String) : Except Refusal Invocation :=
  match readAll (ArgumentReader.start arguments) with
  | .ok invocation _ => .ok invocation
  | .error refusal _ => .error refusal

end Invocation

end VhdlOrder
