import VhdlOrder.Text.Resemblance

/-! # Arguments

The arguments of a command line are words, and marks that begin with a hyphen. A mark may have a value
attached behind an equals sign. Marks are looked for anywhere, words are taken from the front, and what
nobody has taken in the end is a fault. When help is asked for, the help text takes the place of every
fault.
-/

namespace VhdlOrder

/-- A piece of a command line. A mark has its hyphens with it, and a word the number of arguments in front
of it. What has been taken leaves a gap, so that pieces that were apart stay apart; behind the terminator
nothing is looked at. -/
inductive ArgumentPiece where
  | mark (spelling : String)
  | attached (value : String)
  | word (place : Nat) (text : String)
  | terminator
  | ignored (text : String)
  | gap
deriving DecidableEq

/-- What is wrong with the arguments. Options are named together with their value. A command that is none
has one that was meant, or else the name of the argument that it stands for. -/
inductive ArgumentFault where
  | invalid (text : String)
  | misspeltCommand (text command : String)
  | unknownCommand (text argument : String)
  | outOfContext (spelling command : String)
  | repeated (argument : String)
  | valueNotWanted (argument value : String)
  | valueMissing (argument : String)
  | badValue (argument value reason : String)
deriving DecidableEq

namespace ArgumentFault

/-- The line that leads to the help text. -/
def footer : String := "\n\nFor more information, try \"--help\"."

/-- The wording of the fault. -/
def render : ArgumentFault → String
  | .invalid text => "invalid argument \"" ++ text ++ "\"" ++ footer
  | .misspeltCommand text command =>
      "invalid subcommand \"" ++ text ++ "\"\n\nDid you mean \"" ++ command ++ "\"?"
  | .unknownCommand text argument =>
      "invalid subcommand \"" ++ text ++ "\" for \"" ++ argument ++ "\""
  | .outOfContext spelling command =>
      "argument \"" ++ spelling ++ "\" is unknown or invalid in the current context"
        ++ "\n\nMaybe move it after \"" ++ command ++ "\"?"
  | .repeated argument => "argument \"" ++ argument ++ "\" can only be supplied once"
  | .valueNotWanted argument value =>
      "flag \"" ++ argument ++ "\" cannot accept a value but was given \"" ++ value ++ "\""
  | .valueMissing argument =>
      "option \"" ++ argument ++ "\" accepts one value but zero were supplied"
  | .badValue argument value reason =>
      "argument \"" ++ argument ++ "\" failed to process value \"" ++ value ++ "\": " ++ reason

end ArgumentFault

namespace ArgumentPiece

/-- The characters before the first equals sign, and those behind it if there is one. -/
def splitValue : List Char → List Char × Option (List Char)
  | [] => ([], none)
  | c :: rest =>
      if c = '=' then ([], some rest)
      else
        let (name, value) := splitValue rest
        (c :: name, value)

/-- A value attached to a mark, if there is one. -/
def ofValue (value : Option (List Char)) : List ArgumentPiece :=
  (value.map fun value => .attached (String.ofList value)).toList

/-- The pieces of an argument before the terminator, with `place` arguments in front of it. Behind a single
hyphen every character is a mark. -/
def ofArgument (place : Nat) (argument : String) : List ArgumentPiece :=
  match argument.toList with
  | '-' :: '-' :: rest =>
      match splitValue rest with
      | ([], value) => .terminator :: ofValue value
      | (name, value) => .mark (String.ofList ('-' :: '-' :: name)) :: ofValue value
  | '-' :: rest =>
      match splitValue rest with
      | ([], value) => .mark "-" :: ofValue value
      | (switches, value) =>
          switches.map (fun c => .mark (String.ofList ['-', c])) ++ ofValue value
  | text => [.word place (String.ofList text)]

/-- The pieces of some arguments with `place` ones in front of them. -/
def ofArguments (place : Nat) : List String → List ArgumentPiece
  | [] => []
  | argument :: rest =>
      let pieces := ofArgument place argument
      if pieces.contains .terminator then pieces ++ rest.map .ignored
      else pieces ++ ofArguments (place + 1) rest

/-- Takes all marks with one of the spellings. For each it answers the value behind it: an attached one,
or the next word if `words` is set. -/
def takeMarks (spellings : List String) (words : Bool) :
    List ArgumentPiece → List (Option String) × List ArgumentPiece
  | .mark spelling :: .attached value :: rest =>
      let (values, rest) := takeMarks spellings words rest
      if spellings.contains spelling then (some value :: values, .gap :: .gap :: rest)
      else (values, .mark spelling :: .attached value :: rest)
  | .mark spelling :: .word place text :: rest =>
      let (values, rest) := takeMarks spellings words rest
      if !spellings.contains spelling then (values, .mark spelling :: .word place text :: rest)
      else if words then (some text :: values, .gap :: .gap :: rest)
      else (none :: values, .gap :: .word place text :: rest)
  | .mark spelling :: rest =>
      let (values, rest) := takeMarks spellings words rest
      if spellings.contains spelling then (none :: values, .gap :: rest)
      else (values, .mark spelling :: rest)
  | piece :: rest =>
      let (values, rest) := takeMarks spellings words rest
      (values, piece :: rest)
  | [] => ([], [])

/-- Takes the first word; there is none behind the terminator. The place of the word is answered, too. -/
def takeWord : List ArgumentPiece → Option (Nat × String × List ArgumentPiece)
  | [] => none
  | .word place text :: rest => some (place, text, .gap :: rest)
  | .terminator :: _ => none
  | piece :: rest => (takeWord rest).map fun (place, text, rest) => (place, text, piece :: rest)

/-- The first mark. -/
def firstMark? (pieces : List ArgumentPiece) : Option String :=
  pieces.findSome? fun
    | .mark spelling => some spelling
    | _ => none

/-- The first mark with fewer pieces in front of it than there are arguments in front of the place of a
command. It comes before the command, but not every mark before the command is found: an argument may
have more than one piece. -/
def misplacedMark? (place : Nat) (pieces : List ArgumentPiece) : Option String :=
  firstMark? (pieces.take place)

/-- The first word or terminator. -/
def firstWord? (pieces : List ArgumentPiece) : Option String :=
  pieces.findSome? fun
    | .word _ text => some text
    | .terminator => some "--"
    | _ => none

end ArgumentPiece

/-- Why the arguments are not carried out: help is asked for, or there is a fault. -/
inductive Refusal where
  | help (text : String)
  | fault (fault : ArgumentFault)
deriving DecidableEq

/-- The pieces that are left, the help text at hand, and whether it is asked for. -/
structure Arguments where
  pieces : List ArgumentPiece
  help : String
  wantsHelp : Bool
deriving DecidableEq

/-- Takes arguments and answers what they say, or refuses them. -/
abbrev ArgumentReader := EStateM Refusal Arguments

namespace ArgumentReader

variable {α : Type}

/-- The beginning of reading. -/
def start (arguments : List String) : Arguments := ⟨ArgumentPiece.ofArguments 0 arguments, "", false⟩

/-- Refuses the arguments for a fault, unless help is asked for. -/
def refuse (fault : ArgumentFault) : ArgumentReader α := do
  let arguments ← get
  throw (if arguments.wantsHelp then .help arguments.help else .fault fault)

/-- Takes marks with one of the spellings, with the values behind them. -/
def takeMarks (spellings : List String) (words : Bool) : ArgumentReader (List (Option String)) := do
  let arguments ← get
  let (values, pieces) := ArgumentPiece.takeMarks spellings words arguments.pieces
  set { arguments with pieces := pieces }
  return values

/-- Sets the help text and finds out whether it is asked for; if it is so more than once, nothing else
counts. -/
def help (text : String) : ArgumentReader Unit := do
  modify fun arguments => { arguments with help := text }
  let values ← takeMarks ["--help", "-h"] false
  match values.findSome? id with
  | some value => refuse (.valueNotWanted "--help" value)
  | none =>
      modify fun arguments =>
        { arguments with wantsHelp := arguments.wantsHelp || !values.isEmpty }
      if 1 < values.length then refuse (.repeated "--help")

/-- Whether the mark `--name` is there. -/
def flag (name : String) : ArgumentReader Bool := do
  let spelling := "--" ++ name
  let values ← takeMarks [spelling] false
  match values.findSome? id with
  | some value => refuse (.valueNotWanted spelling value)
  | none =>
      if values.length ≤ 1 then return !values.isEmpty
      else refuse (.repeated spelling)

/-- What a value means; the argument is named in the fault if it means nothing. -/
def meaning (argument : String) (read : String → Except String α) (value : String) :
    ArgumentReader α :=
  match read value with
  | .ok result => return result
  | .error reason => refuse (.badValue argument value reason)

/-- The meaning of the value behind the mark `--name`, if it is there; `hint` stands for the value. -/
def option (name hint : String) (read : String → Except String α) : ArgumentReader (Option α) := do
  let spelling := "--" ++ name
  let argument := spelling ++ " <" ++ hint ++ ">"
  match ← takeMarks [spelling] true with
  | [] => return none
  | [none] => refuse (.valueMissing argument)
  | [some value] => return some (← meaning argument read value)
  | _ => refuse (.repeated argument)

/-- The meaning of the next word, if there is one; `hint` stands for it. -/
def word (hint : String) (read : String → Except String α) : ArgumentReader (Option α) := do
  let arguments ← get
  match ArgumentPiece.takeWord arguments.pieces with
  | none => return none
  | some (_, text, pieces) =>
      set { arguments with pieces := pieces }
      return some (← meaning ("<" ++ hint ++ ">") read text)

/-- The next word if it is one of `commands`; `hint` stands for it. A mark in front of it belongs to
nobody, which does not matter when help is asked for. The answer is `none` if there is no word. -/
def command (hint : String) (commands : List String) : ArgumentReader (Option String) := do
  let arguments ← get
  match ArgumentPiece.takeWord arguments.pieces with
  | none => return none
  | some (place, text, pieces) =>
      set { arguments with pieces := pieces }
      if commands.contains text then
        match ArgumentPiece.misplacedMark? place arguments.pieces with
        | some spelling =>
            if arguments.wantsHelp then return some text else refuse (.outOfContext spelling text)
        | none => return some text
      else
        match Text.meant? text commands with
        | some meant => refuse (.misspeltCommand text meant)
        | none => refuse (.unknownCommand text ("<" ++ hint ++ ">"))

/-- Makes sure that everything has been taken and that no help is asked for. -/
def finish : ArgumentReader Unit := do
  let arguments ← get
  if arguments.wantsHelp then throw (.help arguments.help)
  match ArgumentPiece.firstMark? arguments.pieces with
  | some spelling => refuse (.invalid spelling)
  | none =>
      match ArgumentPiece.firstWord? arguments.pieces with
      | some text => refuse (.invalid text)
      | none => return

end ArgumentReader

end VhdlOrder
