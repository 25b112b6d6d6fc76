import VhdlOrder.Lexical.Token
import VhdlOrder.Name.SelectedName
import VhdlOrder.Text.Blank

/-! # Pragmas

A pragma is a comment of one line whose first character, blanks apart, is `@`. A directive word
follows, and after the directive that asks for elaboration the name of a design unit, with nothing
behind it: `-- @elab pkg_a`. A pragma with another directive has no target.
-/

namespace VhdlOrder

/-- A directive in a comment and the design unit that it names. -/
structure Pragma where
  directive : String
  target : Option SelectedName
  position : Position
deriving DecidableEq

/-- A reason why a comment that begins like a pragma is none. -/
inductive PragmaFault where
  | directiveMissing (found : String)
  | blankMissing (directive found : String)
  | nameMissing (directive : String)
  | nameMalformed (text : String) (fault : NameFault)
  | textAfterName (found : String)
deriving DecidableEq

/-- The wording of the fault. -/
def PragmaFault.render : PragmaFault → String
  | .directiveMissing found => "expecting a directive after '@' but found '" ++ found ++ "'"
  | .blankMissing directive found =>
      "expecting whitespace after '@" ++ directive ++ "' but found '" ++ found ++ "'"
  | .nameMissing directive =>
      "expecting a design unit name after '@" ++ directive ++ "' but found nothing"
  | .nameMalformed text fault =>
      "expecting a design unit name but found '" ++ text ++ "' (" ++ fault.render ++ ")"
  | .textAfterName found => "expecting end of pragma but found '" ++ found ++ "'"

namespace Pragma

/-- The pragma as it is written, with one blank before the target. -/
def render (pragma : Pragma) : String :=
  match pragma.target with
  | some target => "@" ++ pragma.directive ++ " " ++ target.render
  | none => "@" ++ pragma.directive

/-- Whether `c` can be part of a directive. -/
def isDirectiveCharacter (c : Char) : Bool := Latin.isLetterOrDigit c || c == '_'

/-- The design unit named by the text after the directive word `word`. -/
def readTarget (word : String) (text : List Char) : Except PragmaFault SelectedName :=
  if text.head?.any fun c => !Latin.isSeparator c then
    .error (.blankMissing word (String.ofList text))
  else
    let name := Text.strip Latin.isSeparator text
    let extra := name.dropWhile fun c => !Latin.isSeparator c
    if name.isEmpty then .error (.nameMissing word)
    else if !extra.isEmpty then .error (.textAfterName (String.ofList (Text.trim extra)))
    else
      match SelectedName.readList name with
      | .ok target => .ok target
      | .error fault => .error (.nameMalformed (String.ofList name) fault)

/-- Reads the text of a comment placed at `position`; the answer is `none` for a comment that is no
pragma. Only the directive `directive` takes a target. -/
def ofComment (text : String) (position : Position) (directive : String) :
    Except PragmaFault (Option Pragma) :=
  match text.toList.dropWhile Latin.isSeparator with
  | '@' :: rest =>
      let rest := rest.dropWhile Latin.isSeparator
      let word := String.ofList (rest.takeWhile isDirectiveCharacter)
      let rest := rest.dropWhile isDirectiveCharacter
      if word.isEmpty then .error (.directiveMissing (String.ofList (Text.trim rest)))
      else if Text.equalIgnoringAsciiCase word directive then
        match readTarget word rest with
        | .ok target => .ok (some ⟨word, some target, position⟩)
        | .error fault => .error fault
      else .ok (some ⟨word, none, position⟩)
  | _ => .ok none

/-- The pragmas in the comments of one line among `tokens`, in order, each with its place. -/
def scan (tokens : List PlacedToken) (directive : String) :
    List (Located (Except PragmaFault Pragma)) :=
  tokens.filterMap fun token =>
    match token.value with
    | .comment (.line text) =>
        match ofComment text token.position directive with
        | .ok (some pragma) => some ⟨token.position, .ok pragma⟩
        | .ok none => none
        | .error fault => some ⟨token.position, .error fault⟩
    | _ => none

end Pragma

end VhdlOrder
