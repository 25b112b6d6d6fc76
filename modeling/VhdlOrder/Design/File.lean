import VhdlOrder.Design.Unit
import VhdlOrder.Lexical.Lexer

/-! # Design files

A design file is a list of design units with context items in front of them. The items before a unit
belong to that unit only. Reading stops at the first fault, and the units before it are kept.
-/

namespace VhdlOrder.DesignFile

/-- Takes what stands at the top level of a file, which is a context item, a unit or a lone semicolon;
`context` has the items since the last unit. Answers the items for the next unit, and the unit if it
is one. -/
def item (context : ContextClause) : Parser (ContextClause × Option DesignUnit) := do
  let unit (parse : Parser DesignUnit) : Parser (ContextClause × Option DesignUnit) :=
    return (ContextClause.empty, some (← parse))
  let token ← Parser.next .designUnit
  match token.value with
  | .delimiter .semicolon => return (context, none)
  | .keyword .library => return (context.append (← ContextClause.parseLibraryItem), none)
  | .keyword .use => return (context.append (← ContextClause.parseUseItem), none)
  | .keyword .context =>
      let name ← Parser.identifier
      if ← Parser.acceptKeyword .is then
        unit (DesignUnit.parseContext name.value token.position context)
      else return (context.append (← ContextClause.parseContextItem name), none)
  | .keyword .package =>
      if ← Parser.acceptKeyword .body then unit (DesignUnit.parsePackageBody token.position context)
      else unit (DesignUnit.parsePackage token.position context)
  | .keyword .entity => unit (DesignUnit.parseEntity token.position context)
  | .keyword .architecture =>
      unit (DesignUnit.parseOfEntity .architecture .architecture token.position context)
  | .keyword .configuration =>
      unit (DesignUnit.parseOfEntity .configuration .configuration token.position context)
  | _ => Parser.unexpected token .designUnit

/-- The units in `tokens` up to the end of the file or the first fault, and that fault; `context` has
the items since the last unit. As every item takes a token, there are no more items than tokens in
`bound`, which is as long as `tokens` at least. -/
def unitsWithin (context : ContextClause) (bound tokens : List PlacedToken) :
    List DesignUnit × Option SyntaxFault :=
  match bound, tokens with
  | _, [] => ([], none)
  | [], _ :: _ => ([], none)
  | _ :: bound, token :: rest =>
      if token.value = .endOfFile then ([], none)
      else
        match item context (token :: rest) with
        | .error fault _ => ([], some fault)
        | .ok (later, unit) rest =>
            let (units, fault) := unitsWithin later bound rest
            (unit.toList ++ units, fault)

/-- The units in the tokens of a file up to the first fault, and that fault. -/
def units (tokens : List PlacedToken) : List DesignUnit × Option SyntaxFault :=
  unitsWithin .empty (withoutComments tokens) (withoutComments tokens)

/-- What can keep a text from being a design file. -/
inductive Fault where
  | lexical (fault : Located LexicalFault)
  | grammar (fault : SyntaxFault)
deriving DecidableEq

/-- The units of a text that has no faults; of several faults a lexical one is reported first. -/
def read (text : String) : Except Fault (List DesignUnit) :=
  match Lexer.read text with
  | .error fault => .error (.lexical fault)
  | .ok tokens =>
      match units tokens with
      | (found, none) => .ok found
      | (_, some fault) => .error (.grammar fault)

end VhdlOrder.DesignFile
