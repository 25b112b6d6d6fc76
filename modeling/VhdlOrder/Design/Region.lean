import VhdlOrder.Design.Parser

/-! # Regions that are skipped

The inside of a design unit or of a subprogram that is not analysed is skipped up to the `end` that
closes it. The words after an inner `end` tell which constructs it closes: one with a declarative part
of its own, such as a subprogram or a package, has opened at its `is`; every other construct says so
after its `end`, as in `end if`.
-/

namespace VhdlOrder.Region

/-- What is open inside a region: constructs with a declarative part, parentheses, and whether the
header of such a construct has begun. The last field says whether a colon comes before. -/
structure Nesting where
  bodies : Nat
  parens : Nat
  header : Bool
  afterColon : Bool
deriving DecidableEq

/-- The beginning of a region. -/
def Nesting.start : Nesting := ⟨0, 0, false, false⟩

/-- The nesting after a token other than `end`; `next` is the token behind it. A word for an entity
class in an attribute specification stands after a colon and begins no header. -/
def Nesting.after (nesting : Nesting) (token : Token) (next : Option Token) : Nesting :=
  let nesting :=
    match token with
    | .keyword .function | .keyword .procedure | .keyword .package =>
        if nesting.parens = 0 && !nesting.afterColon then { nesting with header := true } else nesting
    | .keyword .is =>
        if nesting.header && next != some (Token.keyword .new) then
          { nesting with bodies := nesting.bodies + 1, header := false }
        else { nesting with header := false }
    | .delimiter .semicolon => { nesting with header := false }
    | .delimiter .leftParen => { nesting with parens := nesting.parens + 1 }
    | .delimiter .rightParen => { nesting with parens := nesting.parens - 1 }
    | _ => nesting
  { nesting with afterColon := token.isDelimiter .colon }

/-- Whether the word after an `end` says that an inner construct is closed. -/
def closesInner (next : Option Token) : Bool :=
  (next.bind Token.keyword?).any Keyword.closesInnerConstruct

/-- Takes tokens up to the `end` of the region. The region ends with the word `closing` after that
`end`, which is taken too, or, if there is none, with the first `end` that closes no inner construct. -/
def skipFrom (closing : Option Keyword) (nesting : Nesting) :
    List PlacedToken →
      EStateM.Result SyntaxFault (List PlacedToken) (List PlacedToken × Unit)
  | [] => .error (.unexpectedEnd .start (.keyword .end)) []
  | token :: rest =>
      let next := rest.head?.map Located.value
      if token.value = .endOfFile then
        .error (.unexpectedEnd token.position (.keyword .end)) (token :: rest)
      else if token.value = .keyword .end then
        let word := next.bind Token.keyword?
        if nesting.bodies = 0 && closing.isSome && word == closing then .ok ([], ()) rest.tail
        else if closesInner next then
          Parser.cons token (skipFrom closing { nesting with afterColon := false } rest)
        else if nesting.bodies = 0 && closing.isNone then .ok ([], ()) rest
        else
          Parser.cons token
            (skipFrom closing { nesting with bodies := nesting.bodies - 1, afterColon := false } rest)
      else Parser.cons token (skipFrom closing (nesting.after token.value next) rest)

/-- Takes the tokens of a region through its `end` and answers those before it. -/
def skip (closing : Option Keyword) : Parser (List PlacedToken) := do
  let (tokens, _) ← (skipFrom closing .start : Parser (List PlacedToken × Unit))
  return tokens

end VhdlOrder.Region
