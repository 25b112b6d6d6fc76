import VhdlOrder.Lexical.Lexeme

/-! # The tokens of a text

A text is split into tokens from left to right; separators between them are dropped and the
end-of-file marker closes the list, one column after the last character. Where characters form no
token the list holds the fault, and reading goes on at the next separator or semicolon, so that one
slip is one fault. A token is placed at its first character and a fault where scanning stopped.
-/

namespace VhdlOrder.Lexer

/-- What stands at a place in a text: a token or a fault. -/
abbrev Item := Located (Except LexicalFault Token)

/-- Whether a single quote after `token` is an attribute tick; comments leave the matter as it was. -/
def ticksAfter (ticks : Bool) : Token → Bool
  | .comment _ => ticks
  | .identifier _ => true
  | .delimiter .rightParen => true
  | _ => false

/-- Whether reading resumes before `c` after a fault. -/
def resumesAt (c : Char) : Bool := Latin.isSeparator c || c == ';'

theorem length_le_of_token {ticks : Bool} {c : Char} {cursor later : Cursor} {token : Token}
    (scanned : Scanner.token ticks c cursor = .ok token later) :
    later.rest.length ≤ cursor.rest.length := by
  obtain ⟨text, reach⟩ := Scanner.forward_token ticks c cursor
  rw [scanned] at reach
  exact reach.length_le

theorem length_le_of_fault {ticks : Bool} {c : Char} {cursor later : Cursor} {fault : LexicalFault}
    (scanned : Scanner.token ticks c cursor = .error fault later) :
    (later.skipUntil resumesAt).rest.length ≤ cursor.rest.length := by
  obtain ⟨text, reach⟩ := Scanner.forward_token ticks c cursor
  rw [scanned] at reach
  exact (reach.trans (Cursor.reaches_skipUntil later resumesAt)).length_le

/-- The items from `cursor` on; `ticks` says whether a single quote would be an attribute tick. -/
def itemsFrom (ticks : Bool) (cursor : Cursor) : List Item :=
  match opened : cursor.rest with
  | [] => [⟨cursor.position.nextColumn, .ok .endOfFile⟩]
  | c :: rest =>
      have longer : cursor.rest.length = rest.length + 1 := by rw [opened]; rfl
      let inside : Cursor := ⟨cursor.position.step c, rest⟩
      if Latin.isSeparator c then itemsFrom ticks inside
      else
        match scanned : Scanner.token ticks c inside with
        | .ok token later =>
            have bound : later.rest.length ≤ rest.length := length_le_of_token scanned
            ⟨inside.position, .ok token⟩ :: itemsFrom (ticksAfter ticks token) later
        | .error fault later =>
            have bound : (later.skipUntil resumesAt).rest.length ≤ rest.length :=
              length_le_of_fault scanned
            ⟨later.position, .error fault⟩ :: itemsFrom false (later.skipUntil resumesAt)
termination_by cursor.rest.length
decreasing_by all_goals omega

/-- The tokens and faults of a text in order. -/
def items (text : String) : List Item := itemsFrom false (.ofText text)

/-- The tokens of a list of items up to its first fault. The end-of-file marker then stands at the
fault. -/
def untilFault : List Item → List PlacedToken × Option (Located LexicalFault)
  | [] => ([], none)
  | ⟨position, .ok token⟩ :: rest =>
      let (tokens, fault) := untilFault rest
      (⟨position, token⟩ :: tokens, fault)
  | ⟨position, .error fault⟩ :: _ => ([⟨position, .endOfFile⟩], some ⟨position, fault⟩)

/-- The tokens of a text up to its first fault, and that fault. -/
def readUntilFault (text : String) : List PlacedToken × Option (Located LexicalFault) :=
  untilFault (items text)

/-- The tokens of a text, or its first fault. -/
def read (text : String) : Except (Located LexicalFault) (List PlacedToken) :=
  match readUntilFault text with
  | (tokens, none) => .ok tokens
  | (_, some fault) => .error fault

end VhdlOrder.Lexer
