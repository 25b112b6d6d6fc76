import VhdlOrder.Settings.Toml

/-! # Reading the text of a document

Readers for the smallest pieces of a TOML document: single characters, blanks, comments and ends of lines.
A reader that meets something else fails; why it does so does not matter.
-/

namespace VhdlOrder.Toml

/-- Reads from the front of a text, or fails. -/
abbrev Reader := StateT (List Char) Option

variable {α : Type}

/-- Runs `round`, whose argument stands for all further rounds, at most once for each character of
`bound` and once more. -/
def fixWithin (round : Reader α → Reader α) : List Char → Reader α
  | [] => round (fun _ => none)
  | _ :: bound => round (fixWithin round bound)

/-- Runs `round`, whose argument stands for all further rounds; a round reads at least one character
before it goes on to further ones. -/
def fix (round : Reader α → Reader α) : Reader α := fun text => fixWithin round text text

/-- Reads the next character, which must satisfy `accepts`. -/
def one (accepts : Char → Bool) : Reader Char := fun text =>
  match text with
  | c :: rest => if accepts c then some (c, rest) else none
  | [] => none

/-- Whether the next character satisfies `accepts`; it stays unread. -/
def next (accepts : Char → Bool) : Reader Bool := fun text => some (text.head?.any accepts, text)

/-- Whether nothing is left. -/
def atEnd : Reader Bool := fun text => some (text.isEmpty, text)

/-- Reads the characters up to the first one that does not satisfy `accepts`. -/
def many (accepts : Char → Bool) : Reader (List Char) := fun text =>
  some (text.takeWhile accepts, text.dropWhile accepts)

/-- Reads `wanted` if the text begins with it; answers whether it does. -/
def accept (wanted : List Char) : Reader Bool := fun text =>
  if wanted.isPrefixOf text then some (true, text.drop wanted.length) else some (false, text)

def isBlank (c : Char) : Bool := c == ' ' || c == '\t'

/-- Whether a character may stand in a comment; it may be any but most control characters. -/
def isCommentChar (c : Char) : Bool := c == '\t' || (32 ≤ c.toNat && c.toNat != 127)

def isKeyChar (c : Char) : Bool := c.isAlphanum || c == '_' || c == '-'

/-- What `reader` reads if it does not fail; otherwise nothing is read. -/
def attempt (reader : Reader α) : Reader (Option α) := fun text =>
  match reader text with
  | some (result, rest) => some (some result, rest)
  | none => some (none, text)

/-- Skips blanks. -/
def blanks : Reader Unit := do
  let _ ← many isBlank

/-- Reads the end of a line if it is next; answers whether it is. -/
def acceptNewline : Reader Bool := do
  if ← accept ['\n'] then return true else accept ['\r', '\n']

/-- Skips a comment if one is next. -/
def comment : Reader Unit := do
  if ← accept ['#'] then
    let _ ← many isCommentChar

/-- Reads the rest of a line: blanks and a comment. -/
def lineEnd : Reader Unit := do
  blanks
  comment
  if ← atEnd then return
  else if ← acceptNewline then return
  else failure

/-- Skips blanks, comments and ends of lines. -/
def gap : Reader Unit := fix fun further => do
  blanks
  comment
  if ← acceptNewline then further else return

/-- The value of a hexadecimal digit. -/
def hexValue? (c : Char) : Option Nat :=
  if c.isDigit then some (c.toNat - 48)
  else if 'a' ≤ c ∧ c ≤ 'f' then some (c.toNat - 87)
  else if 'A' ≤ c ∧ c ≤ 'F' then some (c.toNat - 55)
  else none

end VhdlOrder.Toml
