import VhdlOrder.Settings.TomlMoment
import VhdlOrder.Settings.TomlNumber

/-! # Reading TOML

The text of a document is read line by line. A value may go on over several lines if it is an array or
a string between triple quotes. Keys and values have only so many levels. A text that is no TOML document
has no reading.
-/

namespace VhdlOrder.Toml

/-- Reads `count` hexadecimal digits behind a number `value`. -/
def hexadecimal (value : Nat) : Nat → Reader Nat
  | 0 => return value
  | count + 1 => do
      let c ← one fun c => (hexValue? c).isSome
      hexadecimal (16 * value + (hexValue? c).getD 0) count

/-- The character with a number, which must be one. -/
def scalar (value : Nat) : Reader Char :=
  if value.isValidChar then return Char.ofNat value else failure

/-- Reads what stands behind a backslash. -/
def escape : Reader Char := do
  match ← one fun _ => true with
  | 'b' => return '\x08'
  | 't' => return '\t'
  | 'n' => return '\n'
  | 'f' => return '\x0c'
  | 'r' => return '\r'
  | '\x22' => return '\x22'
  | '\\' => return '\\'
  | 'u' => scalar (← hexadecimal 0 4)
  | 'U' => scalar (← hexadecimal 0 8)
  | _ => failure

/-- Reads a string on one line after its opening quote `quote`. Only between double quotes does a
backslash change the meaning of what follows. -/
def shortString (quote : Char) : Reader (List Char) := fix fun further => do
  let c ← one isCommentChar
  if c = quote then return []
  else if c = '\\' && quote = '\x22' then
    let first ← escape
    return first :: (← further)
  else return c :: (← further)

/-- Skips the end of a line behind a backslash, and all blanks and ends of lines that follow. -/
def joinLines : Reader Unit := fix fun further => do
  blanks
  if ← acceptNewline then further else return

/-- Reads a string between triple quotes after the opening quotes and a line end there. Up to two quotes
more than three may close it; those belong to the string. -/
def longString (quote : Char) : Reader (List Char) := fix fun further => do
  let quotes ← many (· == quote)
  if 3 ≤ quotes.length then
    if quotes.length ≤ 5 then return quotes.drop 3 else failure
  else if ← acceptNewline then return quotes ++ '\n' :: (← further)
  else
    let c ← one isCommentChar
    if c = '\\' && quote = '\x22' then
      let isJoint := fun text : List Char =>
        match (text.dropWhile isBlank) with
        | '\n' :: _ | '\r' :: '\n' :: _ => true
        | _ => false
      if isJoint (← get) then
        joinLines
        return quotes ++ (← further)
      else
        let first ← escape
        return quotes ++ first :: (← further)
    else return quotes ++ c :: (← further)

/-- Reads a string after its opening quote, which may be the first of three. -/
def stringAfter (quote : Char) : Reader String := do
  if ← accept [quote, quote] then
    let _ ← acceptNewline
    return String.ofList (← longString quote)
  else return String.ofList (← shortString quote)

/-- Reads one part of a key. -/
def keyPart : Reader String := do
  if ← accept ['\x22'] then return String.ofList (← shortString '\x22')
  else if ← accept ['\x27'] then return String.ofList (← shortString '\x27')
  else
    let first ← one isKeyChar
    return String.ofList (first :: (← many isKeyChar))

/-- Reads the parts of a key, which have points between them. -/
def keyParts : Reader (List String) := fix fun further => do
  blanks
  let part ← keyPart
  blanks
  if ← accept ['.'] then return part :: (← further) else return [part]

/-- The number of levels that a document may have: a key has no more parts, and arrays and inline tables
are not nested deeper. -/
def maxLevels : Nat := 127

/-- Reads a key. -/
def key : Reader (List String) := do
  let parts ← keyParts
  if parts.length ≤ maxLevels then return parts else failure

/-- Reads a key and the equals sign behind it. -/
def keyOfPair : Reader (List String) := do
  let path ← key
  let _ ← one (· == '=')
  blanks
  return path

/-- Reads the items of an array after its opening bracket. -/
def arrayItems (value : Reader TomlValue) : Reader (List TomlValue) := fix fun further => do
  gap
  if ← accept [']'] then return []
  else
    let item ← value
    gap
    if ← accept [','] then return item :: (← further)
    else
      let _ ← one (· == ']')
      return [item]

/-- Reads one or more pairs of an inline table through its closing brace. -/
def inlinePairs (value : Reader TomlValue) : Reader (List (List String × TomlValue)) :=
  fix fun further => do
    let path ← keyOfPair
    let item ← value
    blanks
    if ← accept [','] then return (path, item) :: (← further)
    else
      let _ ← one (· == '\x7d')
      return [(path, item)]

/-- Reads an inline table after its opening brace. -/
def inline (value : Reader TomlValue) : Reader TomlValue := do
  blanks
  if ← accept ['\x7d'] then return .table .inline []
  else
    match inlineTable [] (← inlinePairs value) with
    | some entries => return .table .inline entries
    | none => failure

/-- Reads a value other than an array or an inline table. -/
def scalarValue : Reader TomlValue := do
  if ← accept ['\x22'] then return .string (← stringAfter '\x22')
  else if ← accept ['\x27'] then return .string (← stringAfter '\x27')
  else if ← accept ['t', 'r', 'u', 'e'] then return .bool true
  else if ← accept ['f', 'a', 'l', 's', 'e'] then return .bool false
  else
    match ← attempt moment with
    | some _ => return .moment
    | none =>
        number
        return .number

/-- Reads a value with at most `levels` arrays and inline tables around its innermost parts. -/
def value : Nat → Reader TomlValue
  | 0 => scalarValue
  | levels + 1 => do
      if ← accept ['['] then return .array (← arrayItems (value levels))
      else if ← accept ['\x7b'] then inline (value levels)
      else scalarValue

/-- Reads the content of a line, if it has some. -/
def lineContent : Reader (Option TomlLine) := do
  blanks
  if ← next fun c => c == '#' || c == '\n' || c == '\r' then return none
  else if ← atEnd then return none
  else if ← accept ['['] then
    let path ← key
    let _ ← one (· == ']')
    return some (.header path)
  else
    let path ← keyOfPair
    return some (.pair path (← value maxLevels))

/-- Reads all lines. -/
def lines : Reader (List TomlLine) := fix fun further => do
  if ← atEnd then return []
  else
    let line ← lineContent
    lineEnd
    return line.toList ++ (← further)

/-- The entries of the document with the text `text`. -/
def read (text : String) : Option TomlEntries := do
  let characters := text.toList
  let (found, _) ← lines (if characters.head? = some '\uFEFF' then characters.drop 1 else characters)
  build [] [] found

end VhdlOrder.Toml
