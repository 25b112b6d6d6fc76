/-! # JSON output

A JSON value and its text over several lines, with two blanks for each level. The fields of an object
stay in the order in which they are listed.
-/

namespace VhdlOrder

/-- A JSON value without fractions. -/
inductive JsonValue where
  | null
  | bool (value : Bool)
  | number (value : Nat)
  | string (text : String)
  | array (items : List JsonValue)
  | object (fields : List (String × JsonValue))

namespace JsonValue

/-- The hexadecimal digit for a number below 16. -/
def hexDigit (n : Nat) : Char := if n < 10 then Char.ofNat (48 + n) else Char.ofNat (87 + n)

/-- A character as it stands in a JSON string. -/
def escapeChar (c : Char) : List Char :=
  if c = '\x22' then ['\\', '\x22']
  else if c = '\\' then ['\\', '\\']
  else if c = '\x08' then ['\\', 'b']
  else if c = '\x0c' then ['\\', 'f']
  else if c = '\n' then ['\\', 'n']
  else if c = '\r' then ['\\', 'r']
  else if c = '\t' then ['\\', 't']
  else if c.toNat < 32 then ['\\', 'u', '0', '0', hexDigit (c.toNat / 16), hexDigit (c.toNat % 16)]
  else [c]

/-- A text between quotes. -/
def quote (text : String) : String :=
  String.ofList ('\x22' :: text.toList.flatMap escapeChar ++ ['\x22'])

/-- The start of a line at the level `depth`. -/
def newLine (depth : Nat) : String := "\n" ++ String.ofList (List.replicate (2 * depth) ' ')

mutual

/-- The text of a value whose first line stands at the level `depth`. -/
def prettyAt (depth : Nat) : JsonValue → String
  | .null => "null"
  | .bool true => "true"
  | .bool false => "false"
  | .number value => toString value
  | .string text => quote text
  | .array [] => "[]"
  | .array (item :: rest) =>
      "[" ++ newLine (depth + 1) ++ prettyAt (depth + 1) item ++ prettyItems (depth + 1) rest
        ++ newLine depth ++ "]"
  | .object [] => "\x7b\x7d"
  | .object ((name, value) :: rest) =>
      "\x7b" ++ newLine (depth + 1) ++ quote name ++ ": " ++ prettyAt (depth + 1) value
        ++ prettyFields (depth + 1) rest ++ newLine depth ++ "\x7d"

/-- The items of an array after the first one. -/
def prettyItems (depth : Nat) : List JsonValue → String
  | [] => ""
  | item :: rest => "," ++ newLine depth ++ prettyAt depth item ++ prettyItems depth rest

/-- The fields of an object after the first one. -/
def prettyFields (depth : Nat) : List (String × JsonValue) → String
  | [] => ""
  | (name, value) :: rest =>
      "," ++ newLine depth ++ quote name ++ ": " ++ prettyAt depth value ++ prettyFields depth rest

end

/-- The text of a value over several lines. -/
def pretty (value : JsonValue) : String := prettyAt 0 value

/-- A field that is left out when there is no value. -/
def optional (name : String) (value : Option JsonValue) : List (String × JsonValue) :=
  (value.map fun value => (name, value)).toList

end JsonValue

end VhdlOrder
