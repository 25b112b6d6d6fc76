/-! # The characters of the language

The language is written in the Latin-1 character set. Its characters fall into the classes below;
the graphic characters are those that may stand in a literal, and the separators are those that may
stand between two words. A character outside Latin-1 belongs to no class.
-/

namespace VhdlOrder.Latin

/-- A blank or a no-break blank. -/
def isSpace (c : Char) : Bool := c == ' ' || c == '\u00a0'

def isDigit (c : Char) : Bool := '0' ≤ c && c ≤ '9'

/-- A capital letter; the multiplication sign lies among the capital letters but is none. -/
def isUpper (c : Char) : Bool :=
  ('A' ≤ c && c ≤ 'Z') || ('\u00c0' ≤ c && c ≤ '\u00de' && c != '\u00d7')

/-- A small letter; the division sign lies among the small letters but is none. -/
def isLower (c : Char) : Bool :=
  ('a' ≤ c && c ≤ 'z') || ('\u00df' ≤ c && c ≤ '\u00ff' && c != '\u00f7')

def isLetter (c : Char) : Bool := isLower c || isUpper c

def isLetterOrDigit (c : Char) : Bool := isDigit c || isLetter c

/-- The special characters: those that delimiters and literals are written with. -/
def special : List Char :=
  ['\x22', '#', '&', '\x27', '(', ')', '*', '+', ',', '-', '.', '/', ':', ';', '<', '=', '>', '?',
   '@', '[', ']', '_', '\x60', '|']

def isSpecial (c : Char) : Bool := special.contains c

/-- The other special characters, which may stand in literals and comments only. -/
def isOtherSpecial (c : Char) : Bool :=
  ['!', '$', '%', '\x5c', '^', '\x7b', '\x7d', '~', '\u00d7', '\u00f7'].contains c
    || ('\u00a1' ≤ c && c ≤ '\u00bf')

/-- A character that may stand in a literal. -/
def isGraphic (c : Char) : Bool :=
  isLetter c || isDigit c || isSpecial c || isOtherSpecial c || isSpace c

/-- A character that may stand between the quotes of a bit string. -/
def isGraphicNotQuote (c : Char) : Bool := c != '\x22' && isGraphic c

/-- A character that separates words: a blank, a tab or the end of a line. -/
def isSeparator (c : Char) : Bool :=
  isSpace c || c == '\t' || c == '\x0b' || c == '\r' || c == '\n'

/-- The value of a hexadecimal digit, which may be written in either case. -/
def hexDigit? (c : Char) : Option Nat :=
  if isDigit c then some (c.toNat - '0'.toNat)
  else if 'a' ≤ c && c ≤ 'f' then some (c.toNat - 'a'.toNat + 10)
  else if 'A' ≤ c && c ≤ 'F' then some (c.toNat - 'A'.toNat + 10)
  else none

/-- Whether `c` is a digit of a number written in base `base`. -/
def isBaseDigit (base : Nat) (c : Char) : Bool := (hexDigit? c).any (· < base)

end VhdlOrder.Latin
