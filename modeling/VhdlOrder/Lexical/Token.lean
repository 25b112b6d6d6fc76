import VhdlOrder.Lexical.Delimiter
import VhdlOrder.Lexical.Identifier
import VhdlOrder.Lexical.Keyword
import VhdlOrder.Text.Position

/-! # Tokens

The words, literals, delimiters and comments that a source text is made of, and their written forms.
The last token of every text is the end-of-file marker, which has no characters.
-/

namespace VhdlOrder

/-- A comment, without the characters that open and close it. -/
inductive Comment where
  | line (text : String)
  | delimited (text : String)
deriving DecidableEq

/-- The comment as it is written. -/
def Comment.render : Comment → String
  | .line text => "--" ++ text
  | .delimited text => "/*" ++ text ++ "*/"

/-- A token; numeric and bit string literals keep the text they are written with. -/
inductive Token where
  | comment (note : Comment)
  | identifier (name : Identifier)
  | decimal (text : String)
  | based (text : String)
  | character (c : Char)
  | string (text : String)
  | bitString (text : String)
  | keyword (word : Keyword)
  | delimiter (mark : Delimiter)
  | endOfFile
deriving DecidableEq, Inhabited

namespace Token

/-- The token as it is written; a double quote within a string is written twice. -/
def render : Token → String
  | .comment note => note.render
  | .identifier name => name.render
  | .decimal text | .based text | .bitString text => text
  | .character c => String.ofList ['\x27', c, '\x27']
  | .string text =>
      String.ofList
        ('\x22' :: text.toList.flatMap (fun c => if c = '\x22' then ['\x22', '\x22'] else [c]) ++ ['\x22'])
  | .keyword word => word.spelling
  | .delimiter mark => mark.spelling
  | .endOfFile => ""

/-- The identifier that the token is, if it is one. -/
def identifier? : Token → Option Identifier
  | .identifier name => some name
  | _ => none

/-- The reserved word that the token is, if it is one. -/
def keyword? : Token → Option Keyword
  | .keyword word => some word
  | _ => none

def isIdentifier (token : Token) : Bool := token.identifier?.isSome

def isKeyword (token : Token) (word : Keyword) : Bool := token == .keyword word

def isDelimiter (token : Token) (mark : Delimiter) : Bool := token == .delimiter mark

def isComment : Token → Bool
  | .comment _ => true
  | _ => false

end Token

/-- A token and the position of its first character. -/
abbrev PlacedToken := Located Token

/-- The tokens that are not comments. -/
def withoutComments (tokens : List PlacedToken) : List PlacedToken :=
  tokens.filter fun token => !token.value.isComment

end VhdlOrder
