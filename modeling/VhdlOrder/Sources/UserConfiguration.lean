/-! # The user's configuration of version control

Of the settings in the file only `excludesfile` matters, whose value is the path of a file with rules. It
stands at the beginning of a line, apart from white space, in any letter case. The value is one word, and
quotes around it are no part of it. White space may hold ends of lines, and sections do not count.
-/

namespace VhdlOrder.UserConfiguration

/-- White space, as one byte of ASCII. -/
def isSpace (byte : UInt8) : Bool := byte == 32 || (9 ≤ byte && byte ≤ 13)

/-- A text, and what stands behind each of its line feeds. -/
def lineStarts : List UInt8 → List (List UInt8)
  | [] => [[]]
  | byte :: rest =>
      match lineStarts rest with
      | starts => if byte == 10 then (byte :: rest) :: starts else (byte :: rest) :: starts.tail

/-- Whether nothing but white space is left on the line. -/
def lineIsOver (text : List UInt8) : Bool :=
  (text.takeWhile isSpace).contains 10 || (text.dropWhile isSpace).isEmpty

/-- The word at the front of a text, if nothing but a quote stands behind it on its line. A quote at its
end is no part of it. -/
def wordOnly? (text : List UInt8) : Option (List UInt8) :=
  let word := text.takeWhile fun byte => !isSpace byte
  let rest := text.dropWhile fun byte => !isSpace byte
  let quoteEnds := match rest.dropWhile isSpace with
    | 34 :: more => lineIsOver more
    | _ => false
  if word.isEmpty then none
  else if 2 ≤ word.length && word.getLast? == some 34 && lineIsOver rest then some word.dropLast
  else if lineIsOver rest || quoteEnds then some word
  else none

/-- The value of the setting `excludesfile` if it is at the front of a text. -/
def excludesSetting? (text : List UInt8) : Option (List UInt8) :=
  let name := "excludesfile".toUTF8.toList
  let text := text.dropWhile isSpace
  let lower (byte : UInt8) : UInt8 := if 65 ≤ byte && byte ≤ 90 then byte + 32 else byte
  if (text.take name.length).map lower != name then none
  else
    match (text.drop name.length).dropWhile isSpace with
    | 61 :: value =>
        let value := value.dropWhile isSpace
        let unquoted := match value with
          | 34 :: rest => wordOnly? (rest.dropWhile isSpace)
          | _ => none
        unquoted.or (wordOnly? value)
    | _ => none

/-- The value of the first setting `excludesfile`. -/
def excludesFile? (text : List UInt8) : Option (List UInt8) := (lineStarts text).findSome? excludesSetting?

end VhdlOrder.UserConfiguration
