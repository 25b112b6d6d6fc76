import VhdlOrder.Sources.EndMarks

/-! # Patterns of ignore rules

A pattern describes paths below a directory. A question mark stands for one byte and an asterisk for any
bytes, both for none but slashes. Two asterisks that are a component of the path on their own stand for
any number of components. Brackets stand for one byte out of some; a bracket that is never closed stands
for itself. Braces hold alternatives with commas between them, and may be nested. A backslash takes the
meaning from the character behind it.

Paths are compared byte by byte, so that a character above ASCII is as many bytes as its encoding has.
-/

namespace VhdlOrder

/-- One part of a pattern: a character, a question mark, an asterisk, two asterisks at the beginning
with the slash behind them, between two slashes, or at the end with the slash in front of them,
brackets, or braces. The brackets list ranges of characters. -/
inductive IgnorePart where
  | literal (c : Char)
  | anyByte
  | anyText
  | leading
  | between
  | trailing
  | brackets (negated : Bool) (ranges : List (Char × Char))
  | choice (branches : List (List IgnorePart))

/-- The parts of a pattern in order. -/
abbrev IgnorePattern := List IgnorePart

namespace IgnorePattern

/-! ## Brackets -/

/-- What brackets turn out to be: ranges with the text behind the closing bracket, a bracket without a
closing one, or a range whose end comes before its beginning. -/
inductive Brackets where
  | closed (ranges : List (Char × Char)) (tail : List Char)
  | unclosed
  | reversed
deriving DecidableEq

/-- Reads brackets after their beginning; `ranges` has those read so far, the last one first. A closing
bracket that comes first does not close them. `isOpen` says whether a hyphen that stands behind a
character waits for the end of a range. -/
def bracketsFrom (ranges : List (Char × Char)) (isOpen : Bool) : List Char → Brackets
  | [] => .unclosed
  | c :: rest =>
      match ranges with
      | [] => bracketsFrom [(c, c)] false rest
      | (first, last) :: more =>
          if c = ']' then .closed (if isOpen then ('-', '-') :: ranges else ranges) rest
          else if isOpen then
            if c < first then .reversed else bracketsFrom ((first, c) :: more) false rest
          else if c = '-' then bracketsFrom ((first, last) :: more) true rest
          else bracketsFrom ((c, c) :: ranges) false rest

theorem length_bracketsFrom {ranges found : List (Char × Char)} {isOpen : Bool} {text tail : List Char}
    (success : bracketsFrom ranges isOpen text = .closed found tail) : tail.length < text.length := by
  fun_induction bracketsFrom ranges isOpen text with
  | case1 => simp at success
  | case3 =>
    simp only [Brackets.closed.injEq] at success
    simp [← success.2]
  | case4 => simp at success
  | _ =>
    rename_i ih
    have shorter := ih success
    simp only [List.length_cons]
    omega

/-- Whether the brackets that `text` is the inside of stand for the bytes that are not listed. -/
def isNegated (text : List Char) : Bool := text.head?.any fun c => c == '!' || c == '^'

/-! ## Reading -/

/-- A brace that is open: the parts in front of it and the finished alternatives, the last ones first. -/
structure OpenBrace where
  before : List IgnorePart
  branches : List IgnorePattern

/-- What has been read: the parts since the last brace or comma with the last one first, and the open
braces from the inside out. -/
structure Progress where
  parts : List IgnorePart
  braces : List OpenBrace

namespace Progress

/-- Adds a part. -/
def push (part : IgnorePart) (progress : Progress) : Progress :=
  { progress with parts := part :: progress.parts }

/-- Puts a part in the place of the last one; two asterisks that begin the pattern stay. -/
def replace (part : IgnorePart) (progress : Progress) : Progress :=
  match progress.parts with
  | .leading :: _ => progress
  | _ :: parts => { progress with parts := part :: parts }
  | [] => progress.push part

/-- Opens a brace. -/
def openBrace (progress : Progress) : Progress := ⟨[], ⟨progress.parts, []⟩ :: progress.braces⟩

/-- Ends an alternative at a comma, which is a character like others outside braces. -/
def comma (progress : Progress) : Progress :=
  match progress.braces with
  | [] => progress.push (.literal ',')
  | brace :: braces =>
      ⟨[], { brace with branches := progress.parts.reverse :: brace.branches } :: braces⟩

/-- Whether an alternative has nothing in it, not even in the braces inside of it. -/
def isVoid (branch : IgnorePattern) : Bool :=
  branch.all fun
    | .choice [] => true
    | _ => false

/-- Closes a brace. Alternatives with nothing in them do not count. -/
def closeBrace (progress : Progress) : Option Progress :=
  match progress.braces with
  | [] => none
  | brace :: braces =>
      let branches := (progress.parts.reverse :: brace.branches).reverse
      some ⟨.choice (branches.filter fun branch => !isVoid branch) :: brace.before, braces⟩

/-- Adds two asterisks; `before` and `next` are the characters around them. The second answer says
whether they have taken the slash behind them. Where they are no component on their own, they are the
same as one asterisk. -/
def asterisks (before next : Option Char) (progress : Progress) : Progress × Bool :=
  let isInside := !progress.braces.isEmpty
  let begins := before == some '/' || (isInside && (before == some ',' || before == some '\x7b'))
  let ends := next == none || (isInside && (next == some ',' || next == some '\x7d'))
  if progress.parts.isEmpty then
    if next == none then (progress.push .leading, false)
    else if next == some '/' then (progress.push .leading, true)
    else (progress.push .anyText, false)
  else if begins && ends then (progress.replace .trailing, false)
  else if begins && next == some '/' then (progress.replace .between, true)
  else (progress.push .anyText, false)

end Progress

/-- Reads the rest of a pattern. The character `before` is in front of it, and `unclosed` says whether a
bracket without a closing one has been seen; there are no brackets behind such a one. -/
def readFrom (before : Option Char) (unclosed : Bool) (progress : Progress) (text : List Char) :
    Option IgnorePattern :=
  match text with
  | [] => if progress.braces.isEmpty then some progress.parts.reverse else none
  | ['\\'] => none
  | '\\' :: c :: rest => readFrom (some c) unclosed (progress.push (.literal c)) rest
  | '?' :: rest => readFrom (some '?') unclosed (progress.push .anyByte) rest
  | '*' :: '*' :: rest =>
      match progress.asterisks before rest.head? with
      | (progress, true) => readFrom (some '/') unclosed progress rest.tail
      | (progress, false) => readFrom (some '*') unclosed progress rest
  | '*' :: rest => readFrom (some '*') unclosed (progress.push .anyText) rest
  | '\x7b' :: rest => readFrom (some '\x7b') unclosed progress.openBrace rest
  | ',' :: rest => readFrom (some ',') unclosed progress.comma rest
  | '\x7d' :: rest =>
      match progress.closeBrace with
      | some progress => readFrom (some '\x7d') unclosed progress rest
      | none => none
  | '[' :: rest =>
      let negated := isNegated rest
      let inside := if negated then rest.tail else rest
      have bound : inside.length ≤ rest.length := by
        simp only [inside]
        split <;> simp
      if unclosed then readFrom (some '[') unclosed (progress.push (.literal '[')) rest
      else
        match found : bracketsFrom [] false inside with
        | .closed ranges tail =>
            have shorter := length_bracketsFrom found
            readFrom (some ']') unclosed (progress.push (.brackets negated ranges)) tail
        | .unclosed => readFrom (some '[') true (progress.push (.literal '[')) rest
        | .reversed => none
  | c :: rest => readFrom (some c) unclosed (progress.push (.literal c)) rest
termination_by text.length
decreasing_by all_goals (simp only [List.length_cons, List.length_tail]; omega)

/-- The pattern that `text` is. -/
def read (text : List Char) : Option IgnorePattern := readFrom none false ⟨[], []⟩ text

/-! ## Matching -/

/-- The byte between the components of a path. -/
def slash : UInt8 := 47

/-- The ranges of bytes that a range of characters stands for: from the last byte of its first character
to the first byte of its last one, and all other bytes of the two on their own. -/
def byteRanges (range : Char × Char) : List (UInt8 × UInt8) :=
  let (first, last) := range
  let only (byte : UInt8) : UInt8 × UInt8 := (byte, byte)
  let start := String.utf8EncodeChar first
  let stop := String.utf8EncodeChar last
  if first = last then start.map only
  else
    start.dropLast.map only ++ [(start.getLast?.getD 0, stop.head?.getD 0)] ++ stop.tail.map only

/-- Whether brackets stand for a byte. -/
def hasByte (negated : Bool) (ranges : List (Char × Char)) (byte : UInt8) : Bool :=
  ((ranges.flatMap byteRanges).any fun (first, last) => first ≤ byte && byte ≤ last) != negated

mutual

/-- Marks the ends of the text that have what a part describes in front of a marked end. -/
def markPart (text : List UInt8) (behind : EndMarks) : IgnorePart → EndMarks
  | .literal c =>
      (String.utf8EncodeChar c).foldr (fun byte marks => EndMarks.one (· == byte) text marks) behind
  | .anyByte => EndMarks.one (· != slash) text behind
  | .anyText => EndMarks.many (· != slash) text behind
  | .leading => EndMarks.either behind (EndMarks.through (· == slash) text behind)
  | .between =>
      EndMarks.one (· == slash) text
        (EndMarks.either behind (EndMarks.through (· == slash) text behind))
  | .trailing => EndMarks.one (· == slash) text (EndMarks.many (fun _ => true) text behind)
  | .brackets negated ranges => EndMarks.one (hasByte negated ranges) text behind
  | .choice [] => behind
  | .choice (branch :: branches) =>
      EndMarks.either (markParts text behind branch) (markBranches text behind branches)

/-- Marks the ends of the text that have what some parts describe in front of a marked end. -/
def markParts (text : List UInt8) (behind : EndMarks) : List IgnorePart → EndMarks
  | [] => behind
  | part :: parts => markPart text (markParts text behind parts) part

/-- Marks the ends of the text that have what one of the branches describes in front of a marked end. -/
def markBranches (text : List UInt8) (behind : EndMarks) : List (List IgnorePart) → EndMarks
  | [] => EndMarks.nowhere text
  | branch :: branches =>
      EndMarks.either (markParts text behind branch) (markBranches text behind branches)

end

/-- Whether the pattern describes the path. Two asterisks alone describe every path. -/
def describes (pattern : IgnorePattern) (path : String) : Bool :=
  match pattern with
  | [.leading] => true
  | parts =>
      let text := path.toUTF8.toList
      (markParts text (EndMarks.atEmpty text) parts).whole

end IgnorePattern

end VhdlOrder
