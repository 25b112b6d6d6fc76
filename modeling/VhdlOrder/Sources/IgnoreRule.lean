import VhdlOrder.Sources.IgnorePattern
import VhdlOrder.Text.Blank

/-! # Ignore rules

A file of ignore rules has a rule on each line. A rule is a pattern for files and directories that are
left out, or after an exclamation mark that are kept although an earlier rule leaves them out. A rule
with a slash at its beginning or inside is about paths below the directory of its file; other rules are
about names at any depth. A slash at the end restricts the rule to directories.
-/

namespace VhdlOrder

/-- A rule: what it is about, and whether that is kept. -/
structure IgnoreRule where
  pattern : IgnorePattern
  keeps : Bool
  onlyDirectories : Bool

namespace IgnoreRule

/-! ## Reading -/

/-- A line without the blanks at its end, unless a backslash makes the last of them count. -/
def trimEnd (line : List Char) : List Char :=
  if ['\\', ' '].isSuffixOf line then line else (line.reverse.dropWhile Text.isBlank).reverse

/-- The rule for a pattern that has lost its marks at the front; `anchored` says whether a slash was
there. -/
def ofPattern (text : List Char) (keeps anchored : Bool) : Option IgnoreRule :=
  let onlyDirectories := text.getLast? == some '/'
  let text := if onlyDirectories then text.dropLast else text
  let text := if onlyDirectories && text.getLast? == some '\\' then text.dropLast else text
  let anyDepth := !anchored && !text.contains '/' && text != ['*', '*']
  let text := if anyDepth then '*' :: '*' :: '/' :: text else text
  let text := if ['/', '*', '*'].isSuffixOf text then text ++ ['/', '*'] else text
  (IgnorePattern.read text).map fun pattern => ⟨pattern, keeps, onlyDirectories⟩

/-- The rule on a line; there is none on an empty line, in a comment, or where the pattern is broken. -/
def ofLine (line : List Char) : Option IgnoreRule :=
  if line.head? == some '#' then none
  else
    match trimEnd line with
    | [] => none
    | '\\' :: '!' :: rest => ofPattern ('!' :: rest) false false
    | '\\' :: '#' :: rest => ofPattern ('#' :: rest) false false
    | '!' :: '/' :: rest => ofPattern rest true true
    | '!' :: rest => ofPattern rest true false
    | '/' :: rest => ofPattern rest false true
    | text => ofPattern text false false

/-- The rules on some lines; marks of the byte order in front of the first one do not count. -/
def ofLines : List String → List IgnoreRule
  | [] => []
  | first :: rest =>
      let first := first.toList.dropWhile (· == '\uFEFF')
      (first :: rest.map String.toList).filterMap ofLine

/-- The rules in a file. -/
def ofBytes (bytes : ByteArray) : List IgnoreRule := ofLines (Text.lines bytes)

/-! ## Deciding -/

/-- Whether a rule is about the file or directory at a path. -/
def concerns (path : String) (isDirectory : Bool) (rule : IgnoreRule) : Bool :=
  (isDirectory || !rule.onlyDirectories) && rule.pattern.describes path

/-- What the last of the rules that are about a path says: whether it is kept. -/
def verdict? (rules : List IgnoreRule) (path : String) (isDirectory : Bool) : Option Bool :=
  (rules.reverse.find? (concerns path isDirectory)).map IgnoreRule.keeps

end IgnoreRule

end VhdlOrder
