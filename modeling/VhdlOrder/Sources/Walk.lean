import VhdlOrder.Sources.Fileset
import VhdlOrder.Sources.VersionControl
import VhdlOrder.Text.Quoted

/-! # Finding source files

A path names a file, which is a source file whatever its name, or a directory, in which all files that
belong to the fileset are source files unless ignore rules leave them out. The rules of a directory are
about everything below it, and rules further down count first. Rules in files named `.ignore` always
count; those of version control count only within a repository, and rules above the repository do not.
-/

namespace VhdlOrder

/-- The ignore rules of a directory. They see an entry of the directory at hand as its name behind
`lead`. -/
structure IgnoreLevel where
  rules : List IgnoreRule
  sharedRules : List IgnoreRule
  ownRules : List IgnoreRule
  isRepository : Bool
  lead : String

/-- A path without a `./` at its front. -/
def withoutDot (path : String) : String :=
  match path.toList with
  | '.' :: '/' :: rest => String.ofList rest
  | _ => path

namespace IgnoreLevel

/-- The rules in a file of a directory. -/
def rulesIn (directory : FileNode) (name : String) : List IgnoreRule :=
  (((directory.child? name).bind FileNode.bytes?).map IgnoreRule.ofBytes).getD []

/-- The ignore rules of a directory: those in its files, those shared in a repository, and those of its
own repository. -/
def ofDirectory (files : FileSystem) (directory : FileNode) (lead : String) : IgnoreLevel :=
  { rules := rulesIn directory ".ignore"
    sharedRules := rulesIn directory ".gitignore"
    ownRules := files.repositoryRules directory
    isRepository := directory.isRepository
    lead := lead }

/-- What the rules of a directory see in front of the names in it, where `path` leads to the directory.
That is nothing; but behind `././` at the front a path is not recognised as one below the directory, and
its rules see all of it. -/
def ownLead (path : String) : String :=
  match (joinPath path "").toList with
  | '.' :: '/' :: '.' :: '/' :: rest => String.ofList rest
  | _ => ""

/-- The levels as they are seen from a directory one level further down. -/
def enter (name : String) (levels : List IgnoreLevel) : List IgnoreLevel :=
  levels.map fun level => { level with lead := level.lead ++ name ++ "/" }

/-- What one kind of rules says at the first level where it says something. -/
def verdict? (rules : IgnoreLevel → List IgnoreRule) (name : String) (isDirectory : Bool)
    (levels : List IgnoreLevel) : Option Bool :=
  levels.findSome? fun level => IgnoreRule.verdict? (rules level) (level.lead ++ name) isDirectory

/-- The levels of the repository at hand, of which there are none outside a repository. -/
def repository : List IgnoreLevel → List IgnoreLevel
  | [] => []
  | level :: rest =>
      if level.isRepository then [level]
      else
        match repository rest with
        | [] => []
        | more => level :: more

/-- Whether the rules leave out the file or directory `name` of the directory at `path`. The levels are
those of that directory and of all above it, the nearest first. -/
def leavesOut (userRules : List IgnoreRule) (levels : List IgnoreLevel) (path name : String)
    (isDirectory : Bool) : Bool :=
  let inside := repository levels
  let ofUser := if inside.isEmpty then [] else userRules
  let keeps :=
    (verdict? rules name isDirectory levels).or
      ((verdict? sharedRules name isDirectory inside).or
        ((verdict? ownRules name isDirectory inside).or
          (IgnoreRule.verdict? ofUser (withoutDot (withoutDot (joinPath path name))) isDirectory)))
  keeps == some false

end IgnoreLevel

/-- A source file; it has no text if its bytes are no text. -/
structure SourceFile where
  path : String
  text : Option String
deriving DecidableEq

namespace FileSystem

mutual

/-- The files below a directory that the rules do not leave out, with the names that lead to them from
where the walk began; `above` leads to this directory, whose path is `path`. -/
def walk (files : FileSystem) (userRules : List IgnoreRule) (levels : List IgnoreLevel)
    (above : List String) (path : String) : FileNode → List (List String × ByteArray)
  | .file bytes => [(above, bytes)]
  | .directory children =>
      let level := IgnoreLevel.ofDirectory files (.directory children) (IgnoreLevel.ownLead path)
      walkAll files userRules (level :: levels) above path children

/-- The files among the children of a directory and below them. -/
def walkAll (files : FileSystem) (userRules : List IgnoreRule) (levels : List IgnoreLevel)
    (above : List String) (path : String) :
    List (String × FileNode) → List (List String × ByteArray)
  | [] => []
  | (name, node) :: rest =>
      let more := walkAll files userRules levels above path rest
      if IgnoreLevel.leavesOut userRules levels path name !node.isFile then more
      else
        walk files userRules (IgnoreLevel.enter name levels) (above ++ [name]) (joinPath path name) node
          ++ more

end

/-- The levels of the directories above a place, the nearest first. -/
def levelsAbove (files : FileSystem) (node : FileNode) (levels : List IgnoreLevel) :
    List String → List IgnoreLevel
  | [] => levels
  | name :: path =>
      let level := IgnoreLevel.ofDirectory files node ""
      levelsAbove files ((node.child? name).getD .emptyDirectory)
        (IgnoreLevel.enter name (level :: levels)) path

/-- Compares two lists of names name by name. -/
def comesBefore (a b : List String) : Bool := !decide (b < a)

/-- The source files in the directory at a place; `path` is how the directory was named. -/
def sourcesIn (files : FileSystem) (set : Fileset) (path : String) (place : List String)
    (directory : FileNode) : List SourceFile :=
  let found := files.walk files.userRules (files.levelsAbove files.root [] place) [] path directory
  let sorted := found.mergeSort fun a b => comesBefore a.1 b.1
  let named := sorted.map fun (names, bytes) =>
    ⟨joinPath path ("/".intercalate names), String.fromUTF8? bytes⟩
  named.filter fun file => set.contains file.path

/-- The source files that a path names; the answer is `none` if it names nothing. -/
def sources? (files : FileSystem) (set : Fileset) (path : String) : Option (List SourceFile) :=
  match files.place? path with
  | none => none
  | some place =>
      match files.root.at? place with
      | none => none
      | some (.file bytes) => some [⟨path, String.fromUTF8? bytes⟩]
      | some directory => some (files.sourcesIn set path place directory)

end FileSystem

end VhdlOrder
