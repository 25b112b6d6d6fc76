import VhdlOrder.Sources.FileTree
import VhdlOrder.Sources.IgnoreRule
import VhdlOrder.Sources.UserConfiguration

/-! # Ignore rules of version control

A directory is a repository if it has an entry `.git` or `.jj`. Apart from files in the tree, two more
files have rules: one of the repository, and one of the user. The one of the repository lies in the
directory `.git`, or where a file of that name leads to. The one of the user is named in the user's
configuration, or lies in a usual place.
-/

namespace VhdlOrder

namespace FileNode

/-- Whether a directory is a repository. -/
def isRepository (directory : FileNode) : Bool :=
  (directory.child? ".git").isSome || (directory.child? ".jj").isSome

/-- The first line of a file. -/
def firstLine? (node : FileNode) : Option String :=
  node.bytes?.bind fun bytes => (Text.lines bytes).head?

/-- The path that the file `.git` of a directory leads to. -/
def linkedPath? (directory : FileNode) : Option String := do
  let line ← (← directory.child? ".git").firstLine?
  let mark := "gitdir: ".toList
  if mark.isPrefixOf line.toList then return String.ofList (line.toList.drop mark.length) else none

end FileNode

namespace FileSystem

/-- The file that says where repositories linked from a path have what is common to them. -/
def commonPathFile (linked : String) : String := joinPath linked "commondir"

/-- The directory with what is common to linked repositories. -/
def commonPath? (files : FileSystem) (linked : String) : Option String := do
  let line ← (← files.node? (commonPathFile linked)).firstLine?
  return if line.startsWith "." then joinPath linked line else line

/-- The names that lead from a repository's directory to its file with rules. -/
def excludeFile : List String := ["info", "exclude"]

/-- The rules of the repository that a directory is. -/
def repositoryRules (files : FileSystem) (directory : FileNode) : List IgnoreRule :=
  let bytes := match directory.child? ".git" with
    | some (.file _) => do
        let common ← files.commonPath? (← directory.linkedPath?)
        files.bytes? (joinPath common ("/".intercalate excludeFile))
    | some git => (git.at? excludeFile).bind FileNode.bytes?
    | none => none
  (bytes.map IgnoreRule.ofBytes).getD []

/-! ## Rules of the user -/

/-- The path of the user's rules in a configuration file. A tilde stands for the home directory. -/
def configuredRules? (files : FileSystem) (path : String) : Option String := do
  let value ← UserConfiguration.excludesFile? (← files.bytes? path).toList
  let text ← String.fromUTF8? ⟨value.toArray⟩
  return match files.home with
    | some home => text.replace "~" home
    | none => text

/-- A path in the user's directory of configurations for version control. -/
def configurationPath? (files : FileSystem) (name : String) : Option String :=
  let directory := files.configurations.or (files.home.map fun home => joinPath home ".config")
  directory.map fun directory => joinPath directory ("git/" ++ name)

/-- The configuration files of the user, the first that counts first. -/
def userConfigurations (files : FileSystem) : List String :=
  (files.home.map fun home => joinPath home ".gitconfig").toList ++ (files.configurationPath? "config").toList

/-- The path of the user's rules. -/
def userRulesPath? (files : FileSystem) : Option String :=
  (files.userConfigurations.findSome? files.configuredRules?).or (files.configurationPath? "ignore")

/-- The rules of the user. -/
def userRules (files : FileSystem) : List IgnoreRule :=
  ((files.userRulesPath?.bind files.bytes?).map IgnoreRule.ofBytes).getD []

end FileSystem

/-! ## Files with rules -/

namespace FileNode

mutual

/-- The paths that the files `.git` lead to in a directory and below it. -/
def linkedPaths : FileNode → List String
  | .file _ => []
  | .directory children =>
      (FileNode.directory children).linkedPath?.toList ++ linkedPathsOf children

/-- The paths that the files `.git` lead to below the children of a directory. -/
def linkedPathsOf : List (String × FileNode) → List String
  | [] => []
  | (_, node) :: rest => node.linkedPaths ++ linkedPathsOf rest

end

end FileNode

/-- The files that have rules or lead to rules apart from those in the tree of the sources, as far as
the files at hand tell. -/
def FileSystem.ruleFiles (files : FileSystem) : List String :=
  let ofLink (linked : String) : List String :=
    FileSystem.commonPathFile linked
      :: ((files.commonPath? linked).map fun common =>
        joinPath common ("/".intercalate FileSystem.excludeFile)).toList
  files.userConfigurations ++ files.userRulesPath?.toList ++ files.root.linkedPaths.flatMap ofLink

end VhdlOrder
