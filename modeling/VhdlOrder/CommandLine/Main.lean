import VhdlOrder.CommandLine.Execution

/-! # The program

The program reads the files that its arguments ask for, carries out the command line on them, and prints
what became of it. All decisions are made by `runCommandLine`.
-/

namespace VhdlOrder.Program

/-- What an entry leads to, if it leads to something. -/
def kind? (entry : IO.FS.DirEntry) : IO (Option IO.FS.FileType) := do
  try return some (← entry.path.metadata).type
  catch _ => return none

/-- The bytes of a file; one that cannot be read stands for one that is no text. -/
def readBytes (entry : IO.FS.DirEntry) : IO ByteArray := do
  try IO.FS.readBinFile entry.path
  catch _ => return ⟨#[255]⟩

mutual

/-- The directory at an entry with everything below it. -/
partial def readDirectory (entry : IO.FS.DirEntry) : IO FileNode := do
  let children ← try entry.path.readDir catch _ => pure #[]
  return .directory (← children.toList.mapM fun child => return (child.fileName, ← readNode child))

/-- The file or directory at an entry. What is neither stands for an empty directory, and so does a link
to a directory. -/
partial def readNode (entry : IO.FS.DirEntry) : IO FileNode := do
  match ← kind? entry with
  | some .file => return .file (← readBytes entry)
  | some .dir =>
      if (← entry.path.symlinkMetadata).type == .symlink then return .emptyDirectory
      else readDirectory entry
  | _ => return .emptyDirectory

end

/-- The entry at some names below the root. -/
def entryAt (names : List String) : IO.FS.DirEntry := ⟨"/", "/".intercalate names⟩

/-- Adds what lies at some names, a directory without what is in it. -/
def addEntry (root : FileNode) (names : List String) : IO FileNode := do
  match ← kind? (entryAt names) with
  | some .file => return root.graft (.file (← readBytes (entryAt names))) names
  | some _ => return root.graft .emptyDirectory names
  | none => return root

/-- Adds the directory at some names with its ignore rules and nothing else of what is in it. -/
def addDirectory (root : FileNode) (names : List String) : IO FileNode :=
  let paths := [[], [".ignore"], [".gitignore"], [".jj"], [".git"], [".git", "info", "exclude"]]
  paths.foldlM (fun root path => addEntry root (names ++ path)) root

/-- Adds the directories on the way along a path; `current` leads to the directory where a relative path
begins. The second answer has the names that lead to what the path names. -/
def addWay (current : List String) (root : FileNode) (path : String) :
    IO (FileNode × List String) := do
  let first := if path.startsWith "/" then [] else current
  let mut root ← addDirectory root []
  for count in List.range current.length do
    root ← addDirectory root (current.take (count + 1))
  let mut names := first
  for name in pathComponents path do
    root ← addDirectory root names
    if name == ".." then names := names.dropLast
    else if name != "" && name != "." then names := names ++ [name]
  return (root, names)

/-- Adds the file at a path. -/
def addFile (current : List String) (root : FileNode) (path : String) : IO FileNode := do
  let (root, names) ← addWay current root path
  addEntry root names

/-- Adds everything at a path. -/
def addTree (current : List String) (root : FileNode) (path : String) : IO FileNode := do
  let (root, names) ← addWay current root path
  match ← kind? (entryAt names) with
  | some .dir => return root.graft (← readDirectory (entryAt names)) names
  | _ => addEntry root names

/-- The value of a variable of the environment, unless it is empty. -/
def environment? (name : String) : IO (Option String) := do
  return (← IO.getEnv name).filter (· != "")

/-- The files that the arguments ask for. A file with rules is found by the second round at the latest,
as no more than one other file leads to it. -/
def readFiles (arguments : List String) : IO FileSystem := do
  let paths := match Invocation.read arguments with
    | .ok invocation => invocation.paths
    | .error _ => []
  let current := (pathComponents (← IO.currentDir).toString).filter (· != "")
  let root ← paths.foldlM (addTree current) .emptyDirectory
  let mut files : FileSystem := ⟨root, current, ← environment? "HOME", ← environment? "XDG_CONFIG_HOME"⟩
  if paths.isEmpty then return files
  for home in files.home.toList do
    files := { files with root := ← addFile current files.root (joinPath home homeSettings) }
  for _ in [1, 2] do
    files := { files with root := ← files.ruleFiles.foldlM (addFile current) files.root }
  return files

end VhdlOrder.Program

open VhdlOrder in
def main (arguments : List String) : IO UInt32 := do
  let visible := seesColors (← (← IO.getStdout).isTty) (← IO.getEnv "CLICOLOR")
    (← IO.getEnv "CLICOLOR_FORCE") (← IO.getEnv "NO_COLOR")
  let outcome := runCommandLine (← Program.readFiles arguments) visible arguments
  IO.print outcome.output.standard
  IO.eprint outcome.output.errors
  return outcome.code.toUInt32
