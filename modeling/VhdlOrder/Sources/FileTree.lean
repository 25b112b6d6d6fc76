/-! # File trees

The files that a run may read, as a tree of directories. A path is followed from the root or from the
current directory, component by component.
-/

namespace VhdlOrder

/-- A file or a directory with what is in it. -/
inductive FileNode where
  | file (bytes : ByteArray)
  | directory (children : List (String × FileNode))

namespace FileNode

/-- The directory with nothing in it. -/
def emptyDirectory : FileNode := .directory []

def isFile : FileNode → Bool
  | .file _ => true
  | .directory _ => false

/-- Puts a node under a name, in the place of the one that has the name. -/
def put (name : String) (node : FileNode) : List (String × FileNode) → List (String × FileNode)
  | [] => [(name, node)]
  | (other, old) :: rest =>
      if other == name then (name, node) :: rest else (other, old) :: put name node rest

/-- Puts `added` at a path below `node` and makes the directories on the way. Where two directories meet,
what is in the added one is put into the other. -/
def graft (node added : FileNode) : List String → FileNode
  | [] =>
      match node, added with
      | .directory children, .directory more =>
          .directory (more.foldl (fun children (name, child) => put name child children) children)
      | _, _ => added
  | name :: path =>
      let children := match node with
        | .directory children => children
        | .file _ => []
      let child := (children.lookup name).getD emptyDirectory
      .directory (put name (graft child added path) children)

/-- The node of a name in a directory. -/
def child? (node : FileNode) (name : String) : Option FileNode :=
  match node with
  | .directory children => children.lookup name
  | .file _ => none

/-- The node at a path of names. -/
def at? (node : FileNode) : List String → Option FileNode
  | [] => some node
  | name :: path => (node.child? name).bind fun child => child.at? path

/-- The bytes of a file. -/
def bytes? : FileNode → Option ByteArray
  | .file bytes => some bytes
  | .directory _ => none

end FileNode

/-- The components of a path, with empty ones where slashes meet. -/
def pathComponents (path : String) : List String :=
  (path.toList.splitOn '/').map String.ofList

/-- A name behind the path of a directory; the empty path is that of the current directory. -/
def joinPath (directory name : String) : String :=
  if directory.isEmpty || directory.endsWith "/" then directory ++ name else directory ++ "/" ++ name

/-- The files that a run may read: all of them below a root, the names that lead to the current directory,
the path of the home directory, and that of the user's directory of configurations if it is not in the
usual place. -/
structure FileSystem where
  root : FileNode
  current : List String
  home : Option String
  configurations : Option String

namespace FileSystem

/-- Follows the components of a path from `place`; a component other than the last stands for a
directory. -/
def follow (root : FileNode) (place : List String) : List String → Option (List String)
  | [] => some place
  | name :: rest =>
      match root.at? place with
      | some (.directory children) =>
          if name = "" || name = "." then follow root place rest
          else if name = ".." then follow root place.dropLast rest
          else if (children.lookup name).isSome then follow root (place ++ [name]) rest
          else none
      | _ => none

/-- The names that lead from the root to what a path names. -/
def place? (files : FileSystem) (path : String) : Option (List String) :=
  if path.isEmpty then none
  else follow files.root (if path.startsWith "/" then [] else files.current) (pathComponents path)

/-- What a path names. -/
def node? (files : FileSystem) (path : String) : Option FileNode :=
  (files.place? path).bind files.root.at?

/-- The bytes of the file that a path names. -/
def bytes? (files : FileSystem) (path : String) : Option ByteArray :=
  (files.node? path).bind FileNode.bytes?

end FileSystem

end VhdlOrder
