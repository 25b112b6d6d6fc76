import VhdlOrder.Report.Diagnostic

/-! # Libraries

The working library holds the design units of all sources in the order in which they are read. A unit
is known by its number in that order. Primary units are found by their name, package bodies by the
name of their package, and architectures by their entity and their own name.
-/

namespace VhdlOrder

/-- A design unit and the number of the source that it stands in. -/
structure LibraryUnit where
  unit : DesignUnit
  source : Nat

/-- A pragma with a target and the number of the source that it stands in. -/
structure LibraryPragma where
  pragma : Pragma
  source : Nat
deriving DecidableEq

/-- The units, pragmas and problems of the sources read so far; `files` are the paths of the sources. -/
structure Library where
  name : Identifier
  files : List String
  units : List LibraryUnit
  pragmas : List LibraryPragma
  diagnostics : List Diagnostic

/-- A text that cannot be the name of a library, and why. -/
structure LibraryNameFault where
  text : String
  fault : NameFault
deriving DecidableEq

/-- The wording of the fault. -/
def LibraryNameFault.render (name : LibraryNameFault) : String :=
  "invalid library name '" ++ name.text ++ "': " ++ name.fault.render

/-- A unit of a library together with its number. -/
structure Entry where
  index : Nat
  unit : DesignUnit

namespace Entry

def isPackage (entry : Entry) : Bool := entry.unit.kind == .package

def isEntity (entry : Entry) : Bool := entry.unit.kind == .entity

end Entry

namespace Library

/-- The library without sources. -/
def empty (name : Identifier) : Library := ⟨name, [], [], [], []⟩

/-- The library without sources whose name is the text `name`. -/
def named (name : String) : Except LibraryNameFault Library :=
  match Identifier.read name with
  | .ok name => .ok (empty name)
  | .error fault => .error ⟨name, fault⟩

/-- The number of units. -/
def size (library : Library) : Nat := library.units.length

/-- Some units with the numbers from `first` on. -/
def numbered (first : Nat) : List LibraryUnit → List Entry
  | [] => []
  | item :: rest => ⟨first, item.unit⟩ :: numbered (first + 1) rest

/-- All units with their numbers. -/
def entries (library : Library) : List Entry := numbered 0 library.units

/-- The path of a source. -/
def path (library : Library) (source : Nat) : String := library.files[source]?.getD ""

/-- The path of the file that a unit stands in. -/
def fileOf (library : Library) (index : Nat) : String :=
  (library.units[index]?.map fun item => library.path item.source).getD ""

/-- A unit by its number. -/
def unit? (library : Library) (index : Nat) : Option DesignUnit :=
  library.units[index]?.map LibraryUnit.unit

/-- The name of a unit in messages. -/
def display (library : Library) (index : Nat) : String :=
  ((library.unit? index).map DesignUnit.display).getD ""

/-- Where a unit is written. -/
def locate (library : Library) (index : Nat) : String :=
  library.fileOf index ++ (((library.unit? index).map fun unit => unit.position.render).getD "")

/-- Whether a name means the working library: it is called `work` besides its own name. -/
def isWorking (library : Library) (name : Identifier) : Bool :=
  name.same .work || name.same library.name

/-- The primary unit of a name. -/
def primary? (library : Library) (name : Identifier) : Option Entry :=
  library.entries.find? fun entry => entry.unit.isPrimary && entry.unit.name.same name

/-- The package of a name. -/
def package? (library : Library) (name : Identifier) : Option Entry :=
  (library.primary? name).filter Entry.isPackage

/-- The body of the package of a name. -/
def body? (library : Library) (name : Identifier) : Option Entry :=
  library.entries.find? fun entry => entry.unit.kind == .packageBody && entry.unit.name.same name

/-- Whether a unit is an architecture of the entity `entity`. -/
def isArchitectureOf (entity : Identifier) (unit : DesignUnit) : Bool :=
  match unit.contents with
  | .architecture owner => owner.same entity
  | _ => false

/-- The architectures of an entity in order. -/
def architectures (library : Library) (entity : Identifier) : List Entry :=
  library.entries.filter fun entry => isArchitectureOf entity entry.unit

/-- The architecture of an entity with the name `name`. -/
def architecture? (library : Library) (entity name : Identifier) : Option Entry :=
  (library.architectures entity).find? fun entry => entry.unit.name.same name

/-- The identifier that names the body of a package, as in `pkg.body`. -/
def bodySuffix : Identifier := .basic "body"

/-- The unit that the identifiers name: a primary unit, or a body or architecture behind the name of
its package or entity. -/
def findParts (library : Library) : List Identifier → Option Entry
  | [name] => library.primary? name
  | [owner, name] =>
      match if name.same bodySuffix then library.body? owner else none with
      | some entry => some entry
      | none => library.architecture? owner name
  | _ => none

/-- The unit that a selected name means. The name of the library may stand in front of it. -/
def find? (library : Library) (name : SelectedName) : Option Entry :=
  if library.isWorking name.first && name.isExpanded then library.findParts name.suffix
  else library.findParts name.parts

end Library

end VhdlOrder
