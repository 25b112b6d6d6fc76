import VhdlOrder.Visibility.Constant
import VhdlOrder.Visibility.Lookup

/-! # Resolution

Resolution turns the names in every unit of a library into dependencies on other units and into
diagnostics. Bodies and architectures see the context of the unit that they complete before their own.
Use clauses that import an item by name are watched in packages, in package bodies, and where a body or
architecture sees them; a watched import that no unit uses is reported at the unit that it stands in.
-/

namespace VhdlOrder

/-- The settings of the checks: what to do about a deferred constant without a package body, and whether
unused imports are reported. -/
structure Checks where
  deferredConstants : Level
  unusedImports : Bool
deriving DecidableEq

/-- The settings in force when nothing else is said. -/
def Checks.standard : Checks := ⟨.warn, true⟩

/-- The dependencies of a unit and the diagnostics at it. -/
structure UnitResolution where
  dependencies : List Dependency
  diagnostics : List Diagnostic
deriving DecidableEq

/-- The resolution of all units in order. -/
structure Resolution where
  units : List UnitResolution
deriving DecidableEq

namespace Resolution

/-- The primary unit that a unit completes or configures, if the library has it. -/
def ownerOf? (library : Library) (unit : DesignUnit) : Option Entry :=
  match unit.contents with
  | .packageBody _ => library.package? unit.name
  | .architecture entity | .configuration entity => (library.primary? entity).filter Entry.isEntity
  | _ => none

/-- What a unit sees of its primary unit: the dependency on it and, except for a configuration, its
context. -/
def enterOwner (library : Library) (unit : DesignUnit) : Scope × Findings :=
  match ownerOf? library unit with
  | none => (.start, .empty)
  | some owner =>
      let via := ((unit.owner?).map Identifier.render).getD ""
      let depend := Findings.dependency owner .primary via unit.position
      if unit.kind == .configuration then (.start, depend)
      else
        let (scope, found) := Scope.start.enter library owner.unit.context (some owner.index)
        (scope, depend ++ found)

/-- Whether the use clauses in front of a unit are watched. -/
def watchesContext (unit : DesignUnit) : Bool := unit.kind == .package || unit.kind == .packageBody

/-- The scope that the names in a unit are looked up in. -/
def scopeOf (library : Library) (entry : Entry) : Scope × Findings :=
  let (scope, first) := enterOwner library entry.unit
  let owner := if watchesContext entry.unit then some entry.index else none
  let (scope, second) := scope.enter library entry.unit.context owner
  (scope, first ++ second)

/-- What there is to say about the template of a package instance. -/
def templateFindings (library : Library) (scope : Scope) (template : Reference) : Findings :=
  let name := template.name
  let target :=
    if name.isExpanded then library.workUnit? name
    else (scope.prefixed? name.first).or (library.primary? name.first)
  match target with
  | some entry =>
      if entry.isPackage then .dependency entry .instantiation name.render template.position
      else .error (.notPackage name) template.position
  | none =>
      if scope.hasLibrary name.first && !library.isWorking name.first then .empty
      else .error (.undeclaredPackage name) template.position

/-- The findings inside a unit. Only packages and package bodies are looked at declaration by
declaration; of the other units, only names in the working library are followed. -/
def inside (library : Library) (level : Level) (scope : Scope) (entry : Entry) : Findings :=
  let unit := entry.unit
  let constants (found : List Finding) : Findings := { Findings.empty with problems := found }
  match unit.contents with
  | .package _ _ (some template) =>
      templateFindings library scope template
        ++ Lookup.findAll library scope unit [] unit.references
  | .package generics declarations none =>
      Lookup.declarations library scope unit [] generics
        ++ Lookup.declarations library scope unit generics declarations
        ++ Lookup.findAll library scope unit (generics ++ declarations) unit.references
        ++ constants (Constant.ofPackage library level unit)
  | .packageBody declarations =>
      let declared := ((library.package? unit.name).map fun owner =>
        owner.unit.generics ++ owner.unit.declarations).getD []
      Lookup.declarations library scope unit declared declarations
        ++ Lookup.findAll library scope unit (declared ++ declarations) unit.references
        ++ constants (Constant.ofBody unit)
  | .context clause => (scope.enter library clause none).2
  | _ =>
      Lookup.findAll library scope unit []
        (unit.references.filter fun reference => library.isWorking reference.name.first)

/-- All findings for a unit. -/
def findings (library : Library) (level : Level) (entry : Entry) : Findings :=
  let (scope, found) := scopeOf library entry
  found ++ inside library level scope entry

/-- The first of the watched imports for each use clause. -/
def distinctImports : List WatchedImport → List WatchedImport
  | [] => []
  | item :: rest => item :: (distinctImports rest).filter fun other => other.key != item.key

/-- The watched imports that are not of use. -/
def unusedImports (found : Findings) : List WatchedImport :=
  (distinctImports found.imports).filter fun item => !found.used.contains item.key

/-- The resolution of a unit from what was found in it and from the unused imports of all units. -/
def ofFindings (library : Library) (unused : List WatchedImport) (entry : Entry) (found : Findings) :
    UnitResolution :=
  let problems :=
    found.problems ++ (unused.filter fun item => item.key.owner == entry.index).map fun item =>
      ⟨.warning, .unusedImport item.name, item.position⟩
  { dependencies := found.dependencies.filter fun dependency => dependency.unit != entry.index
    diagnostics := problems.map fun finding =>
      .place finding.severity finding.problem (library.fileOf entry.index) finding.position }

/-- The dependencies of a unit. -/
def dependencies (resolution : Resolution) (index : Nat) : List Dependency :=
  ((resolution.units[index]?).map UnitResolution.dependencies).getD []

/-- The diagnostics at a unit. -/
def diagnostics (resolution : Resolution) (index : Nat) : List Diagnostic :=
  ((resolution.units[index]?).map UnitResolution.diagnostics).getD []

/-- The diagnostics at all units in order. -/
def allDiagnostics (resolution : Resolution) : List Diagnostic :=
  resolution.units.flatMap UnitResolution.diagnostics

end Resolution

/-- Resolves all units of a library. -/
def Library.resolve (library : Library) (checks : Checks) : Resolution :=
  let found := library.entries.map fun entry =>
    (entry, Resolution.findings library checks.deferredConstants entry)
  let unused :=
    if checks.unusedImports then Resolution.unusedImports (.flatten (found.map Prod.snd)) else []
  ⟨found.map fun (entry, findings) => Resolution.ofFindings library unused entry findings⟩

end VhdlOrder
