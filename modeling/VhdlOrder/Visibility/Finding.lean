import VhdlOrder.Library.Basic

/-! # Findings

What the resolution of a unit brings to light: the units that it depends on, the problems with its
names, and which of the use clauses that are watched are of use. The findings of a unit are those of
its parts one after the other.
-/

namespace VhdlOrder

/-- Why a unit depends on another one. -/
inductive DependencyKind where
  | use | name | primary | context | instantiation
deriving DecidableEq

/-- The kind in one word. -/
def DependencyKind.render : DependencyKind → String
  | .use => "use"
  | .name => "name"
  | .primary => "primary"
  | .context => "context"
  | .instantiation => "instance"

/-- A unit that must be elaborated before, and the name that says so. -/
structure Dependency where
  unit : Nat
  kind : DependencyKind
  via : String
  position : Position
deriving DecidableEq

/-- The dependency without its place. -/
def Dependency.json (dependency : Dependency) : JsonValue :=
  .object [("unit", .number dependency.unit), ("kind", .string dependency.kind.render),
    ("via", .string dependency.via)]

/-- A use clause: the unit that it stands in and its number in the context clause of that unit. -/
structure ClauseKey where
  owner : Nat
  number : Nat
deriving DecidableEq

/-- An item that is imported by name and should be used. -/
structure WatchedImport where
  key : ClauseKey
  name : SelectedName
  position : Position
deriving DecidableEq

/-- A problem at a place of the unit at hand. -/
structure Finding where
  severity : Severity
  problem : Problem
  position : Position
deriving DecidableEq

/-- Dependencies, problems, watched imports, and the use clauses found to be of use. -/
structure Findings where
  dependencies : List Dependency
  problems : List Finding
  imports : List WatchedImport
  used : List ClauseKey
deriving DecidableEq

namespace Findings

/-- Nothing found. -/
def empty : Findings := ⟨[], [], [], []⟩

/-- The findings of two parts one after the other. -/
def append (first second : Findings) : Findings :=
  ⟨first.dependencies ++ second.dependencies, first.problems ++ second.problems,
   first.imports ++ second.imports, first.used ++ second.used⟩

instance : Append Findings := ⟨append⟩

/-- The findings of several parts one after the other. -/
def flatten : List Findings → Findings
  | [] => empty
  | first :: rest => first ++ flatten rest

/-- An error. -/
def error (problem : Problem) (position : Position) : Findings :=
  { empty with problems := [⟨.error, problem, position⟩] }

/-- A dependency on the unit `entry`. -/
def dependency (entry : Entry) (kind : DependencyKind) (via : String) (position : Position) :
    Findings :=
  { empty with dependencies := [⟨entry.index, kind, via, position⟩] }

/-- A watched import, if the use clause is watched. -/
def watched (key : Option ClauseKey) (clause : UseClause) : Findings :=
  { empty with imports := (key.map fun key => ⟨key, clause.name, clause.position⟩).toList }

/-- Use clauses that are of use. -/
def ofUse (keys : List ClauseKey) : Findings := { empty with used := keys }

end Findings

end VhdlOrder
