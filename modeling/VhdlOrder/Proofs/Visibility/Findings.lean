import VhdlOrder.Proofs.Library.Entries
import VhdlOrder.Visibility.Finding

/-! # What findings hold

The dependencies, problems, imports and used clauses among findings are those of their parts. A dependency
is rooted in a library if the unit that it names is a primary unit of it.
-/

namespace VhdlOrder

namespace Findings

variable {first second : Findings}

@[simp] theorem dependencies_append :
    (first ++ second).dependencies = first.dependencies ++ second.dependencies := rfl

@[simp] theorem problems_append : (first ++ second).problems = first.problems ++ second.problems := rfl

@[simp] theorem imports_append : (first ++ second).imports = first.imports ++ second.imports := rfl

@[simp] theorem used_append : (first ++ second).used = first.used ++ second.used := rfl

/-- A part of findings that is put together when the findings are. -/
structure Additive {α : Type} (project : Findings → List α) : Prop where
  empty : project .empty = []
  append : ∀ first second, project (first ++ second) = project first ++ project second

theorem Additive.flatten {α : Type} {project : Findings → List α} (additive : Additive project)
    (parts : List Findings) : project (flatten parts) = parts.flatMap project := by
  induction parts with
  | nil => exact additive.empty
  | cons part rest ih => rw [Findings.flatten, additive.append, ih, List.flatMap_cons]

theorem additive_dependencies : Additive Findings.dependencies := ⟨rfl, fun _ _ => rfl⟩

theorem additive_problems : Additive Findings.problems := ⟨rfl, fun _ _ => rfl⟩

theorem additive_imports : Additive Findings.imports := ⟨rfl, fun _ _ => rfl⟩

theorem additive_used : Additive Findings.used := ⟨rfl, fun _ _ => rfl⟩

@[simp] theorem dependencies_empty : empty.dependencies = [] := rfl

@[simp] theorem dependencies_error (problem : Problem) (position : Position) :
    (error problem position).dependencies = [] := rfl

@[simp] theorem problems_empty : empty.problems = [] := rfl

@[simp] theorem problems_dependency (entry : Entry) (kind : DependencyKind) (via : String) (position : Position) :
    (dependency entry kind via position).problems = [] := rfl

@[simp] theorem problems_watched (key : Option ClauseKey) (clause : UseClause) :
    (watched key clause).problems = [] := rfl

@[simp] theorem problems_error (problem : Problem) (position : Position) :
    (error problem position).problems = [⟨.error, problem, position⟩] := rfl

@[simp] theorem dependencies_dependency (entry : Entry) (kind : DependencyKind) (via : String)
    (position : Position) :
    (dependency entry kind via position).dependencies = [⟨entry.index, kind, via, position⟩] := rfl

@[simp] theorem dependencies_watched (key : Option ClauseKey) (clause : UseClause) :
    (watched key clause).dependencies = [] := rfl

@[simp] theorem dependencies_ofUse (keys : List ClauseKey) : (ofUse keys).dependencies = [] := rfl

end Findings

/-- Whether the problem is an import that is not used. -/
def Problem.isUnusedImport : Problem → Bool
  | .unusedImport _ => true
  | _ => false

/-- Whether the problem is a deferred constant of a package that has no body. -/
def Problem.isConstantWithoutBody : Problem → Bool
  | .constantWithoutBody _ _ => true
  | _ => false

/-- Whether settings decide if the problem is reported. -/
def Problem.isOptional (problem : Problem) : Bool := problem.isUnusedImport || problem.isConstantWithoutBody

namespace Findings

/-- At most one thing is found, at the position: an error that is always reported, or a dependency. -/
inductive Remark (position : Position) : Findings → Prop
  | empty : Remark position .empty
  | error {problem : Problem} : problem.isOptional = false → Remark position (.error problem position)
  | dependency (entry : Entry) (kind : DependencyKind) (via : String) :
      Remark position (.dependency entry kind via position)

/-- All problems found are at the position, and none of them is optional. -/
def AllAt (position : Position) (found : Findings) : Prop :=
  ∀ finding ∈ found.problems, finding.position = position ∧ finding.problem.isOptional = false

variable {first second : Findings} {position : Position}

theorem Remark.allAt (remark : first.Remark position) : first.AllAt position := by
  cases remark with
  | empty => exact List.forall_mem_nil _
  | error other => exact List.forall_mem_singleton.mpr ⟨rfl, other⟩
  | dependency entry kind via => exact List.forall_mem_nil _

theorem Remark.imports_eq_nil (remark : first.Remark position) : first.imports = [] := by
  cases remark <;> rfl

theorem Remark.used_eq_nil (remark : first.Remark position) : first.used = [] := by
  cases remark <;> rfl

theorem AllAt.append (left : first.AllAt position) (right : second.AllAt position) :
    (first ++ second).AllAt position :=
  List.forall_mem_append.mpr ⟨left, right⟩

end Findings

/-- The dependency is on a primary unit of the library. -/
def Dependency.Rooted (library : Library) (dependency : Dependency) : Prop :=
  ∃ entry ∈ library.entries, entry.unit.isPrimary = true ∧ dependency.unit = entry.index

/-- All dependencies found are on primary units of the library. -/
def Findings.Rooted (library : Library) (found : Findings) : Prop :=
  ∀ dependency ∈ found.dependencies, dependency.Rooted library

namespace Findings.Rooted

variable {library : Library} {first second : Findings}

theorem of_eq_nil (nothing : first.dependencies = []) : first.Rooted library := by
  intro dependency member
  exact absurd (nothing ▸ member) List.not_mem_nil

theorem append (left : first.Rooted library) (right : second.Rooted library) :
    (first ++ second).Rooted library := by
  intro dependency member
  rcases List.mem_append.mp member with member | member
  · exact left dependency member
  · exact right dependency member

theorem dependency {name : Identifier} {entry : Entry} (found : library.primary? name = some entry)
    (kind : DependencyKind) (via : String) (position : Position) :
    (Findings.dependency entry kind via position).Rooted library := by
  obtain ⟨member, primary, -⟩ := Library.of_primary? found
  intro dependency present
  obtain rfl := List.mem_singleton.mp present
  exact ⟨entry, member, primary, rfl⟩

end Findings.Rooted

end VhdlOrder
