import VhdlOrder.Visibility.Finding

/-! # Package instances

An instance of a package declares what its template declares. The template may be an instance itself;
a chain of instances that leaves the library, reaches another kind of unit or comes back to itself
declares nothing.
-/

namespace VhdlOrder

namespace Library

/-- The primary unit that `pkg` or `work.pkg` names. -/
def workUnit? (library : Library) (name : SelectedName) : Option Entry :=
  match name.suffix with
  | [] => library.primary? name.first
  | [unit] => if library.isWorking name.first then library.primary? unit else none
  | _ => none

/-- The items of a package, where only units in `unvisited` are looked at. -/
def packageItemsWithin (library : Library) (unvisited : List Nat) (entry : Entry) :
    List Declaration :=
  if _ : entry.index ∈ unvisited then
    match entry.unit.contents with
    | .package _ declarations none => declarations
    | .package _ _ (some template) =>
        match library.workUnit? template.name with
        | some next => packageItemsWithin library (unvisited.erase entry.index) next
        | none => []
    | _ => []
  else []
termination_by unvisited.length
decreasing_by
  have shorter := List.length_erase_of_mem ‹entry.index ∈ unvisited›
  have nonempty := List.length_pos_of_mem ‹entry.index ∈ unvisited›
  omega

/-- The declarations that a package makes available. -/
def packageItems (library : Library) (entry : Entry) : List Declaration :=
  library.packageItemsWithin (List.range library.size) entry

end Library

end VhdlOrder
