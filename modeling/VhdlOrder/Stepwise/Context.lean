import VhdlOrder.Stepwise.Library
import VhdlOrder.Visibility.Resolution

/-! # Contexts by numbers

What a context makes visible is known by the numbers of the units that it comes from. A use clause is read by the
places of its parts, and the package that it names, the template of an instance, and the context declaration that a
reference names are fetched by their numbers.
-/

namespace VhdlOrder

open Stepwise

namespace Catalog

/-! ## Packages -/

/-- The primary unit that `pkg` or `work.pkg` names, if there is one. -/
def workUnit? (catalog : Catalog) (name : SelectedName) : Option (Option Entry) :=
  match name.parts with
  | [unit] => catalog.primary? unit
  | [library, unit] => if catalog.library.isWorking library then catalog.primary? unit else some none
  | _ => some none

/-- Goes on from an instance to its template, unless that has been seen. -/
def itemsRound (catalog : Catalog) : List Nat × Nat → Option (Round (List Nat × Nat) (List Declaration))
  | (seen, number) =>
      if seen.contains number then some (.done [])
      else do
        let unit ← catalog.library.unit? number
        match unit.contents with
        | .package _ declarations none => return .done declarations
        | .package _ _ (some template) =>
            match ← catalog.workUnit? template.name with
            | some next => return .again (number :: seen, next.index)
            | none => return .done []
        | _ => return .done []

/-- The declarations that a package makes available. -/
def packageItems? (catalog : Catalog) (number : Nat) : Option (List Declaration) :=
  loop catalog.itemsRound (catalog.library.size + 1) ([], number)

/-! ## Use clauses -/

/-- The names of the packages that a use clause goes down through, where `rest` are the names behind a unit: all of
them, or all but the last one, which is the name of an item. -/
def pathOf? (clause : UseClause) (rest : List Identifier) : Option (List Identifier) :=
  if clause.all then some rest else do slice? rest 0 (← subtract? rest.length 1)

/-- Makes visible what a use clause imports from the unit `number`, which the clause calls `name`; `rest` are the names
behind it. -/
def importFrom? (catalog : Catalog) (scope : Scope) (clause : UseClause) (key : Option ClauseKey) (number : Nat)
    (name : Identifier) (rest : List Identifier) : Option (Scope × Findings) := do
  let entry ← catalog.fetch number
  let depend := Findings.dependency entry .use clause.render clause.position
  if rest.isEmpty && !clause.all then return (scope.addPrefix name entry, depend)
  else if !entry.isPackage then return (scope, .error (.notPackage (.ofIdentifier name)) clause.position)
  else do
    let listed ← catalog.packageItems? number
    let path ← pathOf? clause rest
    match Scope.nestedItems listed path with
    | .error step => return (scope, depend ++ .error (.notPackage (.ofIdentifier step)) clause.position)
    | .ok items =>
        let package : SelectedName := ⟨catalog.library.name, name :: path⟩
        if clause.all then return (scope.addAll ⟨entry, package, items⟩, depend)
        else
          let item := clause.name.last
          let declarations := items.filter fun declaration => declaration.name.same item
          if declarations.isEmpty then return (scope, depend ++ .error (.notInPackage item package) clause.position)
          else return (scope.addSelected ⟨item, entry, declarations, key⟩, depend ++ .watched key clause)

/-- Makes the primary units of the working library visible as prefixes. -/
def addPrimaryUnits? (catalog : Catalog) (scope : Scope) : Option Scope :=
  (List.range catalog.library.size).foldlM (fun scope number => do
    let entry ← catalog.fetch number
    return if entry.unit.isPrimary then scope.addPrefix entry.unit.name entry else scope) scope

/-- Trusts a use clause that names another library. -/
def trust? (scope : Scope) (clause : UseClause) : Option Scope := do
  let parts := clause.name.parts
  match parts.length, clause.all with
  | 1, false => return scope
  | 1, true | 2, false =>
      return { scope with foreignPrefixes := scope.foreignPrefixes ++ [← last? parts] }
  | _, true => return { scope with foreignAll := true }
  | _, false =>
      return { scope with foreignNames := scope.foreignNames ++ [← last? parts] }

/-- Makes visible what a use clause that begins with the working library imports. -/
def useWorking? (catalog : Catalog) (scope : Scope) (clause : UseClause) (key : Option ClauseKey) :
    Option (Scope × Findings) :=
  let parts := clause.name.parts
  match parts[1]? with
  | none => do
      if clause.all then return (← catalog.addPrimaryUnits? scope, .empty)
      else return (scope, .empty)
  | some name => do
      match ← catalog.primary? name with
      | none => return (scope, .error (.notInLibrary name catalog.library.name) clause.position)
      | some entry => catalog.importFrom? scope clause key entry.index name (← slice? parts 2 parts.length)

/-- Makes visible what a use clause imports; `key` is there if the clause is watched. -/
def use? (catalog : Catalog) (scope : Scope) (clause : UseClause) (key : Option ClauseKey) :
    Option (Scope × Findings) := do
  let parts := clause.name.parts
  let first ← parts[0]?
  if catalog.library.isWorking first then catalog.useWorking? scope clause key
  else
    match scope.prefixed? first with
    | some entry =>
        let unit ← catalog.library.unit? entry.index
        catalog.importFrom? scope clause key entry.index unit.name (← slice? parts 1 parts.length)
    | none =>
        if scope.hasLibrary first then return (← trust? scope clause, .empty)
        else return (scope, .error (.undeclaredLibrary first) clause.position)

/-! ## References to context declarations -/

/-- The unit that a reference to a context declaration of the working library names, if there is one. -/
def target? (catalog : Catalog) (context : Reference) : Option (Option Entry) := do
  let parts := context.name.parts
  let first ← parts[0]?
  if catalog.library.isWorking first && parts.length == 2 then catalog.primary? (← parts[1]?)
  else return none

/-- The context declaration that an item refers to, and the items that it provides. -/
def provided? (catalog : Catalog) : ContextItem → Option (Option (Nat × List ContextItem))
  | .reference context => do
      match ← catalog.target? context with
      | some entry => return entry.unit.clause?.map fun clause => (entry.index, ContextItem.ofClause clause none)
      | none => return none
  | _ => some none

/-- Puts the items that context declarations provide behind the references to them; only declarations in `unvisited`
are put in. -/
def expandWithin? (catalog : Catalog) (unvisited : List Nat) : List ContextItem → Option (List ContextItem)
  | [] => some []
  | item :: rest =>
      match catalog.provided? item with
      | none => none
      | some none => (expandWithin? catalog unvisited rest).map (item :: ·)
      | some (some (index, items)) =>
          if _ : index ∈ unvisited then
            (expandWithin? catalog (unvisited.erase index) (items ++ rest)).map (item :: ·)
          else (expandWithin? catalog unvisited rest).map (item :: ·)
termination_by items => (unvisited.length, items.length)
decreasing_by
  · exact Prod.Lex.right _ (by simp)
  · have shorter := List.length_erase_of_mem ‹index ∈ unvisited›
    have nonempty := List.length_pos_of_mem ‹index ∈ unvisited›
    exact Prod.Lex.left _ _ (by omega)
  · exact Prod.Lex.right _ (by simp)

/-- What there is to say about a reference to a context declaration. -/
def referenceFindings? (catalog : Catalog) (scope : Scope) (context : Reference) : Option Findings := do
  let name := context.name
  let first ← name.parts[0]?
  if !catalog.library.isWorking first then
    if scope.hasLibrary first then return .empty
    else return .error (.undeclaredLibrary first) context.position
  else
    match ← catalog.target? context with
    | some entry =>
        if entry.unit.kind == .context then return .dependency entry .context name.render context.position
        else return .error (.notContext name) context.position
    | none => return .error (.undeclaredContext name) context.position

/-- Makes visible what an item names. -/
def applyItem? (catalog : Catalog) (scope : Scope) : ContextItem → Option (Scope × Findings)
  | .library name => some (scope.addLibrary name, .empty)
  | .reference context => do return (scope, ← catalog.referenceFindings? scope context)
  | .use clause key => catalog.use? scope clause key

/-- Makes visible what the items name, one after the other. -/
def applyItems? (catalog : Catalog) (scope : Scope) : List ContextItem → Option (Scope × Findings)
  | [] => some (scope, .empty)
  | item :: rest => do
      let (scope, first) ← catalog.applyItem? scope item
      let (scope, more) ← applyItems? catalog scope rest
      return (scope, first ++ more)

/-- Makes visible what a context clause names; its use clauses are watched if `owner` is given. -/
def enter? (catalog : Catalog) (scope : Scope) (clause : ContextClause) (owner : Option Nat) :
    Option (Scope × Findings) := do
  let items ← catalog.expandWithin? (List.range catalog.library.size) (ContextItem.ofClause clause owner)
  catalog.applyItems? scope items

/-- The primary unit that a unit completes or configures, if the library has it. -/
def ownerOf? (catalog : Catalog) (unit : DesignUnit) : Option (Option Entry) :=
  match unit.contents with
  | .packageBody _ => do return (← catalog.primary? unit.name).filter Entry.isPackage
  | .architecture entity | .configuration entity => do return (← catalog.primary? entity).filter Entry.isEntity
  | _ => some none

/-- What a unit sees of its primary unit. -/
def enterOwner? (catalog : Catalog) (unit : DesignUnit) : Option (Scope × Findings) := do
  match ← catalog.ownerOf? unit with
  | none => return (.start, .empty)
  | some owner =>
      let via := ((unit.owner?).map Identifier.render).getD ""
      let depend := Findings.dependency owner .primary via unit.position
      if unit.kind == .configuration then return (.start, depend)
      else do
        let (scope, found) ← catalog.enter? .start owner.unit.context (some owner.index)
        return (scope, depend ++ found)

/-- The scope that the names in a unit are looked up in. -/
def scopeOf? (catalog : Catalog) (entry : Entry) : Option (Scope × Findings) := do
  let (scope, first) ← catalog.enterOwner? entry.unit
  let owner := if Resolution.watchesContext entry.unit then some entry.index else none
  let (scope, second) ← catalog.enter? scope entry.unit.context owner
  return (scope, first ++ second)

end Catalog

end VhdlOrder
