import VhdlOrder.Visibility.Scope

/-! # What a use clause does

A use clause that names a unit of the library makes the unit a prefix, imports all items of a package, or imports
one of them by name, unless it is faulty. Before that the first name decides: the working library, a prefix in
scope, or another library. What holds of all use clauses is shown for each of these cases.
-/

namespace VhdlOrder.Scope

variable {library : Library} {scope : Scope} {clause : UseClause} {key : Option ClauseKey} {entry : Entry}
  {name : Identifier}

/-- What a use clause can do that names the unit `entry` by `name`. -/
inductive ImportOutcome (library : Library) (scope : Scope) (clause : UseClause) (key : Option ClauseKey)
    (entry : Entry) (name : Identifier) : Scope × Findings → Prop
  | unit : ImportOutcome library scope clause key entry name
      (scope.addPrefix name entry, .dependency entry .use clause.render clause.position)
  | notPackage : entry.isPackage = false → ImportOutcome library scope clause key entry name
      (scope, .error (.notPackage (.ofIdentifier name)) clause.position)
  | noPackage {step : Identifier} : ImportOutcome library scope clause key entry name
      (scope, .dependency entry .use clause.render clause.position
        ++ .error (.notPackage (.ofIdentifier step)) clause.position)
  | noItem {package : SelectedName} : ImportOutcome library scope clause key entry name
      (scope, .dependency entry .use clause.render clause.position
        ++ .error (.notInPackage clause.name.last package) clause.position)
  | all {package : SelectedName} {path : List Identifier} {items : List Declaration} :
      nestedItems (library.packageItems entry) path = .ok items →
        ImportOutcome library scope clause key entry name
          (scope.addAll ⟨entry, package, items⟩, .dependency entry .use clause.render clause.position)
  | item {path : List Identifier} {items : List Declaration} : clause.all = false →
      nestedItems (library.packageItems entry) path = .ok items →
        ImportOutcome library scope clause key entry name
          (scope.addSelected
              ⟨clause.name.last, entry, items.filter fun item => item.name.same clause.name.last, key⟩,
            .dependency entry .use clause.render clause.position ++ .watched key clause)

theorem importOutcome_importFrom (rest : List Identifier) :
    ImportOutcome library scope clause key entry name (importFrom library scope clause key entry name rest) := by
  unfold importFrom
  dsimp only
  split
  · exact .unit
  · split
    · rename_i notPackage
      exact .notPackage (by simpa using notPackage)
    · split
      · exact .noPackage
      · rename_i items nested
        split
        · exact .all nested
        · rename_i notAll
          split
          · exact .noItem
          · exact .item (Bool.not_eq_true _ ▸ notAll) nested

/-- What a use clause can do. -/
inductive UseOutcome (library : Library) (scope : Scope) (clause : UseClause) (key : Option ClauseKey) :
    Scope × Findings → Prop
  | nothing : library.isWorking clause.name.first = true → UseOutcome library scope clause key (scope, .empty)
  | units : library.isWorking clause.name.first = true →
      UseOutcome library scope clause key (addPrimaryUnits library scope, .empty)
  | missing {name : Identifier} : library.isWorking clause.name.first = true →
      UseOutcome library scope clause key (scope, .error (.notInLibrary name library.name) clause.position)
  | working {entry : Entry} {name : Identifier} {result : Scope × Findings} :
      library.isWorking clause.name.first = true → library.primary? name = some entry →
        ImportOutcome library scope clause key entry name result → UseOutcome library scope clause key result
  | prefixed {entry : Entry} {result : Scope × Findings} : library.isWorking clause.name.first = false →
      scope.prefixed? clause.name.first = some entry →
        ImportOutcome library scope clause key entry entry.unit.name result →
          UseOutcome library scope clause key result
  | trusted : library.isWorking clause.name.first = false → scope.prefixed? clause.name.first = none →
      scope.hasLibrary clause.name.first = true → UseOutcome library scope clause key (scope.trust clause, .empty)
  | undeclared : library.isWorking clause.name.first = false → scope.prefixed? clause.name.first = none →
      scope.hasLibrary clause.name.first = false →
        UseOutcome library scope clause key (scope, .error (.undeclaredLibrary clause.name.first) clause.position)

theorem useOutcome_use (library : Library) (scope : Scope) (clause : UseClause) (key : Option ClauseKey) :
    UseOutcome library scope clause key (scope.use library clause key) := by
  unfold use
  dsimp only
  split
  · rename_i isWorking
    unfold useWorking
    split
    · split
      · exact .units isWorking
      · exact .nothing isWorking
    · split
      · exact .missing isWorking
      · rename_i entry found
        exact .working isWorking found (importOutcome_importFrom _)
  · rename_i notWorking
    have isForeign : library.isWorking clause.name.first = false := by simpa using notWorking
    split
    · rename_i entry found
      exact .prefixed isForeign found (importOutcome_importFrom _)
    · rename_i none
      split
      · rename_i declared
        exact .trusted isForeign none declared
      · rename_i notDeclared
        exact .undeclared isForeign none (by simpa using notDeclared)

end VhdlOrder.Scope
