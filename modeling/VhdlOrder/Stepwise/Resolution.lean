import VhdlOrder.Stepwise.Context

/-! # Resolution by numbers

The declarations of a unit are resolved from place to place. The list of what is visible grows by the declaration at
a place and the literals or units behind it, and these are taken off the list again before the next place is looked
at. Every unit that an import, a prefix or a name leads to is fetched by its number. An unused import is reported at
the number of the unit that it stands in.
-/

namespace VhdlOrder

open Stepwise

namespace Catalog

/-! ## Names -/

/-- Where an item that is imported by name comes from. -/
def selectedOrigin? (catalog : Catalog) (item : SelectedImport) : Option Origin := do
  let unit ← catalog.library.unit? item.source.index
  return ⟨⟨catalog.library.name, [unit.name, item.name]⟩, false⟩

/-- The findings for a name that is imported by name. -/
def selected? (catalog : Catalog) (scope : Scope) (name : Identifier) (position : Position)
    (items : List SelectedImport) : Option Findings := do
  let sources := items.map fun item => item.source.index
  let others := (Lookup.providers scope name).filter fun provider => !sources.contains provider.1.source.index
  let declarations := items.flatMap SelectedImport.declarations ++ others.flatMap Prod.snd
  let origins := (← items.mapM catalog.selectedOrigin?) ++ others.map Lookup.allOrigin
  return .ofUse (items.filterMap SelectedImport.key)
    ++ Lookup.ambiguity name position (sources ++ others.map fun provider => provider.1.source.index) declarations
        origins

/-- The findings for a name behind the unit `number`; `rest` are the names behind the unit. -/
def inUnit? (catalog : Catalog) (reference : Reference) (number : Nat) (rest : List Identifier) :
    Option Findings := do
  let entry ← catalog.fetch number
  let found := Findings.dependency entry .name reference.name.render reference.position
  match rest.head? with
  | none => return found
  | some item =>
      if !entry.isPackage then return found
      else if Declaration.declares (← catalog.packageItems? number) item then return found
      else return .error (.notInPackage item (.ofIdentifier entry.unit.name)) reference.position

/-- The findings for a name with the working library in front; `parts` are the names behind it. -/
def inWorking? (catalog : Catalog) (reference : Reference) (parts : List Identifier) : Option Findings :=
  match parts.head? with
  | none => some .empty
  | some name => do
      match ← catalog.primary? name with
      | some entry => catalog.inUnit? reference entry.index (← slice? parts 1 parts.length)
      | none => return .error (.notInLibrary name catalog.library.name) reference.position

/-- The findings for a name that may have a prefix. -/
def expanded? (catalog : Catalog) (scope : Scope) (reference : Reference) : Option Findings := do
  let parts := reference.name.parts
  let first ← parts[0]?
  if !reference.name.isExpanded then return Lookup.predefined scope reference
  else if catalog.library.isWorking first then catalog.inWorking? reference (← slice? parts 1 parts.length)
  else
    match scope.prefixed? first with
    | some entry => catalog.inUnit? reference entry.index (← slice? parts 1 parts.length)
    | none =>
        if scope.hasLibrary first || scope.foreignPrefixes.any first.same then return .empty
        else return Lookup.predefined scope reference

/-- The findings for a name that is not declared in the unit. -/
def imported? (catalog : Catalog) (scope : Scope) (reference : Reference) : Option Findings := do
  let first ← reference.name.parts[0]?
  match Lookup.candidates scope first with
  | item :: items => catalog.selected? scope first reference.position (item :: items)
  | [] =>
      if scope.foreignNames.any first.same then return .empty
      else
        match Lookup.providers scope first with
        | provider :: more =>
            let found := provider :: more
            return Lookup.ambiguity first reference.position (found.map fun provider => provider.1.source.index)
              (found.flatMap Prod.snd) (found.map Lookup.allOrigin)
        | [] => catalog.expanded? scope reference

/-- The findings for a reference in the unit `number`, where the declarations `locals` are visible. -/
def lookup? (catalog : Catalog) (scope : Scope) (number : Nat) (locals : List Declaration) (reference : Reference) :
    Option Findings := do
  let first ← reference.name.parts[0]?
  if Declaration.declares locals first then return .empty
  else do
    let unit ← catalog.library.unit? number
    if unit.name.same first || unit.owner?.any first.same then return .empty
    else catalog.imported? scope reference

/-- The findings for several references. -/
def lookupAll? (catalog : Catalog) (scope : Scope) (number : Nat) (locals : List Declaration)
    (references : List Reference) : Option Findings := do
  return .flatten (← references.mapM (catalog.lookup? scope number locals))

/-! ## Declarations -/

/-- Makes the literal or unit at a place visible, and goes on behind it. -/
def ownRound (declarations : List Declaration) : Nat × List Declaration →
    Option (Round (Nat × List Declaration) (Nat × List Declaration))
  | (place, visible) =>
      match declarations[place]? with
      | none => some (.done (place, visible))
      | some next =>
          if next.kind.belongsToType then some (.again (place + 1, visible ++ [next]))
          else some (.done (place, visible))

/-- The declarations resolved so far: the place behind them, what is visible there, and what has been found. -/
structure Progress where
  place : Nat
  locals : List Declaration
  found : Findings

/-- Resolves the declaration at a place, and takes off the list of what is visible the literals or units behind it. -/
def declarationRound (catalog : Catalog) (scope : Scope) (number : Nat) (declarations : List Declaration)
    (progress : Progress) : Option (Round Progress (List Declaration × Findings)) :=
  let ⟨place, locals, found⟩ := progress
  match declarations[place]? with
  | none => some (.done (locals, found))
  | some declaration => do
      let (behind, visible) ←
        loop (ownRound declarations) (declarations.length + 1) (place + 1, locals ++ [declaration])
      let here ← catalog.lookupAll? scope number visible declaration.references
      let kept ← subtract? visible.length (← subtract? (← subtract? behind place) 1)
      return .again ⟨place + 1, visible.take kept,
        found ++ (here ++ Lookup.mentioned scope visible declaration)⟩

/-- What is visible behind some declarations, and the findings for them one after the other. -/
def declarations? (catalog : Catalog) (scope : Scope) (number : Nat) (locals declarations : List Declaration) :
    Option (List Declaration × Findings) :=
  loop (catalog.declarationRound scope number declarations) (declarations.length + 1) ⟨0, locals, .empty⟩

/-! ## Units -/

/-- The package that a package is an instance of, if there is one. -/
def template? (catalog : Catalog) (scope : Scope) (name : SelectedName) : Option (Option Entry) :=
  match name.parts with
  | [unit] =>
      match scope.prefixed? unit with
      | some entry => (catalog.fetch entry.index).map some
      | none => catalog.primary? unit
  | _ => catalog.workUnit? name

/-- What there is to say about the template of a package instance. -/
def templateFindings? (catalog : Catalog) (scope : Scope) (template : Reference) : Option Findings := do
  let name := template.name
  match ← catalog.template? scope name with
  | some entry =>
      if entry.isPackage then return .dependency entry .instantiation name.render template.position
      else return .error (.notPackage name) template.position
  | none =>
      let first ← name.parts[0]?
      if scope.hasLibrary first && !catalog.library.isWorking first then return .empty
      else return .error (.undeclaredPackage name) template.position

/-- The problems with the deferred constants of a package. -/
def constants? (catalog : Catalog) (level : Level) (number : Nat) : Option (List Finding) := do
  let unit ← catalog.library.unit? number
  let body := (← catalog.body? unit.name).map Entry.unit
  return unit.deferredConstants.filterMap (Constant.completion level unit.name body)
    ++ (Constant.inSubprograms unit.declarations).map Constant.misplaced

/-- The findings inside a package. -/
def insidePackage? (catalog : Catalog) (level : Level) (scope : Scope) (number : Nat) (references : List Reference)
    (generics declarations : List Declaration) : Option Findings := do
  let (locals, first) ← catalog.declarations? scope number [] generics
  let (locals, second) ← catalog.declarations? scope number locals declarations
  let third ← catalog.lookupAll? scope number locals references
  return first ++ second ++ third ++ { Findings.empty with problems := ← catalog.constants? level number }

/-- The findings inside a package body. -/
def insideBody? (catalog : Catalog) (scope : Scope) (number : Nat) (unit : DesignUnit)
    (declarations : List Declaration) : Option Findings := do
  let declared := (((← catalog.primary? unit.name).filter Entry.isPackage).map fun owner =>
    owner.unit.generics ++ owner.unit.declarations).getD []
  let (locals, first) ← catalog.declarations? scope number declared declarations
  let second ← catalog.lookupAll? scope number locals unit.references
  return first ++ second ++ { Findings.empty with problems := Constant.ofBody unit }

/-- The findings inside a unit. -/
def inside? (catalog : Catalog) (level : Level) (scope : Scope) (number : Nat) : Option Findings := do
  let unit ← catalog.library.unit? number
  match unit.contents with
  | .package _ _ (some template) => do
      let first ← catalog.templateFindings? scope template
      return first ++ (← catalog.lookupAll? scope number [] unit.references)
  | .package generics declarations none =>
      catalog.insidePackage? level scope number unit.references generics declarations
  | .packageBody declarations => catalog.insideBody? scope number unit declarations
  | .context clause => do return (← catalog.enter? scope clause none).2
  | _ =>
      catalog.lookupAll? scope number []
        (unit.references.filter fun reference => catalog.library.isWorking reference.name.first)

/-- All findings for a unit. -/
def findings? (catalog : Catalog) (level : Level) (number : Nat) : Option Findings := do
  let entry ← catalog.fetch number
  let (scope, found) ← catalog.scopeOf? entry
  return found ++ (← catalog.inside? level scope number)

/-- The resolution of a unit apart from unused imports. -/
def unitResolution? (catalog : Catalog) (number : Nat) (found : Findings) : Option UnitResolution := do
  let file ← catalog.library.fileOf? number
  return { dependencies := found.dependencies.filter fun dependency => dependency.unit != number
           diagnostics := found.problems.map fun finding =>
             .place finding.severity finding.problem file finding.position }

/-- Reports an unused import at the unit that it stands in. -/
def reportUnused? (catalog : Catalog) (units : List UnitResolution) (item : WatchedImport) :
    Option (List UnitResolution) := do
  let file ← catalog.library.fileOf? item.key.owner
  update? units item.key.owner fun unit =>
    { unit with diagnostics := unit.diagnostics ++ [.place .warning (.unusedImport item.name) file item.position] }

/-- Resolves all units. -/
def resolve? (catalog : Catalog) (checks : Checks) : Option Resolution := do
  let numbers := List.range catalog.library.size
  let found ← numbers.mapM (catalog.findings? checks.deferredConstants)
  let units ← (numbers.zip found).mapM fun (number, findings) => catalog.unitResolution? number findings
  let unused := if checks.unusedImports then Resolution.unusedImports (.flatten found) else []
  return ⟨← unused.foldlM catalog.reportUnused? units⟩

end Catalog

end VhdlOrder
