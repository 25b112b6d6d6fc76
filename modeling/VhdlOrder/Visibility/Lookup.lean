import VhdlOrder.Visibility.Context
import VhdlOrder.Visibility.Standard

/-! # Looking up names

A reference is looked up by its leading name. Declarations of the unit itself hide everything else, then
come the names of the unit and of the unit that it completes, items imported by name, items of packages
all of whose items are imported, prefixes, and at last the predefined names. Items of one name from two
packages are ambiguous unless all of them may be overloaded.
-/

namespace VhdlOrder

namespace Lookup

/-- Whether some of the numbers differ. -/
def differ : List Nat → Bool
  | [] => false
  | first :: rest => rest.any fun other => other != first

/-- Whether all declarations may be visible side by side. -/
def allOverloadable (declarations : List Declaration) : Bool :=
  declarations.all fun declaration => declaration.kind.isOverloadable

/-- What an import of all items declares under the name, if it declares something. -/
def provider? (name : Identifier) (item : AllImport) : Option (AllImport × List Declaration) :=
  let found := item.items.filter fun declaration => declaration.name.same name
  if found.isEmpty then none else some (item, found)

/-- The imports of all items that declare the name, and what they declare. -/
def providers (scope : Scope) (name : Identifier) : List (AllImport × List Declaration) :=
  scope.all.filterMap (provider? name)

/-- The imports by name of the name. -/
def candidates (scope : Scope) (name : Identifier) : List SelectedImport :=
  scope.selected.filter fun item => item.name.same name

/-- Where an item that is imported by name comes from. -/
def selectedOrigin (library : Library) (item : SelectedImport) : Origin :=
  ⟨⟨library.name, [item.source.unit.name, item.name]⟩, false⟩

/-- Where an item comes from that is imported together with all others. -/
def allOrigin (provider : AllImport × List Declaration) : Origin := ⟨provider.1.package, true⟩

/-- An error if the name comes from several units and not all that it means may be overloaded. -/
def ambiguity (name : Identifier) (position : Position) (sources : List Nat)
    (declarations : List Declaration) (origins : List Origin) : Findings :=
  if differ sources && !allOverloadable declarations then .error (.ambiguous name origins) position
  else .empty

/-- The findings for a name that is imported by name. Imports of all items count too if they are from
another unit. -/
def selected (library : Library) (scope : Scope) (name : Identifier) (position : Position)
    (items : List SelectedImport) : Findings :=
  let sources := items.map fun item => item.source.index
  let others := (providers scope name).filter fun provider => !sources.contains provider.1.source.index
  let declarations :=
    items.flatMap SelectedImport.declarations ++ others.flatMap Prod.snd
  let origins := items.map (selectedOrigin library) ++ others.map allOrigin
  .ofUse (items.filterMap SelectedImport.key)
    ++ ambiguity name position (sources ++ others.map fun provider => provider.1.source.index)
        declarations origins

/-- The findings for a name behind the unit `entry`; `rest` are the names behind the unit. -/
def inUnit (library : Library) (reference : Reference) (entry : Entry) (rest : List Identifier) :
    Findings :=
  let found := Findings.dependency entry .name reference.name.render reference.position
  match rest.head? with
  | some item =>
      if entry.isPackage && !Declaration.declares (library.packageItems entry) item then
        .error (.notInPackage item (.ofIdentifier entry.unit.name)) reference.position
      else found
  | none => found

/-- The findings for a name with the working library in front; `rest` are the names behind it. -/
def inWorking (library : Library) (reference : Reference) : List Identifier → Findings
  | [] => .empty
  | name :: rest =>
      match library.primary? name with
      | some entry => inUnit library reference entry rest
      | none => .error (.notInLibrary name library.name) reference.position

/-- The findings for a name that nothing in scope declares but that may be predefined. -/
def predefined (scope : Scope) (reference : Reference) : Findings :=
  if Standard.declares reference.name.first || scope.foreignAll then .empty
  else .error (.undeclared reference.name.first) reference.position

/-- The findings for a name that may have a prefix. -/
def expanded (library : Library) (scope : Scope) (reference : Reference) : Findings :=
  let first := reference.name.first
  if !reference.name.isExpanded then predefined scope reference
  else if library.isWorking first then inWorking library reference reference.name.suffix
  else
    match scope.prefixed? first with
    | some entry => inUnit library reference entry reference.name.suffix
    | none =>
        if scope.hasLibrary first || scope.foreignPrefixes.any first.same then .empty
        else predefined scope reference

/-- The findings for a name that is not declared in the unit. -/
def imported (library : Library) (scope : Scope) (reference : Reference) : Findings :=
  let first := reference.name.first
  match candidates scope first with
  | item :: items => selected library scope first reference.position (item :: items)
  | [] =>
      if scope.foreignNames.any first.same then .empty
      else
        match providers scope first with
        | provider :: more =>
            let found := provider :: more
            ambiguity first reference.position (found.map fun provider => provider.1.source.index)
              (found.flatMap Prod.snd) (found.map allOrigin)
        | [] => expanded library scope reference

/-- The findings for a reference in the unit `unit`, where the declarations `locals` are visible. -/
def find (library : Library) (scope : Scope) (unit : DesignUnit) (locals : List Declaration)
    (reference : Reference) : Findings :=
  let first := reference.name.first
  if Declaration.declares locals first then .empty
  else if unit.name.same first || unit.owner?.any first.same then .empty
  else imported library scope reference

/-- The findings for several references. -/
def findAll (library : Library) (scope : Scope) (unit : DesignUnit) (locals : List Declaration)
    (references : List Reference) : Findings :=
  .flatten (references.map (find library scope unit locals))

/-- The use clauses that the statements of a declaration show to be of use. -/
def mentioned (scope : Scope) (locals : List Declaration) (declaration : Declaration) : Findings :=
  let outside :=
    declaration.allMentions.filter fun name => !Declaration.declares locals name
  .ofUse (outside.flatMap fun name => (candidates scope name).filterMap SelectedImport.key)

/-- The findings for declarations one after the other. Each sees `locals`, the declarations before it,
itself, and the literals or units that belong to it. -/
def declarations (library : Library) (scope : Scope) (unit : DesignUnit) (locals : List Declaration) :
    List Declaration → Findings
  | [] => .empty
  | declaration :: rest =>
      let own := rest.takeWhile fun next => next.kind.belongsToType
      let visible := locals ++ declaration :: own
      findAll library scope unit visible declaration.references
        ++ mentioned scope visible declaration
        ++ declarations library scope unit (locals ++ [declaration]) rest

end Lookup

end VhdlOrder
