import VhdlOrder.Visibility.Instance

/-! # Scopes

A scope holds the names that the context of a unit makes visible: libraries, units that may stand in
front of a point, items imported by name, and packages all of whose items are imported. Libraries other
than the working one are not read, so what is imported from them is taken on trust.
-/

namespace VhdlOrder

/-- An item imported by name: what the package `source` declares under the name. The key is there if
the use clause is watched. -/
structure SelectedImport where
  name : Identifier
  source : Entry
  declarations : List Declaration
  key : Option ClauseKey

/-- All items of the package `package`, which is the unit `source` or stands in it. -/
structure AllImport where
  source : Entry
  package : SelectedName
  items : List Declaration

/-- The names that a context makes visible, in the order in which they are. The last three fields are
about other libraries: items imported by name, names that may stand in front of a point, and whether
all items of some package are imported. -/
structure Scope where
  libraries : List Identifier
  prefixes : List (Identifier × Entry)
  selected : List SelectedImport
  all : List AllImport
  foreignNames : List Identifier
  foreignPrefixes : List Identifier
  foreignAll : Bool

namespace Scope

/-- The scope of a unit without a context clause. -/
def start : Scope := ⟨[.basic "std"], [], [], [], [], [], false⟩

/-- Whether a library of that name is declared. -/
def hasLibrary (scope : Scope) (name : Identifier) : Bool := scope.libraries.any name.same

/-- The unit that the name stands for in front of a point. -/
def prefixed? (scope : Scope) (name : Identifier) : Option Entry :=
  (scope.prefixes.find? fun entry => entry.1.same name).map Prod.snd

def addLibrary (scope : Scope) (name : Identifier) : Scope :=
  { scope with libraries := scope.libraries ++ [name] }

def addPrefix (scope : Scope) (name : Identifier) (entry : Entry) : Scope :=
  { scope with prefixes := scope.prefixes ++ [(name, entry)] }

def addSelected (scope : Scope) (item : SelectedImport) : Scope :=
  { scope with selected := scope.selected ++ [item] }

def addAll (scope : Scope) (item : AllImport) : Scope := { scope with all := scope.all ++ [item] }

/-- Trusts a use clause that names another library: a name of two parts, or a library with `.all`, is
good for a prefix; longer names import an item or all items. -/
def trust (scope : Scope) (clause : UseClause) : Scope :=
  match clause.name.suffix, clause.all with
  | [], false => scope
  | [], true | [_], false =>
      { scope with foreignPrefixes := scope.foreignPrefixes ++ [clause.name.last] }
  | _, true => { scope with foreignAll := true }
  | _, false => { scope with foreignNames := scope.foreignNames ++ [clause.name.last] }

/-- The items of a package nested in another one with the items `items`, down the path of names; the
error is the first name that is no package. -/
def nestedItems (items : List Declaration) : List Identifier → Except Identifier (List Declaration)
  | [] => .ok items
  | step :: path =>
      match items.find? fun item => item.name.same step && item.kind == .package with
      | some nested => nestedItems nested.locals path
      | none => .error step

/-- Makes visible what a use clause imports from the unit `entry`, which the clause calls `name`; `rest`
are the names behind it. -/
def importFrom (library : Library) (scope : Scope) (clause : UseClause) (key : Option ClauseKey)
    (entry : Entry) (name : Identifier) (rest : List Identifier) : Scope × Findings :=
  let depend := Findings.dependency entry .use clause.render clause.position
  if rest.isEmpty && !clause.all then (scope.addPrefix name entry, depend)
  else if !entry.isPackage then
    (scope, .error (.notPackage (.ofIdentifier name)) clause.position)
  else
    let path := if clause.all then rest else rest.dropLast
    match nestedItems (library.packageItems entry) path with
    | .error step => (scope, depend ++ .error (.notPackage (.ofIdentifier step)) clause.position)
    | .ok items =>
        let package : SelectedName := ⟨library.name, name :: path⟩
        if clause.all then (scope.addAll ⟨entry, package, items⟩, depend)
        else
          let item := clause.name.last
          let declarations := items.filter fun declaration => declaration.name.same item
          if declarations.isEmpty then
            (scope, depend ++ .error (.notInPackage item package) clause.position)
          else
            (scope.addSelected ⟨item, entry, declarations, key⟩, depend ++ .watched key clause)

/-- Makes the primary units of the working library visible as prefixes. -/
def addPrimaryUnits (library : Library) (scope : Scope) : Scope :=
  let primaries := library.entries.filter fun entry => entry.unit.isPrimary
  primaries.foldl (fun scope entry => scope.addPrefix entry.unit.name entry) scope

/-- Makes visible what a use clause that begins with the working library imports; `rest` are the names
behind the library. -/
def useWorking (library : Library) (scope : Scope) (clause : UseClause) (key : Option ClauseKey) :
    List Identifier → Scope × Findings
  | [] => (if clause.all then addPrimaryUnits library scope else scope, .empty)
  | name :: rest =>
      match library.primary? name with
      | none => (scope, .error (.notInLibrary name library.name) clause.position)
      | some entry => importFrom library scope clause key entry name rest

/-- Makes visible what a use clause imports; `key` is there if the clause is watched. -/
def use (library : Library) (scope : Scope) (clause : UseClause) (key : Option ClauseKey) :
    Scope × Findings :=
  let first := clause.name.first
  if library.isWorking first then useWorking library scope clause key clause.name.suffix
  else
    match scope.prefixed? first with
    | some entry => importFrom library scope clause key entry entry.unit.name clause.name.suffix
    | none =>
        if scope.hasLibrary first then (scope.trust clause, .empty)
        else (scope, .error (.undeclaredLibrary first) clause.position)

end Scope

end VhdlOrder
