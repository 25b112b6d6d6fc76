import VhdlOrder.Proofs.Visibility.Undeclared

/-! # What use clauses supply

A use clause supplies, under a name, what a package of the library declares: it imports one item by name or all items
at once, and the package may be nested in another one. The imports in the scope of a unit are exactly what the use
clauses supply that are entered for the unit, and the names that are taken on trust are those of items which use
clauses import from packages of other libraries.
-/

namespace VhdlOrder

/-- A package: the unit that it stands in, and the names of the nested packages that lead to it, in the spelling that
does not depend on the case of letters. -/
structure PackagePlace where
  source : Entry
  path : List (Bool × List Char)

/-- What an import makes visible under a name: `declarations` of the package that `path` leads to in the unit `source`.
The import is one of all items if `whole` is set, and else one by name. -/
structure Supply where
  whole : Bool
  source : Entry
  path : List Identifier
  declarations : List Declaration

def Supply.place (supply : Supply) : PackagePlace := ⟨supply.source, supply.path.map Identifier.key⟩

section

variable {library : Library} {scope : Scope} {use : UseClause} {key : Option ClauseKey} {name : Identifier}
  {whole : Bool} {source entry : Entry} {declarations : List Declaration}

/-! ## What a use clause supplies -/

namespace UseClause

/-- The use clause names the unit `entry` first, behind the library or as a prefix; `rest` are the names behind it. -/
inductive BeginsWith (library : Library) (scope : Scope) (use : UseClause) : Entry → List Identifier → Prop
  | working {entry : Entry} {first : Identifier} {rest : List Identifier} :
      library.isWorking use.name.first = true → use.name.suffix = first :: rest →
        library.primary? first = some entry → BeginsWith library scope use entry rest
  | prefixed {entry : Entry} : library.isWorking use.name.first = false →
      scope.prefixed? use.name.first = some entry → BeginsWith library scope use entry use.name.suffix

/-- What the use clause makes visible under the name: what the package declares under it that all its names lead to,
or for an import by name all but the last one. -/
structure Supplies (library : Library) (scope : Scope) (use : UseClause) (name : Identifier) (supply : Supply) :
    Prop where
  whole : supply.whole = use.all
  begins : use.BeginsWith library scope supply.source
    (if use.all then supply.path else supply.path ++ [use.name.last])
  isPackage : supply.source.isPackage = true
  last : use.all = false → use.name.last.same name = true
  declares : ∃ items, Scope.nestedItems (library.packageItems supply.source) supply.path = .ok items ∧
    supply.declarations = Lookup.named name items
  nonempty : supply.declarations ≠ []

/-- The use clause imports the item of that name from a package of another library, which the scope declares. -/
structure NamesForeign (library : Library) (scope : Scope) (use : UseClause) (name : Identifier) : Prop where
  isForeign : library.isWorking use.name.first = false
  unprefixed : scope.prefixed? use.name.first = none
  isDeclared : scope.hasLibrary use.name.first = true
  single : use.all = false
  long : 2 ≤ use.name.suffix.length
  last : name.same use.name.last = true

theorem BeginsWith.unique {other : Entry} {rest more : List Identifier}
    (begins : use.BeginsWith library scope entry rest) (also : use.BeginsWith library scope other more) :
    other = entry ∧ more = rest := by
  cases begins with
  | working isWorking suffix found =>
    cases also with
    | working _ suffix' found' =>
      rw [suffix] at suffix'
      cases suffix'
      rw [found] at found'
      exact ⟨(Option.some.inj found').symm, rfl⟩
    | prefixed isForeign _ => simp [isForeign] at isWorking
  | prefixed isForeign found =>
    cases also with
    | working isWorking _ _ => simp [isForeign] at isWorking
    | prefixed _ found' =>
      rw [found] at found'
      exact ⟨(Option.some.inj found').symm, rfl⟩

/-- The last name of a use clause is the last one behind the unit, if there is one behind it. -/
theorem BeginsWith.dropLast_append {rest : List Identifier} (begins : use.BeginsWith library scope entry rest)
    (nonempty : rest ≠ []) : rest.dropLast ++ [use.name.last] = rest := by
  have last : use.name.last = rest.getLast nonempty := by
    cases begins with
    | working _ suffix => simp [SelectedName.last, suffix, List.getLast?_cons, List.getLast?_eq_some_getLast nonempty]
    | prefixed => simp [SelectedName.last, List.getLast?_eq_some_getLast nonempty]
  rw [last, List.dropLast_append_getLast]

end UseClause

/-! ## Imports of a name -/

/-- The items of one name are those of any other spelling of it. -/
theorem Lookup.named_congr {items : List Declaration} {other : Identifier} (same : name.same other = true) :
    Lookup.named name items = Lookup.named other items := by
  unfold Lookup.named
  congr 1
  funext declaration
  rw [Bool.eq_iff_iff, Identifier.same_iff, Identifier.same_iff, Identifier.same_iff.mp same]

namespace Scope

/-- An import in the scope supplies the declarations of the unit `source` under the name, by name or together with all
items of a package. -/
inductive Provides (scope : Scope) (name : Identifier) : Bool → Entry → List Declaration → Prop
  | selected {item : SelectedImport} : item ∈ scope.selected → item.name.same name = true →
      Provides scope name false item.source item.declarations
  | all {item : AllImport} : item ∈ scope.all → Lookup.named name item.items ≠ [] →
      Provides scope name true item.source (Lookup.named name item.items)

theorem not_provides_start : ¬ start.Provides name whole source declarations := by
  rintro (⟨member, -⟩ | ⟨member, -⟩) <;> exact absurd member List.not_mem_nil

theorem provides_congr {other : Scope} (selected : other.selected = scope.selected) (all : other.all = scope.all) :
    other.Provides name whole source declarations ↔ scope.Provides name whole source declarations := by
  constructor
  · rintro (⟨member, same⟩ | ⟨member, nonempty⟩)
    · exact .selected (selected ▸ member) same
    · exact .all (all ▸ member) nonempty
  · rintro (⟨member, same⟩ | ⟨member, nonempty⟩)
    · exact .selected (selected ▸ member) same
    · exact .all (all ▸ member) nonempty

theorem provides_addSelected {item : SelectedImport} :
    (scope.addSelected item).Provides name whole source declarations ↔
      scope.Provides name whole source declarations ∨
        (whole, source, declarations) = (false, item.source, item.declarations) ∧ item.name.same name = true := by
  constructor
  · rintro (⟨member, same⟩ | ⟨member, nonempty⟩)
    · rcases List.mem_append.mp member with old | new
      · exact .inl (.selected old same)
      · obtain rfl := List.mem_singleton.mp new
        exact .inr ⟨rfl, same⟩
    · exact .inl (.all member nonempty)
  · rintro ((⟨member, same⟩ | ⟨member, nonempty⟩) | ⟨new, same⟩)
    · exact .selected (List.mem_append_left _ member) same
    · exact .all member nonempty
    · cases new
      exact .selected (List.mem_append_right _ List.mem_cons_self) same

theorem provides_addAll {item : AllImport} :
    (scope.addAll item).Provides name whole source declarations ↔
      scope.Provides name whole source declarations ∨
        (whole, source, declarations) = (true, item.source, Lookup.named name item.items) ∧
          Lookup.named name item.items ≠ [] := by
  constructor
  · rintro (⟨member, same⟩ | ⟨member, nonempty⟩)
    · exact .inl (.selected member same)
    · rcases List.mem_append.mp member with old | new
      · exact .inl (.all old nonempty)
      · obtain rfl := List.mem_singleton.mp new
        exact .inr ⟨rfl, nonempty⟩
  · rintro ((⟨member, same⟩ | ⟨member, nonempty⟩) | ⟨new, nonempty⟩)
    · exact .selected member same
    · exact .all (List.mem_append_left _ member) nonempty
    · cases new
      exact .all (List.mem_append_right _ List.mem_cons_self) nonempty

/-- A use clause that begins with a unit supplies what the names `path` behind the unit lead to. -/
theorem exists_supplies_iff {path : List Identifier}
    (begins : use.BeginsWith library scope entry (if use.all then path else path ++ [use.name.last])) :
    (∃ path, use.Supplies library scope name ⟨whole, source, path, declarations⟩) ↔
      (whole, source) = (use.all, entry) ∧ entry.isPackage = true ∧ (use.all = false → use.name.last.same name = true) ∧
        (∃ items, nestedItems (library.packageItems entry) path = .ok items ∧
          declarations = Lookup.named name items) ∧ declarations ≠ [] := by
  constructor
  · rintro ⟨other, supplies⟩
    obtain ⟨rfl, rest⟩ := begins.unique supplies.begins
    obtain rfl : other = path := by cases all : use.all <;> simpa [all] using rest
    exact ⟨congrArg (·, _) supplies.whole, supplies.isPackage, supplies.last, supplies.declares, supplies.nonempty⟩
  · rintro ⟨same, isPackage, last, declares, nonempty⟩
    cases same
    exact ⟨path, rfl, begins, isPackage, last, declares, nonempty⟩

/-- The names behind the unit that an import leads along: all of them, or all but the last one. -/
theorem exists_path_of_beginsWith {rest : List Identifier} (begins : use.BeginsWith library scope entry rest)
    (imports : (rest.isEmpty && !use.all) = false) :
    ∃ path, rest = (if use.all then path else path ++ [use.name.last]) ∧
      (if use.all then rest else rest.dropLast) = path := by
  cases all : use.all with
  | true => exact ⟨rest, rfl, rfl⟩
  | false =>
    have nonempty : rest ≠ [] := fun empty => by simp [empty, all] at imports
    exact ⟨rest.dropLast, (begins.dropLast_append nonempty).symm, rfl⟩

/-- A use clause that names a unit adds the imports that it supplies. -/
theorem provides_importFrom {rest : List Identifier} (begins : use.BeginsWith library scope entry rest)
    (called : Identifier) :
    (importFrom library scope use key entry called rest).1.Provides name whole source declarations ↔
      scope.Provides name whole source declarations ∨
        ∃ path, use.Supplies library scope name ⟨whole, source, path, declarations⟩ := by
  unfold importFrom
  cases imports : rest.isEmpty && !use.all with
  | true =>
    rw [Bool.and_eq_true, List.isEmpty_iff, Bool.not_eq_true'] at imports
    obtain ⟨rfl, single⟩ := imports
    rw [if_pos rfl, or_iff_left]
    · exact provides_congr rfl rfl
    · rintro ⟨path, supplies⟩
      simpa [single] using (begins.unique supplies.begins).2
  | false =>
    obtain ⟨path, isPath, along⟩ := exists_path_of_beginsWith begins imports
    rw [isPath] at begins
    rw [exists_supplies_iff begins]
    simp only [Bool.false_eq_true, if_false, along]
    cases entry.isPackage with
    | false => simp
    | true =>
      cases nestedItems (library.packageItems entry) path with
      | error step => simp
      | ok items =>
        cases use.all with
        | true =>
          simp only [Bool.not_true, Bool.false_eq_true, if_false, if_true, provides_addAll]
          refine or_congr_right ⟨?_, ?_⟩
          · rintro ⟨same, nonempty⟩
            cases same
            exact ⟨rfl, trivial, nofun, ⟨items, rfl, rfl⟩, nonempty⟩
          · rintro ⟨same, -, -, ⟨_, found, rfl⟩, nonempty⟩
            cases same
            cases found
            exact ⟨rfl, nonempty⟩
        | false =>
          simp only [Bool.not_true, Bool.false_eq_true, if_false]
          split
          · rename_i noItem
            rw [or_iff_left]
            rintro ⟨-, -, isNamed, ⟨_, found, rfl⟩, nonempty⟩
            cases found
            rw [← Lookup.named_congr (isNamed trivial)] at nonempty
            exact nonempty (List.isEmpty_iff.mp noItem)
          · rename_i isItem
            rw [provides_addSelected]
            refine or_congr_right ⟨?_, ?_⟩
            · rintro ⟨same, isNamed⟩
              cases same
              exact ⟨rfl, trivial, fun _ => isNamed, ⟨items, rfl, Lookup.named_congr isNamed⟩,
                fun empty => isItem (List.isEmpty_iff.mpr empty)⟩
            · rintro ⟨same, -, isNamed, ⟨_, found, rfl⟩, -⟩
              cases same
              cases found
              rw [← Lookup.named_congr (isNamed trivial)]
              exact ⟨rfl, isNamed trivial⟩

/-- A use clause adds the imports that it supplies. -/
theorem provides_use (use : UseClause) (key : Option ClauseKey) :
    (scope.use library use key).1.Provides name whole source declarations ↔
      scope.Provides name whole source declarations ∨
        ∃ path, use.Supplies library scope name ⟨whole, source, path, declarations⟩ := by
  have unchanged {other : Scope} (selected : other.selected = scope.selected) (all : other.all = scope.all)
      (noUnit : ∀ entry rest, ¬ use.BeginsWith library scope entry rest) :
      other.Provides name whole source declarations ↔ scope.Provides name whole source declarations ∨
        ∃ path, use.Supplies library scope name ⟨whole, source, path, declarations⟩ := by
    rw [provides_congr selected all, or_iff_left]
    exact fun ⟨path, supplies⟩ => noUnit _ _ supplies.begins
  unfold Scope.use
  dsimp only
  split
  · rename_i isWorking
    unfold useWorking
    split
    · rename_i suffix
      have noUnit : ∀ entry rest, ¬ use.BeginsWith library scope entry rest := by
        rintro entry rest (⟨-, suffix', -⟩ | ⟨isForeign, -⟩)
        · rw [suffix] at suffix'
          cases suffix'
        · simp [isForeign] at isWorking
      dsimp only
      split
      · exact unchanged (by rw [addPrimaryUnits_eq]) (by rw [addPrimaryUnits_eq]) noUnit
      · exact unchanged rfl rfl noUnit
    · rename_i first rest suffix
      split
      · rename_i missing
        refine unchanged rfl rfl ?_
        rintro entry rest (⟨-, suffix', found⟩ | ⟨isForeign, -⟩)
        · rw [suffix] at suffix'
          cases suffix'
          simp [missing] at found
        · simp [isForeign] at isWorking
      · rename_i entry found
        exact provides_importFrom (.working isWorking suffix found) _
  · rename_i notWorking
    have isForeign : library.isWorking use.name.first = false := by simpa using notWorking
    split
    · rename_i entry found
      exact provides_importFrom (.prefixed isForeign found) _
    · rename_i unprefixed
      have noUnit : ∀ entry rest, ¬ use.BeginsWith library scope entry rest := by
        rintro entry rest (⟨isWorking, -⟩ | ⟨-, found⟩)
        · exact notWorking isWorking
        · simp [unprefixed] at found
      split
      · unfold trust
        split <;> exact unchanged rfl rfl noUnit
      · exact unchanged rfl rfl noUnit

/-- A nested package is found by each spelling of the path to it. -/
theorem nestedItems_congr {items found : List Declaration} {path other : List Identifier}
    (same : path.map Identifier.key = other.map Identifier.key) (isFound : nestedItems items path = .ok found) :
    nestedItems items other = .ok found := by
  induction path generalizing items other with
  | nil =>
    obtain rfl : other = [] := by simpa using same.symm
    exact isFound
  | cons step rest ih =>
    obtain ⟨step', rest', rfl, sameStep, sameRest⟩ := List.map_eq_cons_iff.mp same.symm
    have alike (item : Declaration) : item.name.same step' = item.name.same step := by
      rw [Bool.eq_iff_iff, Identifier.same_iff, Identifier.same_iff, sameStep]
    unfold nestedItems at isFound ⊢
    simp only [alike]
    split at isFound
    · exact ih sameRest.symm isFound
    · cases isFound

theorem foreignNames_trust (use : UseClause) :
    (scope.trust use).foreignNames.any name.same = true ↔ scope.foreignNames.any name.same = true ∨
      use.all = false ∧ 2 ≤ use.name.suffix.length ∧ name.same use.name.last = true := by
  have long (named : use.name.suffix ≠ []) (behind : ∀ head, use.name.suffix ≠ [head]) :
      2 ≤ use.name.suffix.length := by
    rcases suffix : use.name.suffix with - | ⟨first, - | ⟨second, rest⟩⟩
    · exact absurd suffix named
    · exact absurd suffix (behind first)
    · simp
  unfold trust
  split <;> simp_all

theorem ImportOutcome.foreignNames {called : Identifier} {result : Scope × Findings}
    (outcome : ImportOutcome library scope use key entry called result) :
    result.1.foreignNames = scope.foreignNames := by
  cases outcome <;> rfl

/-- A use clause has the name taken on trust if it imports an item of that name from a package of another library. -/
theorem foreignNames_use (use : UseClause) (key : Option ClauseKey) :
    (scope.use library use key).1.foreignNames.any name.same = true ↔
      scope.foreignNames.any name.same = true ∨ use.NamesForeign library scope name := by
  refine (holds_use_iff_of_trust (fun scope => scope.foreignNames.any name.same = true) use key
    (fun imported => by rw [imported.foreignNames]) (fun _ => Iff.rfl) (foreignNames_trust use)).trans
    (or_congr_right ?_)
  constructor
  · rintro ⟨leads, single, long, last⟩
    exact ⟨leads.isForeign, leads.unprefixed, leads.isDeclared, single, long, last⟩
  · exact fun names => ⟨⟨names.isForeign, names.unprefixed, names.isDeclared⟩, names.single, names.long, names.last⟩

end Scope

namespace Resolution

variable {reader : Entry} {first second : Supply}

/-! ## What is supplied for a unit -/

/-- A use clause that is entered for the unit supplies declarations under the name. -/
def Supplies (library : Library) (reader : Entry) (name : Identifier) (supply : Supply) : Prop :=
  ∃ scope use key, Applies library reader scope (.use use key) ∧ use.Supplies library scope name supply

/-- For the unit, a use clause is entered that imports an item of that name from a package of another library. -/
def NamesOutside (library : Library) (reader : Entry) (name : Identifier) : Prop :=
  ∃ scope use key, Applies library reader scope (.use use key) ∧ use.NamesForeign library scope name

/-- An import of all items that is written in front of the unit supplies what the package declares under the name. -/
theorem supplies_of_own {use : UseClause} {called : Identifier} {path : List Identifier}
    (isOwn : use ∈ reader.unit.context.uses) (all : use.all = true)
    (isWorking : library.isWorking use.name.first = true) (suffix : use.name.suffix = called :: path)
    (found : library.primary? called = some source) (isPackage : source.isPackage = true)
    (declares : ∃ items, Scope.nestedItems (library.packageItems source) path = .ok items ∧
      declarations = Lookup.named name items)
    (nonempty : declarations ≠ []) : Supplies library reader name ⟨true, source, path, declarations⟩ := by
  obtain ⟨scope, key, applies⟩ := Sees.own.exists_applies_use isOwn
  refine ⟨scope, use, key, applies, all.symm, ?_, isPackage, by simp [all], declares, nonempty⟩
  rw [if_pos all]
  exact .working isWorking suffix found

/-- The imports in the scope of a unit are what use clauses supply that are entered for it. -/
theorem provides_scopeOf_iff (noContext : reader.unit.clause? = none) :
    (scopeOf library reader).1.Provides name whole source declarations ↔
      ∃ path, Supplies library reader name ⟨whole, source, path, declarations⟩ := by
  rw [holds_scopeOf_iff_use (fun scope => scope.Provides name whole source declarations)
    (fun _ => Scope.provides_use) (fun _ _ => Scope.provides_congr rfl rfl) Scope.not_provides_start noContext]
  constructor
  · rintro ⟨scope, use, key, applies, path, supplies⟩
    exact ⟨path, scope, use, key, applies, supplies⟩
  · rintro ⟨path, scope, use, key, applies, supplies⟩
    exact ⟨scope, use, key, applies, path, supplies⟩

theorem foreignNames_scopeOf (noContext : reader.unit.clause? = none) :
    (scopeOf library reader).1.foreignNames.any name.same = true ↔ NamesOutside library reader name :=
  holds_scopeOf_iff_use (fun scope => scope.foreignNames.any name.same = true) (fun _ => Scope.foreignNames_use)
    (fun _ _ => Iff.rfl) Bool.false_ne_true noContext

/-- What is supplied depends on the package only. -/
theorem Supplies.declarations_eq (isFirst : Supplies library reader name first)
    (isSecond : Supplies library reader name second) (same : first.place = second.place) :
    first.declarations = second.declarations := by
  obtain ⟨_, _, _, _, supplies⟩ := isFirst
  obtain ⟨_, _, _, _, supplies'⟩ := isSecond
  obtain ⟨items, found, isNamed⟩ := supplies.declares
  obtain ⟨items', found', isNamed'⟩ := supplies'.declares
  rw [Supply.place, Supply.place, PackagePlace.mk.injEq] at same
  rw [same.1] at found
  cases (Scope.nestedItems_congr same.2 found).symm.trans found'
  rw [isNamed, isNamed']

end Resolution

end

end VhdlOrder
