import Mathlib.Data.List.Forall2
import VhdlOrder.Proofs.Library.Correspondence
import VhdlOrder.Proofs.Visibility.Clauses
import VhdlOrder.Proofs.Visibility.Scope

/-! # Contexts of corresponding libraries

What is looked up in a library is found under corresponding names in every library that corresponds to it. Here
this is shown for what the context of a unit makes visible and for what is found at it: both correspond, with
problems that name the same things and dependencies on the corresponding units at the same places. The text that
a dependency cites is the same if no name is spelled in another way.
-/

namespace VhdlOrder

/-! ## Findings -/

def Origin.respell (f : Respelling) (origin : Origin) : Origin := ⟨origin.name.respell f, origin.all⟩

/-- The problem with the names in it spelled in another way. -/
def Problem.respell (f : Respelling) : Problem → Problem
  | .bodyWithoutPackage name => .bodyWithoutPackage (f name)
  | .missingEntity kind name entity => .missingEntity kind (f name) (f entity)
  | .undeclaredLibrary name => .undeclaredLibrary (f name)
  | .undeclaredContext name => .undeclaredContext (name.respell f)
  | .notContext name => .notContext (name.respell f)
  | .undeclaredPackage name => .undeclaredPackage (name.respell f)
  | .notPackage name => .notPackage (name.respell f)
  | .notInLibrary name library => .notInLibrary (f name) (f library)
  | .notInPackage name package => .notInPackage (f name) (package.respell f)
  | .undeclared name => .undeclared (f name)
  | .ambiguous name origins => .ambiguous (f name) (origins.map (Origin.respell f))
  | .unusedImport name => .unusedImport (name.respell f)
  | .constantWithoutBody name package => .constantWithoutBody (f name) (f package)
  | .constantWithoutValue name package => .constantWithoutValue (f name) (f package)
  | .constantOutsidePackage name => .constantOutsidePackage (f name)
  | other => other

theorem Problem.respell_keep (problem : Problem) : problem.respell .keep = problem := by
  have origins (items : List Origin) : items.map (Origin.respell .keep) = items := by
    have each : Origin.respell .keep = id := by
      funext origin
      simp [Origin.respell]
    rw [each, List.map_id]
  cases problem <;> simp [respell, origins]

def Finding.respell (f : Respelling) (finding : Finding) : Finding :=
  ⟨finding.severity, finding.problem.respell f, finding.position⟩

/-- The use clause that a key corresponds to. -/
def ClauseKey.image (c : Correspondence) (key : ClauseKey) : ClauseKey := ⟨c.number key.owner, key.number⟩

theorem ClauseKey.image_injective (c : Correspondence) : Function.Injective (ClauseKey.image c) := by
  intro first second same
  obtain ⟨owners, numbers⟩ := ClauseKey.mk.inj same
  exact ClauseKey.mk.injEq .. ▸ ⟨c.number.injective owners, numbers⟩

def WatchedImport.image (c : Correspondence) (item : WatchedImport) : WatchedImport :=
  ⟨item.key.image c, item.name.respell c.spelling, item.position⟩

/-- The second dependency is on the unit that corresponds to that of the first one, for the same reason and at the
same place. -/
structure Dependency.Corresponds (c : Correspondence) (first second : Dependency) : Prop where
  unit : second.unit = c.number first.unit
  kind : second.kind = first.kind
  via : c.spelling = .keep → second.via = first.via
  position : second.position = first.position

/-- What is found in the second library corresponds to what is found in the first one. -/
structure Findings.Corresponds (c : Correspondence) (first second : Findings) : Prop where
  dependencies : List.Forall₂ (Dependency.Corresponds c) first.dependencies second.dependencies
  problems : second.problems = first.problems.map (Finding.respell c.spelling)
  imports : second.imports = first.imports.map (WatchedImport.image c)
  used : second.used = first.used.map (ClauseKey.image c)

variable {c : Correspondence}

namespace Findings.Corresponds

variable {first second first' second' : Findings}

theorem empty : Findings.empty.Corresponds c .empty := ⟨.nil, rfl, rfl, rfl⟩

theorem append (left : first.Corresponds c second) (right : first'.Corresponds c second') :
    (first ++ first').Corresponds c (second ++ second') :=
  ⟨List.rel_append left.dependencies right.dependencies, by simp [left.problems, right.problems],
    by simp [left.imports, right.imports], by simp [left.used, right.used]⟩

theorem error {problem : Problem} {position : Position} :
    (Findings.error problem position).Corresponds c (.error (problem.respell c.spelling) position) :=
  ⟨.nil, rfl, rfl, rfl⟩

theorem dependency {entry : Entry} {kind : DependencyKind} {via via' : String} {position : Position}
    (text : c.spelling = .keep → via' = via) :
    (Findings.dependency entry kind via position).Corresponds c (.dependency (entry.image c) kind via' position) :=
  ⟨.cons ⟨rfl, rfl, text, rfl⟩ .nil, rfl, rfl, rfl⟩

theorem ofUse {keys : List ClauseKey} :
    (Findings.ofUse keys).Corresponds c (.ofUse (keys.map (ClauseKey.image c))) :=
  ⟨.nil, rfl, rfl, rfl⟩

theorem watched {key : Option ClauseKey} {clause : UseClause} :
    (Findings.watched key clause).Corresponds c
      (.watched (key.map (ClauseKey.image c)) (clause.respell c.spelling)) := by
  refine ⟨.nil, rfl, ?_, rfl⟩
  cases key <;> rfl

theorem flatten {parts parts' : List Findings} (each : List.Forall₂ (Findings.Corresponds c) parts parts') :
    (Findings.flatten parts).Corresponds c (.flatten parts') := by
  induction each with
  | nil => exact .empty
  | cons here _ ih => exact here.append ih

end Findings.Corresponds

theorem SelectedName.render_respell_of_keep {f : Respelling} (isKeep : f = .keep) (name : SelectedName) :
    (name.respell f).render = name.render := by rw [isKeep, SelectedName.respell_keep]

theorem UseClause.render_respell_of_keep {f : Respelling} (isKeep : f = .keep) (clause : UseClause) :
    (clause.respell f).render = clause.render := by rw [isKeep, UseClause.respell_keep]

/-! ## Packages -/

variable {first second : Library} {entry : Entry}

theorem mem_of_perm_map {unvisited unvisited' : List Nat} (perm : unvisited'.Perm (unvisited.map c.number))
    {index : Nat} : c.number index ∈ unvisited' ↔ index ∈ unvisited := by
  rw [perm.mem_iff, List.mem_map_of_injective c.number.injective]

theorem erase_perm_map {unvisited unvisited' : List Nat} (perm : unvisited'.Perm (unvisited.map c.number))
    (index : Nat) : (unvisited'.erase (c.number index)).Perm ((unvisited.erase index).map c.number) := by
  rw [List.map_erase c.number.injective]
  exact perm.erase _

theorem Library.Corresponds.packageItemsWithin (same : first.Corresponds c second) {unvisited unvisited' : List Nat}
    (perm : unvisited'.Perm (unvisited.map c.number)) :
    second.packageItemsWithin unvisited' (entry.image c) =
      (first.packageItemsWithin unvisited entry).map (Declaration.respell c.spelling) := by
  have visits (entry : Entry) {unvisited unvisited' : List Nat} (perm : unvisited'.Perm (unvisited.map c.number)) :
      (entry.image c).index ∈ unvisited' ↔ entry.index ∈ unvisited := mem_of_perm_map perm
  induction unvisited, entry using packageItemsWithin.induct first generalizing unvisited' with
  | case1 unvisited entry fresh generics declarations contents =>
    rw [Library.packageItemsWithin, Library.packageItemsWithin, dif_pos fresh, dif_pos ((visits entry perm).mpr fresh)]
    simp [contents, UnitContents.respell]
  | case2 unvisited entry fresh generics declarations template contents next named ih =>
    rw [Library.packageItemsWithin, Library.packageItemsWithin, dif_pos fresh, dif_pos ((visits entry perm).mpr fresh)]
    simp only [contents, UnitContents.respell, Entry.unit_image, DesignUnit.contents_respell, Option.map_some,
      Reference.name_respell, same.workUnit?, named]
    exact ih (erase_perm_map perm _)
  | case3 unvisited entry fresh generics declarations template contents unnamed =>
    rw [Library.packageItemsWithin, Library.packageItemsWithin, dif_pos fresh, dif_pos ((visits entry perm).mpr fresh)]
    simp [contents, UnitContents.respell, same.workUnit?, unnamed]
  | case4 unvisited entry fresh plain derived =>
    rw [Library.packageItemsWithin, Library.packageItemsWithin, dif_pos fresh, dif_pos ((visits entry perm).mpr fresh),
      Entry.unit_image, DesignUnit.contents_respell]
    cases contents : entry.unit.contents with
    | package generics declarations template =>
      cases template with
      | none => exact (plain generics declarations contents).elim
      | some template => exact (derived generics declarations template contents).elim
    | _ => rfl
  | case5 unvisited entry visited =>
    rw [Library.packageItemsWithin, Library.packageItemsWithin, dif_neg visited, dif_neg (mt (visits entry perm).mp visited)]
    rfl

/-- Corresponding packages declare corresponding items. -/
theorem Library.Corresponds.packageItems (same : first.Corresponds c second) (entry : Entry) :
    second.packageItems (entry.image c) = (first.packageItems entry).map (Declaration.respell c.spelling) :=
  same.packageItemsWithin same.perm_range

/-! ## Scopes -/

def SelectedImport.image (c : Correspondence) (item : SelectedImport) : SelectedImport :=
  ⟨c.spelling item.name, item.source.image c, item.declarations.map (Declaration.respell c.spelling),
    item.key.map (ClauseKey.image c)⟩

def AllImport.image (c : Correspondence) (item : AllImport) : AllImport :=
  ⟨item.source.image c, item.package.respell c.spelling, item.items.map (Declaration.respell c.spelling)⟩

/-- The second scope makes visible what corresponds to what the first one makes visible. The prefixes may stand in
another order, but they stand for corresponding units. -/
structure Scope.Corresponds (c : Correspondence) (first second : Scope) : Prop where
  hasLibrary : ∀ name, second.hasLibrary (c.spelling name) = first.hasLibrary name
  prefixed? : ∀ name, second.prefixed? (c.spelling name) = (first.prefixed? name).map (Entry.image c)
  selected : second.selected = first.selected.map (SelectedImport.image c)
  all : second.all = first.all.map (AllImport.image c)
  foreignNames : second.foreignNames = first.foreignNames.map c.spelling
  foreignPrefixes : second.foreignPrefixes = first.foreignPrefixes.map c.spelling
  foreignAll : second.foreignAll = first.foreignAll

/-- Both the scopes and what is found correspond. -/
structure Scope.ResultCorresponds (c : Correspondence) (first second : Scope × Findings) : Prop where
  scope : first.1.Corresponds c second.1
  findings : first.2.Corresponds c second.2

namespace Scope

variable {scope scope' : Scope}

theorem corresponds_start : start.Corresponds c start :=
  ⟨fun name => by simp [hasLibrary, start], fun _ => rfl, rfl, rfl, rfl, rfl, rfl⟩

@[simp] theorem nestedItems_map (f : Respelling) (items : List Declaration) (path : List Identifier) :
    nestedItems (items.map (Declaration.respell f)) (path.map f) =
      ((nestedItems items path).map (List.map (Declaration.respell f))).mapError f := by
  induction path generalizing items with
  | nil => rfl
  | cons step rest ih =>
    simp only [List.map_cons, nestedItems, List.find?_map, Function.comp_def, Declaration.name_respell,
      Declaration.kind_respell, Respelling.same_left, Respelling.same_right]
    cases items.find? fun item => item.name.same step && item.kind == .package with
    | none => rfl
    | some nested => simpa using ih nested.locals

namespace Corresponds

variable (scopes : scope.Corresponds c scope')

include scopes

theorem addLibrary (name : Identifier) : (scope.addLibrary name).Corresponds c (scope'.addLibrary (c.spelling name)) := by
  refine { scopes with hasLibrary := fun other => ?_ }
  have before := scopes.hasLibrary other
  simp only [Scope.hasLibrary, Scope.addLibrary, List.any_append] at before ⊢
  rw [before]
  simp

theorem addPrefixes {prefixes prefixes' : List (Identifier × Entry)}
    (agree : ∀ name, (prefixes'.find? fun entry => entry.1.same (c.spelling name)).map Prod.snd =
      ((prefixes.find? fun entry => entry.1.same name).map Prod.snd).map (Entry.image c)) :
    Scope.Corresponds c { scope with prefixes := scope.prefixes ++ prefixes }
      { scope' with prefixes := scope'.prefixes ++ prefixes' } := by
  refine { scopes with prefixed? := fun name => ?_ }
  rw [Backed.prefixed?_append, Backed.prefixed?_append, scopes.prefixed?, agree]
  cases scope.prefixed? name <;> rfl

theorem addPrefix (name : Identifier) (entry : Entry) :
    (scope.addPrefix name entry).Corresponds c (scope'.addPrefix (c.spelling name) (entry.image c)) := by
  apply scopes.addPrefixes
  intro other
  simp only [List.find?_cons, List.find?_nil, Respelling.same_left, Respelling.same_right]
  cases name.same other <;> rfl

theorem addSelected (item : SelectedImport) :
    (scope.addSelected item).Corresponds c (scope'.addSelected (item.image c)) :=
  { scopes with selected := by simp [Scope.addSelected, scopes.selected] }

theorem addAll (item : AllImport) : (scope.addAll item).Corresponds c (scope'.addAll (item.image c)) :=
  { scopes with all := by simp [Scope.addAll, scopes.all] }

theorem trust (clause : UseClause) : (scope.trust clause).Corresponds c (scope'.trust (clause.respell c.spelling)) := by
  have prefixes : Scope.Corresponds c
      { scope with foreignPrefixes := scope.foreignPrefixes ++ [clause.name.last] }
      { scope' with foreignPrefixes := scope'.foreignPrefixes ++ [c.spelling clause.name.last] } :=
    { scopes with foreignPrefixes := by simp [scopes.foreignPrefixes] }
  have names : Scope.Corresponds c
      { scope with foreignNames := scope.foreignNames ++ [clause.name.last] }
      { scope' with foreignNames := scope'.foreignNames ++ [c.spelling clause.name.last] } :=
    { scopes with foreignNames := by simp [scopes.foreignNames] }
  have everything : Scope.Corresponds c { scope with foreignAll := true } { scope' with foreignAll := true } :=
    { scopes with foreignAll := rfl }
  unfold Scope.trust
  rw [UseClause.name_respell, UseClause.all_respell, SelectedName.suffix_respell, SelectedName.last_respell]
  match clause.name.suffix, clause.all with
  | [], false => exact scopes
  | [], true => exact prefixes
  | [_], false => exact prefixes
  | [_], true => exact everything
  | _ :: _ :: _, false => exact names
  | _ :: _ :: _, true => exact everything

theorem addPrimaryUnits (same : first.Corresponds c second) :
    (Scope.addPrimaryUnits first scope).Corresponds c (Scope.addPrimaryUnits second scope') := by
  rw [addPrimaryUnits_eq, addPrimaryUnits_eq]
  apply scopes.addPrefixes
  intro name
  rw [find?_primaryPrefixes, find?_primaryPrefixes, same.primary?]

/-- A use clause imports corresponding items from corresponding units. -/
theorem importFrom (same : first.Corresponds c second) (clause : UseClause) (key : Option ClauseKey) (entry : Entry)
    (name : Identifier) (rest : List Identifier) :
    ResultCorresponds c (Scope.importFrom first scope clause key entry name rest)
      (Scope.importFrom second scope' (clause.respell c.spelling) (key.map (ClauseKey.image c)) (entry.image c)
        (c.spelling name) (rest.map c.spelling)) := by
  have depend : (Findings.dependency entry .use clause.render clause.position).Corresponds c
      (.dependency (entry.image c) .use (clause.respell c.spelling).render clause.position) :=
    .dependency fun isKeep => UseClause.render_respell_of_keep isKeep clause
  have package (path : List Identifier) : (⟨second.name, c.spelling name :: path.map c.spelling⟩ : SelectedName) =
      SelectedName.respell c.spelling ⟨first.name, name :: path⟩ := by
    rw [same.name]
    rfl
  obtain ⟨named, all, position⟩ := clause
  unfold Scope.importFrom
  cases all with
  | true =>
    simp only [UseClause.respell, List.isEmpty_map, Entry.isPackage_image, same.packageItems, Bool.not_true,
      Bool.and_false, Bool.false_eq_true, if_false, if_true, nestedItems_map]
    split
    · exact ⟨scopes, .error⟩
    · cases nestedItems (first.packageItems entry) rest with
      | error step => exact ⟨scopes, depend.append .error⟩
      | ok items => exact ⟨package rest ▸ scopes.addAll ⟨entry, _, items⟩, depend⟩
  | false =>
    simp only [UseClause.respell, List.isEmpty_map, Entry.isPackage_image, same.packageItems, Bool.not_false,
      Bool.and_true, Bool.false_eq_true, if_false, ← List.map_dropLast, nestedItems_map, SelectedName.last_respell]
    split
    · exact ⟨scopes.addPrefix name entry, depend⟩
    · split
      · exact ⟨scopes, .error⟩
      · cases nestedItems (first.packageItems entry) rest.dropLast with
        | error step => exact ⟨scopes, depend.append .error⟩
        | ok items =>
          have chosen : (items.map (Declaration.respell c.spelling)).filter
              (fun declaration => declaration.name.same (c.spelling named.last)) =
                (items.filter fun declaration => declaration.name.same named.last).map
                  (Declaration.respell c.spelling) := by
            simp [List.filter_map, Function.comp_def]
          simp only [Except.map, Except.mapError, chosen, List.isEmpty_map, package]
          split
          · exact ⟨scopes, depend.append .error⟩
          · exact ⟨scopes.addSelected ⟨named.last, entry, _, key⟩, depend.append .watched⟩

theorem useWorking (same : first.Corresponds c second) (clause : UseClause) (key : Option ClauseKey)
    (names : List Identifier) :
    ResultCorresponds c (Scope.useWorking first scope clause key names)
      (Scope.useWorking second scope' (clause.respell c.spelling) (key.map (ClauseKey.image c))
        (names.map c.spelling)) := by
  cases names with
  | nil =>
    obtain ⟨named, all, position⟩ := clause
    cases all with
    | true => exact ⟨scopes.addPrimaryUnits same, .empty⟩
    | false => exact ⟨scopes, .empty⟩
  | cons name rest =>
    simp only [List.map_cons, Scope.useWorking, same.primary?]
    cases first.primary? name with
    | none => exact ⟨scopes, same.name ▸ .error⟩
    | some entry => exact scopes.importFrom same clause key entry name rest

/-- A use clause makes corresponding items visible. -/
theorem use (same : first.Corresponds c second) (clause : UseClause) (key : Option ClauseKey) :
    ResultCorresponds c (Scope.use first scope clause key)
      (Scope.use second scope' (clause.respell c.spelling) (key.map (ClauseKey.image c))) := by
  simp only [Scope.use, UseClause.name_respell, SelectedName.first_respell, SelectedName.suffix_respell,
    same.isWorking, scopes.prefixed?, scopes.hasLibrary]
  split
  · exact scopes.useWorking same clause key clause.name.suffix
  · cases scope.prefixed? clause.name.first with
    | some entry => exact scopes.importFrom same clause key entry entry.unit.name clause.name.suffix
    | none =>
      simp only [Option.map_none]
      split
      · exact ⟨scopes.trust clause, .empty⟩
      · exact ⟨scopes, .error⟩

end Corresponds

end Scope

/-! ## Contexts -/

namespace ContextItem

/-- The item that a context item corresponds to. -/
def image (c : Correspondence) : ContextItem → ContextItem
  | .library name => .library (c.spelling name)
  | .reference context => .reference (context.respell c.spelling)
  | .use clause key => .use (clause.respell c.spelling) (key.map (ClauseKey.image c))

theorem ofUses_image (c : Correspondence) (owner : Option Nat) (number : Nat) (uses : List UseClause) :
    ofUses (owner.map c.number) number (uses.map (UseClause.respell c.spelling)) =
      (ofUses owner number uses).map (image c) := by
  induction uses generalizing number with
  | nil => rfl
  | cons clause rest ih =>
    simp only [List.map_cons, ofUses, ih, image, Option.map_map]
    rfl

theorem ofClause_image (c : Correspondence) (clause : ContextClause) (owner : Option Nat) :
    ofClause (clause.respell c.spelling) (owner.map c.number) = (ofClause clause owner).map (image c) := by
  simp only [ofClause, ContextClause.respell, ofUses_image, List.map_append, List.map_map]
  rfl

variable (same : first.Corresponds c second)

include same

theorem target?_respell (context : Reference) :
    target? second (context.respell c.spelling) = (target? first context).map (Entry.image c) := by
  obtain ⟨⟨leading, suffix⟩, position⟩ := context
  match suffix with
  | [] => rfl
  | [name] =>
    simp only [target?, Reference.respell, SelectedName.respell, List.map_cons, List.map_nil, same.isWorking,
      same.primary?]
    split <;> rfl
  | _ :: _ :: _ => rfl

theorem provided?_image (item : ContextItem) :
    provided? second (item.image c) =
      (provided? first item).map fun provided => (c.number provided.1, provided.2.map (image c)) := by
  cases item with
  | library name => rfl
  | use clause key => rfl
  | reference context =>
    simp only [image, provided?, target?_respell same]
    cases target? first context with
    | none => rfl
    | some entry =>
      simp only [Option.map_some, Entry.unit_image, DesignUnit.clause?_respell, Entry.index_image, Option.map_map]
      congr 1
      funext clause
      exact congrArg _ (ofClause_image c clause none)

theorem expandWithin_image {unvisited unvisited' : List Nat} (perm : unvisited'.Perm (unvisited.map c.number))
    (items : List ContextItem) :
    expandWithin second unvisited' (items.map (image c)) = (expandWithin first unvisited items).map (image c) := by
  induction unvisited, items using expandWithin.induct first generalizing unvisited' with
  | case1 unvisited => simp only [List.map_nil, expandWithin]
  | case2 unvisited item rest index more opens fresh ih =>
    rw [List.map_cons, expandWithin, expandWithin]
    simp only [provided?_image same, opens, Option.map_some, dif_pos fresh, dif_pos ((mem_of_perm_map perm).mpr fresh),
      ← List.map_append, ih (erase_perm_map perm index), List.map_cons]
  | case3 unvisited item rest index more opens visited ih =>
    rw [List.map_cons, expandWithin, expandWithin]
    simp only [provided?_image same, opens, Option.map_some, dif_neg visited,
      dif_neg (mt (mem_of_perm_map perm).mp visited), ih perm, List.map_cons]
  | case4 unvisited item rest closed ih =>
    rw [List.map_cons, expandWithin, expandWithin]
    simp only [provided?_image same, closed, Option.map_none, ih perm, List.map_cons]

theorem expand_image (items : List ContextItem) :
    expand second (items.map (image c)) = (expand first items).map (image c) :=
  expandWithin_image same same.perm_range items

variable {scope scope' : Scope} (scopes : scope.Corresponds c scope')

include scopes

theorem corresponds_referenceFindings (context : Reference) :
    (referenceFindings first scope context).Corresponds c
      (referenceFindings second scope' (context.respell c.spelling)) := by
  simp only [referenceFindings, Reference.name_respell, SelectedName.first_respell, same.isWorking, scopes.hasLibrary,
    target?_respell same, Reference.position_respell]
  split
  · split
    · exact .empty
    · exact .error
  · cases target? first context with
    | none => exact .error
    | some entry =>
      simp only [Option.map_some, Entry.unit_image, DesignUnit.kind_respell]
      split
      · exact .dependency fun isKeep => SelectedName.render_respell_of_keep isKeep _
      · exact .error

theorem corresponds_apply (item : ContextItem) :
    Scope.ResultCorresponds c (item.apply first scope) ((item.image c).apply second scope') := by
  cases item with
  | library name => exact ⟨scopes.addLibrary name, .empty⟩
  | reference context => exact ⟨scopes, corresponds_referenceFindings same scopes context⟩
  | use clause key => exact scopes.use same clause key

omit scopes in
theorem corresponds_applyAll (items : List ContextItem) (scopes : scope.Corresponds c scope') :
    Scope.ResultCorresponds c (applyAll first scope items) (applyAll second scope' (items.map (image c))) := by
  induction items generalizing scope scope' with
  | nil => exact ⟨scopes, .empty⟩
  | cons item rest ih =>
    have here := corresponds_apply same scopes item
    have behind := ih here.scope
    exact ⟨behind.scope, here.findings.append behind.findings⟩

end ContextItem

/-- Corresponding context clauses make corresponding names visible. -/
theorem Scope.Corresponds.enter {scope scope' : Scope} (scopes : scope.Corresponds c scope')
    (same : first.Corresponds c second) (clause : ContextClause) (owner : Option Nat) :
    ResultCorresponds c (scope.enter first clause owner)
      (scope'.enter second (clause.respell c.spelling) (owner.map c.number)) := by
  rw [Scope.enter, Scope.enter, ContextItem.ofClause_image, ContextItem.expand_image same]
  exact ContextItem.corresponds_applyAll same _ scopes

namespace Resolution

variable (same : first.Corresponds c second)

include same

theorem ownerOf?_respell (unit : DesignUnit) :
    ownerOf? second (unit.respell c.spelling) = (ownerOf? first unit).map (Entry.image c) := by
  have entity (name : Identifier) : (second.primary? (c.spelling name)).filter Entry.isEntity =
      ((first.primary? name).filter Entry.isEntity).map (Entry.image c) := by
    rw [same.primary?]
    cases first.primary? name <;> simp [Option.filter, apply_ite]
  unfold ownerOf?
  rw [DesignUnit.contents_respell]
  cases unit.contents with
  | packageBody declarations => exact same.package? unit.name
  | architecture owner => exact entity owner
  | configuration owner => exact entity owner
  | _ => rfl

theorem corresponds_enterOwner (unit : DesignUnit) :
    Scope.ResultCorresponds c (enterOwner first unit) (enterOwner second (unit.respell c.spelling)) := by
  unfold enterOwner
  rw [ownerOf?_respell same]
  cases ownerOf? first unit with
  | none => exact ⟨Scope.corresponds_start, .empty⟩
  | some owner =>
    have depend : (Findings.dependency owner .primary ((unit.owner?.map Identifier.render).getD "")
        unit.position).Corresponds c (.dependency (owner.image c) .primary
          (((unit.respell c.spelling).owner?.map Identifier.render).getD "") unit.position) := by
      refine .dependency fun isKeep => ?_
      rw [isKeep, DesignUnit.respell_keep]
    have entered := Scope.corresponds_start.enter same owner.unit.context (some owner.index)
    simp only [Option.map_some, DesignUnit.kind_respell]
    split
    · exact ⟨Scope.corresponds_start, depend⟩
    · exact ⟨entered.scope, depend.append entered.findings⟩

omit same in
theorem watcher?_image (c : Correspondence) (entry : Entry) : watcher? (entry.image c) = (watcher? entry).map c.number := by
  have watches : watchesContext (entry.image c).unit = watchesContext entry.unit := by simp [watchesContext]
  unfold watcher?
  rw [watches]
  cases watchesContext entry.unit <;> rfl

/-- The names in corresponding units are looked up in corresponding scopes. -/
theorem corresponds_scopeOf (entry : Entry) :
    Scope.ResultCorresponds c (scopeOf first entry) (scopeOf second (entry.image c)) := by
  have owner := corresponds_enterOwner same entry.unit
  have own := owner.scope.enter same entry.unit.context (watcher? entry)
  rw [scopeOf_eq, scopeOf_eq, watcher?_image]
  exact ⟨own.scope, owner.findings.append own.findings⟩

end Resolution

end VhdlOrder
