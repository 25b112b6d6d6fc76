import VhdlOrder.Proofs.Visibility.Offences
import VhdlOrder.Proofs.Visibility.Watched

/-! # The names that make imports be of use

A use clause is of use where a name occurs that it imports: as the first name of a reference that is looked
up, or among the names that statements mention, also those of subprograms inside subprograms. A name does not
count where a declaration hides it. The clauses of use that are found for a unit are those that import the
names which occur in it.
-/

namespace VhdlOrder

namespace Lookup

variable {library : Library} {scope : Scope} {unit : DesignUnit} {name : Identifier} {key : ClauseKey}

/-- A declaration and the declarations of the unit that are visible where its statements stand. -/
structure View where
  visible : List Declaration
  declaration : Declaration

/-- Declarations, each of which sees `locals`, the declarations before it, itself, and the literals or units
that belong to it. -/
def views (locals : List Declaration) : List Declaration → List View
  | [] => []
  | declaration :: rest =>
      let own := rest.takeWhile fun next => next.kind.belongsToType
      ⟨locals ++ declaration :: own, declaration⟩ :: views (locals ++ [declaration]) rest

/-- The name occurs where nothing nearer hides it: as the first one of a reference, or it is mentioned by a
declaration or by one at any depth inside it. A mention is hidden only by declarations of the unit. -/
inductive Occurs (unit : DesignUnit) (sites : List Site) (views : List View) : Identifier → Prop
  | reference {site : Site} : site ∈ sites → Undeclared unit site.visible site.reference.name.first →
      Occurs unit sites views site.reference.name.first
  | mention {view : View} {inner : Declaration} {name : Identifier} : view ∈ views →
      Declaration.Within [view.declaration] inner → name ∈ inner.mentions →
        Declaration.declares view.visible name = false → Occurs unit sites views name

theorem occurs_append_iff {sites sites' : List Site} {views views' : List View} :
    Occurs unit (sites ++ sites') (views ++ views') name ↔
      Occurs unit sites views name ∨ Occurs unit sites' views' name := by
  constructor
  · intro occurs
    cases occurs with
    | reference member undeclared =>
      rcases List.mem_append.mp member with left | right
      · exact .inl (.reference left undeclared)
      · exact .inr (.reference right undeclared)
    | mention member within mentioned shown =>
      rcases List.mem_append.mp member with left | right
      · exact .inl (.mention left within mentioned shown)
      · exact .inr (.mention right within mentioned shown)
  · rintro (occurs | occurs)
    · cases occurs with
      | reference member undeclared => exact .reference (List.mem_append_left _ member) undeclared
      | mention member within mentioned shown => exact .mention (List.mem_append_left _ member) within mentioned shown
    · cases occurs with
      | reference member undeclared => exact .reference (List.mem_append_right _ member) undeclared
      | mention member within mentioned shown => exact .mention (List.mem_append_right _ member) within mentioned shown

/-- The clauses that import a name are those of the items of that name in the scope. -/
theorem mem_importers_iff :
    key ∈ importers scope name ↔ ∃ item ∈ scope.selected, item.key = some key ∧ item.name.same name = true := by
  simp only [importers, candidates, List.mem_filterMap, List.mem_filter]
  constructor
  · rintro ⟨item, ⟨present, same⟩, isKey⟩
    exact ⟨item, present, isKey, same⟩
  · rintro ⟨item, present, isKey, same⟩
    exact ⟨item, ⟨present, same⟩, isKey⟩

/-- The clauses of use among the findings are those that import a name which occurs. -/
def Marks (scope : Scope) (unit : DesignUnit) (sites : List Site) (views : List View) (found : Findings) : Prop :=
  ∀ key, key ∈ found.used ↔ ∃ name, Occurs unit sites views name ∧ key ∈ importers scope name

theorem Marks.append {first second : Findings} {sites sites' : List Site} {views views' : List View}
    (left : Marks scope unit sites views first) (right : Marks scope unit sites' views' second) :
    Marks scope unit (sites ++ sites') (views ++ views') (first ++ second) := by
  intro key
  simp only [Findings.used_append, List.mem_append, left key, right key, occurs_append_iff, or_and_right, exists_or]

theorem Marks.of_eq_nil {found : Findings} (nothing : found.used = []) : Marks scope unit [] [] found := by
  intro key
  rw [nothing]
  constructor
  · exact fun member => absurd member List.not_mem_nil
  · rintro ⟨name, occurs, -⟩
    cases occurs with
    | reference member => exact absurd member List.not_mem_nil
    | mention member => exact absurd member List.not_mem_nil

/-- Findings that mark nothing do not count. -/
theorem Marks.append_silent {first second : Findings} {sites : List Site} {views : List View}
    (left : Marks scope unit sites views first) (nothing : second.used = []) :
    Marks scope unit sites views (first ++ second) := by
  have both := left.append (.of_eq_nil nothing)
  rwa [List.append_nil, List.append_nil] at both

/-- References have no mentions. -/
theorem Marks.append_names {first second : Findings} {sites sites' : List Site} {views : List View}
    (left : Marks scope unit sites views first) (right : Marks scope unit sites' [] second) :
    Marks scope unit (sites ++ sites') views (first ++ second) := by
  have both := left.append right
  rwa [List.append_nil] at both

theorem mem_used_atSite_iff (site : Site) :
    key ∈ (atSite library scope unit site).used ↔
      Undeclared unit site.visible site.reference.name.first ∧ key ∈ importers scope site.reference.name.first := by
  obtain ⟨hidden, same⟩ | ⟨undeclared, remark, isRemark, same⟩ := @atSite_cases library scope unit site
  · rw [same]
    exact ⟨fun member => absurd member List.not_mem_nil, fun both => absurd both.1 hidden⟩
  · rw [same, Findings.used_append, isRemark.used_eq_nil, List.append_nil]
    exact ⟨fun member => ⟨undeclared, member⟩, And.right⟩

theorem marks_findAll (locals : List Declaration) (references : List Reference) :
    Marks scope unit (references.map (Site.mk locals)) [] (findAll library scope unit locals references) := by
  intro key
  rw [project_findAll Findings.additive_used, List.mem_flatMap]
  constructor
  · rintro ⟨site, member, marked⟩
    obtain ⟨undeclared, imported⟩ := (mem_used_atSite_iff site).mp marked
    exact ⟨_, .reference member undeclared, imported⟩
  · rintro ⟨name, occurs, imported⟩
    cases occurs with
    | @reference site member undeclared => exact ⟨site, member, (mem_used_atSite_iff site).mpr ⟨undeclared, imported⟩⟩
    | mention member => exact absurd member List.not_mem_nil

/-- The mentions of a declaration are those of the declarations at any depth inside it. -/
theorem mem_allMentionsOf_iff {items : List Declaration} :
    name ∈ Declaration.allMentionsOf items ↔ ∃ inner, Declaration.Within items inner ∧ name ∈ inner.mentions := by
  refine Declaration.allMentionsOf.induct
    (fun outer => name ∈ outer.allMentions ↔
      name ∈ outer.mentions ∨ ∃ inner, Declaration.Within outer.locals inner ∧ name ∈ inner.mentions)
    (fun items => name ∈ Declaration.allMentionsOf items ↔
      ∃ inner, Declaration.Within items inner ∧ name ∈ inner.mentions) ?declaration ?nil ?cons items
  case declaration =>
    intro _ kind position typeClass references mentions locals inside
    rw [Declaration.allMentions, List.mem_append, inside]
  case nil =>
    constructor
    · exact fun member => absurd member List.not_mem_nil
    · rintro ⟨inner, within, -⟩
      exact absurd rfl within.ne_nil
  case cons =>
    intro declaration rest here behind
    rw [Declaration.allMentionsOf, List.mem_append, here, behind]
    constructor
    · rintro ((own | ⟨inner, within, mentioned⟩) | ⟨inner, within, mentioned⟩)
      · exact ⟨declaration, .here List.mem_cons_self, own⟩
      · exact ⟨inner, .inside List.mem_cons_self within, mentioned⟩
      · exact ⟨inner, within.mono (List.subset_cons_self declaration rest), mentioned⟩
    · rintro ⟨inner, within, mentioned⟩
      cases within with
      | here member =>
        rcases List.mem_cons.mp member with rfl | later
        · exact .inl (.inl mentioned)
        · exact .inr ⟨inner, .here later, mentioned⟩
      | @inside _ outer _ member deeper =>
        rcases List.mem_cons.mp member with rfl | later
        · exact .inl (.inr ⟨inner, deeper, mentioned⟩)
        · exact .inr ⟨inner, .inside later deeper, mentioned⟩

theorem marks_mentioned (visible : List Declaration) (declaration : Declaration) :
    Marks scope unit [] [⟨visible, declaration⟩] (mentioned scope visible declaration) := by
  have whole : declaration.allMentions = Declaration.allMentionsOf [declaration] := (List.append_nil _).symm
  intro key
  simp only [mentioned, Findings.ofUse, List.mem_flatMap, List.mem_filter, Bool.not_eq_true', whole,
    mem_allMentionsOf_iff]
  constructor
  · rintro ⟨name, ⟨⟨inner, within, mentioned⟩, shown⟩, imported⟩
    exact ⟨name, .mention List.mem_cons_self within mentioned shown, imported⟩
  · rintro ⟨name, occurs, imported⟩
    cases occurs with
    | reference member => exact absurd member List.not_mem_nil
    | @mention view inner name member within mentioned shown =>
      obtain rfl := List.mem_singleton.mp member
      exact ⟨name, ⟨⟨inner, within, mentioned⟩, shown⟩, imported⟩

theorem marks_declarations (locals items : List Declaration) :
    Marks scope unit (sites locals items) (views locals items) (declarations library scope unit locals items) := by
  induction items generalizing locals with
  | nil => exact .of_eq_nil rfl
  | cons declaration rest ih =>
    let visible := locals ++ declaration :: rest.takeWhile fun next => next.kind.belongsToType
    have names : Marks scope unit _ _ (findAll library scope unit visible declaration.references) :=
      marks_findAll visible declaration.references
    have here := names.append (marks_mentioned visible declaration)
    rw [List.append_nil, List.nil_append] at here
    exact here.append (ih (locals ++ [declaration]))

end Lookup

namespace Resolution

variable {library : Library} {scope : Scope} {level : Level} {entry : Entry} {key : ClauseKey}

/-- The declarations of a unit that is looked at declaration by declaration, each with what it sees. -/
def views (library : Library) (unit : DesignUnit) : List Lookup.View :=
  match unit.contents with
  | .package generics declarations none => Lookup.views [] generics ++ Lookup.views generics declarations
  | .packageBody declarations => Lookup.views (declared library unit) declarations
  | _ => []

/-- The name occurs in the unit, in a reference or a mention, where nothing nearer than an import hides it. -/
def Occurs (library : Library) (unit : DesignUnit) (name : Identifier) : Prop :=
  Lookup.Occurs unit (lookups library unit) (views library unit) name

theorem marks_inside :
    Lookup.Marks scope entry.unit (lookups library entry.unit) (views library entry.unit)
      (inside library level scope entry) := by
  have names (locals : List Declaration) (references : List Reference) :
      Lookup.Marks scope entry.unit _ _ (Lookup.findAll library scope entry.unit locals references) :=
    Lookup.marks_findAll locals references
  have declarations (locals items : List Declaration) :
      Lookup.Marks scope entry.unit _ _ (Lookup.declarations library scope entry.unit locals items) :=
    Lookup.marks_declarations locals items
  cases contents : entry.unit.contents with
  | package generics items template =>
    cases template with
    | none =>
      simp only [inside, lookups, sites, views, contents]
      exact (((declarations [] generics).append (declarations generics items)).append_names
        (names _ _)).append_silent rfl
    | some template =>
      have remark : (templateFindings library scope template).Remark template.position :=
        remark_templateFindings template
      simp only [inside, lookups, views, contents]
      exact (Lookup.Marks.of_eq_nil remark.used_eq_nil).append (names _ _)
  | packageBody items =>
    simp only [inside, lookups, sites, views, contents]
    exact ((declarations _ items).append_names (names _ _)).append_silent rfl
  | context clause =>
    simp only [inside, lookups, views, contents]
    exact .of_eq_nil (Scope.Grows.enter_unwatched clause).used
  | entity | architecture | configuration =>
    simp only [inside, lookups, views, contents]
    exact names _ _

/-- The clauses of use that are found for a unit are those of the items in its scope whose names occur. -/
theorem mem_used_findings_iff (member : entry ∈ library.entries) :
    key ∈ (findings library level entry).used ↔
      ∃ item ∈ (scopeOf library entry).1.selected, item.key = some key ∧
        ∃ name, Occurs library entry.unit name ∧ item.name.same name = true := by
  change key ∈ ((scopeOf library entry).2 ++ inside library level (scopeOf library entry).1 entry).used ↔ _
  rw [Findings.used_append, (grows_scopeOf member).used, List.nil_append, marks_inside key]
  simp only [Lookup.mem_importers_iff]
  constructor
  · rintro ⟨name, occurs, item, present, isKey, same⟩
    exact ⟨item, present, isKey, name, occurs, same⟩
  · rintro ⟨item, present, isKey, name, occurs, same⟩
    exact ⟨name, occurs, item, present, isKey, same⟩

/-- The watched imports that are found for a unit are those of the items in its scope. -/
theorem imports_findings (member : entry ∈ library.entries) :
    (findings library level entry).imports =
      (scopeOf library entry).1.selected.filterMap (SelectedImport.watch? library) := by
  have additive := Findings.additive_imports
  have nothing (site : Lookup.Site) :
      (Lookup.atSite library (scopeOf library entry).1 entry.unit site).imports = [] := by
    obtain ⟨-, same⟩ | ⟨-, remark, isRemark, same⟩ :=
      @Lookup.atSite_cases library (scopeOf library entry).1 entry.unit site
    · rw [same]
      rfl
    · rw [same, Findings.imports_append, isRemark.imports_eq_nil]
      rfl
  have noneInside : (inside library level (scopeOf library entry).1 entry).imports = [] := by
    unfold inside
    dsimp only
    split
    · simp [(remark_templateFindings _).imports_eq_nil, Lookup.project_findAll additive, nothing]
    · simp [Lookup.project_declarations additive fun _ => rfl, Lookup.project_findAll additive, nothing, Findings.empty]
    · simp [Lookup.project_declarations additive fun _ => rfl, Lookup.project_findAll additive, nothing, Findings.empty]
    · exact (Scope.Grows.enter_unwatched _).imports_eq_nil fun _ => id
    · simp [Lookup.project_findAll additive, nothing]
  obtain ⟨added, selected, imports, -⟩ := (grows_scopeOf member).selected
  change ((scopeOf library entry).2 ++ inside library level (scopeOf library entry).1 entry).imports = _
  rw [Findings.imports_append, noneInside, imports, selected, List.append_nil]
  rfl

end Resolution

end VhdlOrder
