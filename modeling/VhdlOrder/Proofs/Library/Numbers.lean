import VhdlOrder.Proofs.Design.PlaceByPlace
import VhdlOrder.Proofs.Library.History
import VhdlOrder.Stepwise.Library

/-! # Numbers that a library answers

The tables of a library hold numbers of its units, and each unit the number of a file, since a unit is added after the
file that it stands in and nothing is ever taken away. So what is fetched by a number that the library answers is
there, and reading and linking sources by numbers does what reading and linking them does.
-/

namespace VhdlOrder

open Stepwise

namespace Library

variable {library : Library} {source number : Nat}

/-- Each unit and each pragma stands in a file that is there. -/
structure Filed (library : Library) : Prop where
  units : ∀ item ∈ library.units, item.source < library.files.length
  pragmas : ∀ item ∈ library.pragmas, item.source < library.files.length

theorem getElem?_files (inside : source < library.files.length) :
    library.files[source]? = some (library.path source) := by
  rw [path, List.getElem?_eq_getElem inside]
  rfl

theorem source_of_targeted? {item : Located (Except PragmaFault Pragma)} {pragma : LibraryPragma}
    (found : targeted? source item = some pragma) : pragma.source = source := by
  unfold targeted? at found
  split at found
  · split at found
    · exact congrArg LibraryPragma.source (Option.some.inj found).symm
    · cases found
  · cases found

theorem Filed.opened (filed : library.Filed) (file text directive : String) :
    (library.opened file text directive).Filed := by
  have files : (library.opened file text directive).files.length = library.files.length + 1 := List.length_append
  constructor
  · intro item member
    have old : item ∈ library.units := by simpa [Library.opened, grow, addFile] using member
    exact files ▸ Nat.lt_succ_of_lt (filed.units item old)
  · intro item member
    rw [files]
    rcases List.mem_append.mp member with old | new
    · exact Nat.lt_succ_of_lt (filed.pragmas item old)
    · obtain ⟨comment, -, found⟩ := List.mem_filterMap.mp new
      exact source_of_targeted? found ▸ Nat.lt_succ_self _

theorem Filed.fileOf?_eq (filed : library.Filed) (inside : number < library.size) :
    library.fileOf? number = some (library.fileOf number) := by
  have present := List.getElem?_eq_getElem inside
  rw [fileOf?, fileOf, present]
  exact getElem?_files (filed.units _ (List.getElem_mem inside))

theorem unit?_isSome (inside : number < library.size) : ∃ unit, library.unit? number = some unit :=
  ⟨_, by rw [unit?, List.getElem?_eq_getElem inside]; rfl⟩

theorem display?_eq (inside : number < library.size) : library.display? number = some (library.display number) := by
  obtain ⟨unit, present⟩ := unit?_isSome inside
  simp [display?, display, present]

theorem Filed.locate?_eq (filed : library.Filed) (inside : number < library.size) :
    library.locate? number = some (library.locate number) := by
  obtain ⟨unit, present⟩ := unit?_isSome inside
  simp [locate?, locate, filed.fileOf?_eq inside, present]

theorem report?_eq (inside : source < library.files.length) (severity : Severity) (problem : Problem)
    (position : Position) : library.report? severity problem source position =
      some (library.report (.place severity problem (library.path source) position)) := by
  rw [report?, getElem?_files inside]
  rfl

theorem addPragma?_eq (inside : source < library.files.length) (item : Located (Except PragmaFault Pragma)) :
    library.addPragma? source item = some (library.addPragma source item) := by
  unfold addPragma? addPragma
  cases item.value with
  | ok pragma =>
    dsimp only
    split
    · rfl
    · exact report?_eq inside _ _ _
  | error fault => exact report?_eq inside _ _ _

theorem addLexicalFault?_eq (inside : source < library.files.length) (fault : Option (Located LexicalFault)) :
    library.addLexicalFault? source fault = some (library.addLexicalFault source fault) := by
  cases fault with
  | none => rfl
  | some fault => exact report?_eq inside _ _ _

theorem addSyntaxFault?_eq (inside : source < library.files.length) (cutShort : Bool)
    (fault : Option SyntaxFault) :
    library.addSyntaxFault? source cutShort fault = some (library.addSyntaxFault source cutShort fault) := by
  cases fault with
  | none => rfl
  | some fault =>
    unfold addSyntaxFault? addSyntaxFault
    dsimp only
    split
    · rfl
    · exact report?_eq inside _ _ _

theorem files_addLexicalFault (fault : Option (Located LexicalFault)) :
    (library.addLexicalFault source fault).files = library.files := by
  rw [addLexicalFault_eq_grow]
  rfl

theorem foldlM_addPragma? (inside : source < library.files.length)
    (items : List (Located (Except PragmaFault Pragma))) :
    items.foldlM (fun library => library.addPragma? source) library =
      some (items.foldl (fun library => library.addPragma source) library) := by
  refine (foldlM_eq_foldl (fun library => source < library.files.length) (fun library here item _ => ?_) inside).1
  refine ⟨addPragma?_eq here item, ?_⟩
  rw [addPragma_eq_grow]
  exact here

theorem opened?_eq (library : Library) (file text directive : String) :
    library.opened? file text directive = some (library.opened file text directive) := by
  have behind : library.files.length < (library.addFile file).files.length := by simp [addFile]
  rw [opened?, opened, readingDiagnostics]
  rcases Lexer.readUntilFault text with ⟨tokens, lexicalFault⟩
  have lexed : library.files.length <
      ((library.addFile file).addLexicalFault library.files.length lexicalFault).files.length := by
    rwa [files_addLexicalFault]
  simp only [addLexicalFault?_eq behind, pragmas?_eq, foldlM_addPragma? lexed, Option.bind_eq_bind, Option.bind_some]
  simp only [addLexicalFault_eq_grow, addPragmas_eq_grow, path_grow, path_addFile, grow_grow, List.append_nil,
    List.nil_append]
  refine Eq.trans (addSyntaxFault?_eq ?_ _ _) ?_
  · exact behind
  · simp only [addSyntaxFault_eq_grow, path_grow, path_addFile, grow_grow, List.append_nil]

end Library

namespace Catalog

variable {catalog : Catalog}

/-- The tables and the units answer numbers of what is there. -/
structure Sound (catalog : Catalog) : Prop where
  inStep : catalog.InStep
  filed : catalog.library.Filed

theorem fetch_of_mem {entry : Entry} (member : entry ∈ catalog.library.entries) :
    catalog.fetch entry.index = some entry := by
  rw [fetch, Library.mem_entries_iff.mp member]
  rfl

/-- A table that answers the number of an entry answers the entry. -/
theorem mapM_fetch {found : Option Entry} (member : ∀ entry ∈ found, entry ∈ catalog.library.entries) :
    (found.map Entry.index).mapM catalog.fetch = some found := by
  cases found with
  | none => rfl
  | some entry => simp [fetch_of_mem (member entry rfl)]

namespace InStep

theorem primary?_eq (inStep : catalog.InStep) (name : Identifier) :
    catalog.primary? name = some (catalog.library.primary? name) := by
  rw [Catalog.primary?, inStep.primary]
  exact mapM_fetch fun entry found => (Library.of_primary? found).1

theorem body?_eq (inStep : catalog.InStep) (name : Identifier) :
    catalog.body? name = some (catalog.library.body? name) := by
  rw [Catalog.body?, inStep.body]
  exact mapM_fetch fun entry found => (Library.mem_of_body? found)

theorem architecture?_eq (inStep : catalog.InStep) (entity name : Identifier) :
    catalog.architecture? entity name = some ((catalog.library.architecture? entity name).map Entry.index) := by
  have present : ∀ entry ∈ catalog.library.architectures entity,
      catalog.library.unit? entry.index = some entry.unit := fun entry member =>
    Library.mem_entries_iff.mp (Library.mem_of_mem_architectures member)
  have each : ∀ number ∈ catalog.tables.architecturesOf entity,
      (do return (← catalog.library.unit? number).name.same name) =
        some ((catalog.library.unit? number).any fun unit => unit.name.same name) := by
    intro number member
    rw [inStep.architectures] at member
    obtain ⟨entry, among, rfl⟩ := List.mem_map.mp member
    simp [present entry among]
  rw [Catalog.architecture?, findM?_eq_find? each, inStep.architectures, List.find?_map, Library.architecture?]
  rw [← List.head?_filter, ← List.head?_filter]
  congr 3
  refine List.filter_congr fun entry member => ?_
  rw [Function.comp_apply, present entry member, Option.any_some]

end InStep

/-! ## Sources -/

theorem sound_empty (name : Identifier) : Sound ⟨.empty name, .empty⟩ :=
  ⟨(inStep_run name []).2, List.forall_mem_nil _, List.forall_mem_nil _⟩

theorem InStep.holderOf?_eq (inStep : catalog.InStep) (unit : DesignUnit) :
    catalog.holderOf? unit = some (catalog.holder? unit) := by
  rw [inStep.holder?_eq]
  unfold holderOf? Library.holder?
  cases unit.contents with
  | packageBody => exact congrArg some (inStep.body unit.name)
  | architecture entity => exact inStep.architecture?_eq entity unit.name
  | package | entity | configuration | context => exact congrArg some (inStep.primary unit.name)

/-- A unit is added, and the library stays sound. -/
theorem Sound.addUnit (sound : catalog.Sound) {source : Nat} (inside : source < catalog.library.files.length)
    (unit : DesignUnit) : catalog.addUnit? source unit = some (catalog.addUnit source unit) ∧
      (catalog.addUnit source unit).Sound ∧
      (catalog.addUnit source unit).library.files = catalog.library.files := by
  have kept := (sound.inStep.addUnit source unit).2
  rw [addUnit?, sound.inStep.holderOf?_eq]
  unfold Catalog.addUnit at kept ⊢
  cases taken : catalog.holder? unit with
  | none =>
    rw [taken] at kept
    have units : ∀ item ∈ catalog.library.units ++ [⟨unit, source⟩], item.source < catalog.library.files.length :=
      List.forall_mem_append.mpr ⟨sound.filed.units, by simpa using inside⟩
    exact ⟨rfl, ⟨kept, units, sound.filed.pragmas⟩, rfl⟩
  | some first =>
    rw [taken] at kept
    have isUnit : first < catalog.library.size := by
      rw [sound.inStep.holder?_eq, Library.holder?_eq_find?] at taken
      obtain ⟨entry, found, rfl⟩ := Option.map_eq_some_iff.mp taken
      exact Library.index_lt (List.mem_of_find?_eq_some found)
    refine ⟨?_, ⟨kept, sound.filed.units, sound.filed.pragmas⟩, rfl⟩
    simp only [Option.bind_eq_bind, Option.bind_some, sound.filed.locate?_eq isUnit,
      Library.report?_eq inside]
    rfl

theorem Sound.addUnits (sound : catalog.Sound) {source : Nat} (inside : source < catalog.library.files.length)
    (units : List DesignUnit) : units.foldlM (fun catalog => catalog.addUnit? source) catalog =
        some (units.foldl (fun catalog => catalog.addUnit source) catalog) ∧
      (units.foldl (fun catalog => catalog.addUnit source) catalog).Sound := by
  have each (catalog : Catalog) (here : catalog.Sound ∧ source < catalog.library.files.length) :
      ∀ unit ∈ units, catalog.addUnit? source unit = some (catalog.addUnit source unit) ∧
        (catalog.addUnit source unit).Sound ∧ source < (catalog.addUnit source unit).library.files.length := by
    intro unit _
    obtain ⟨added, stays, files⟩ := here.1.addUnit here.2 unit
    exact ⟨added, stays, files ▸ here.2⟩
  obtain ⟨added, stays, -⟩ := foldlM_eq_foldl _ each ⟨sound, inside⟩
  exact ⟨added, stays⟩

theorem Sound.addSource (sound : catalog.Sound) (file text directive : String) :
    catalog.addSource? file text directive = some (catalog.addSource file text directive) ∧
      (catalog.addSource file text directive).Sound := by
  have opened : Sound { catalog with library := catalog.library.opened file text directive } :=
    ⟨sound.inStep.congr (List.append_nil _), sound.filed.opened file text directive⟩
  have inside : catalog.library.files.length < (catalog.library.opened file text directive).files.length := by
    simp [Library.opened, Library.grow, Library.addFile]
  obtain ⟨added, stays⟩ := opened.addUnits inside (Library.parsed text)
  refine ⟨?_, stays⟩
  rw [addSource?, Library.opened?_eq]
  exact added

/-! ## Links -/

theorem InStep.linkProblem?_eq (inStep : catalog.InStep) (unit : DesignUnit) :
    catalog.linkProblem? unit = some (catalog.library.linkProblem? unit) := by
  unfold linkProblem? Library.linkProblem?
  simp only [inStep.primary?_eq, Library.package?, Option.isSome_filter, Option.bind_eq_bind, Option.bind_some]
  cases unit.contents with
  | packageBody | architecture | configuration =>
    dsimp only
    split <;> rfl
  | package | entity | context => rfl

theorem Sound.linkDiagnostic?_eq (sound : catalog.Sound) {entry : Entry}
    (member : entry ∈ catalog.library.entries) : catalog.linkDiagnostic? entry.index =
      some ((catalog.library.linkProblem? entry.unit).map fun problem =>
        .place .error problem (catalog.library.fileOf entry.index) entry.unit.position) := by
  have present := Library.mem_entries_iff.mp member
  have file := sound.filed.fileOf?_eq (Library.index_lt member)
  simp only [linkDiagnostic?, present, file, sound.inStep.linkProblem?_eq, Option.bind_eq_bind, Option.bind_some]
  cases catalog.library.linkProblem? entry.unit <;> rfl

theorem Sound.link (sound : catalog.Sound) :
    catalog.link? = some { catalog with library := catalog.library.link } ∧
      Sound { catalog with library := catalog.library.link } := by
  refine ⟨?_, sound.inStep.congr rfl, sound.filed.units, sound.filed.pragmas⟩
  have found := catalog.library.filterMap_units fun unit file =>
    (catalog.library.linkProblem? unit).map fun problem => Diagnostic.place .error problem file unit.position
  rw [link?, ← Library.map_index_entries, filterMap?_map,
    filterMap?_eq fun entry member => sound.linkDiagnostic?_eq member, ← found]
  rfl

theorem run?_eq (name : Identifier) (steps : List Library.Step) :
    run? name steps = some (run name steps) ∧ (run name steps).Sound := by
  refine foldlM_eq_foldl Sound (fun catalog sound step _ => ?_) (sound_empty name)
  cases step with
  | add file text directive => exact sound.addSource file text directive
  | link => exact sound.link

/-! ## Targets -/

theorem InStep.findParts?_eq (inStep : catalog.InStep) (parts : List Identifier) :
    catalog.findParts? parts = some ((catalog.library.findParts parts).map Entry.index) := by
  match parts with
  | [] | _ :: _ :: _ :: _ => rfl
  | [name] => exact congrArg some (inStep.primary name)
  | [owner, name] =>
    unfold findParts? Library.findParts
    by_cases isBody : name.same Library.bodySuffix = true
    · simp only [isBody, if_true, inStep.body]
      cases catalog.library.body? owner with
      | some entry => rfl
      | none => exact inStep.architecture?_eq owner name
    · simp only [isBody]
      exact inStep.architecture?_eq owner name

theorem mem_of_findParts {library : Library} {parts : List Identifier} {entry : Entry}
    (found : library.findParts parts = some entry) : entry ∈ library.entries := by
  match parts with
  | [] | _ :: _ :: _ :: _ => cases found
  | [name] => exact (Library.of_primary? found).1
  | [owner, name] =>
    rw [Library.findParts] at found
    split at found
    · rename_i body isBody
      obtain rfl := Option.some.inj found
      split at isBody
      · exact Library.mem_of_body? isBody
      · cases isBody
    · exact Library.mem_of_mem_architectures (List.mem_of_find?_eq_some found)

theorem mem_of_find? {library : Library} {name : SelectedName} {entry : Entry}
    (found : library.find? name = some entry) : entry ∈ library.entries := by
  unfold Library.find? at found
  split at found <;> exact mem_of_findParts found

theorem InStep.find?_eq (inStep : catalog.InStep) (name : SelectedName) :
    catalog.find? name = some ((catalog.library.find? name).map Entry.index) := by
  have longer : decide (1 < name.parts.length) = name.isExpanded := by
    unfold SelectedName.parts SelectedName.isExpanded
    cases name.suffix <;> rfl
  simp only [find?, Library.find?, getElem?_parts_zero, slice?_parts_one, longer, inStep.findParts?_eq,
    Option.bind_eq_bind, Option.bind_some]
  split <;> rfl

end Catalog

end VhdlOrder
