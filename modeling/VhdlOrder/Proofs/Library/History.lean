import VhdlOrder.Proofs.Design.Headings
import VhdlOrder.Proofs.Library.Designations

/-! # What is done to a library

A library begins empty. Sources are read into it, and it is linked, in any order and as often as one likes. In
every library that comes about in this way no two units share their designation, every unit has a name that is a
token of a text, and the units stand in the order of the sources and of their places there.

Every unit of a library is one of a text that was added. Of the units that were read, a library holds one for each
designation, whichever text it stands in. So a package has a body in the library if and only if one was read.
-/

namespace VhdlOrder

/-- `first` stands in an earlier source than `second`, or earlier in the same one. -/
def LibraryUnit.Before (first second : LibraryUnit) : Prop :=
  first.source < second.source ∨
    first.source = second.source ∧ first.unit.position.compare second.unit.position = .lt

/-- The unit is a body of the package. -/
def DesignUnit.Completes (body package : DesignUnit) : Prop :=
  body.kind = .packageBody ∧ body.name.same package.name = true

namespace Library

/-- What is done to a library: a source is read into it, or it is linked. -/
inductive Step where
  | add (file text directive : String)
  | link

/-- The library after a step. -/
def step (library : Library) : Step → Library
  | .add file text directive => (library.addSource file text directive).2
  | .link => library.link

/-- The library after some steps from the empty one on. -/
def run (name : Identifier) (steps : List Step) : Library := steps.foldl step (empty name)

/-- What a library satisfies at the beginning and after each step, it satisfies after all of them. -/
theorem run_induction (holds : Library → Prop) {name : Identifier} (start : holds (empty name))
    (added : ∀ library file text directive, holds library → holds (library.addSource file text directive).2)
    (linked : ∀ library, holds library → holds library.link) (steps : List Step) : holds (run name steps) := by
  have after (library : Library) (here : holds library) : holds (steps.foldl step library) := by
    induction steps generalizing library with
    | nil => exact here
    | cons next rest ih =>
      cases next with
      | add file text directive => exact ih _ (added library file text directive here)
      | link => exact ih _ (linked library here)
  exact after _ start

variable {library : Library}

theorem fresh_sublist (taken : List Designation) (units : List DesignUnit) : (fresh taken units).Sublist units := by
  induction units generalizing taken with
  | nil => exact .slnil
  | cons unit rest ih =>
    unfold fresh
    split
    · exact (ih taken).cons unit
    · exact (ih _).cons_cons unit

/-! ## What the steps keep -/

theorem Unambiguous.addSource (unambiguous : library.Unambiguous) (file text directive : String) :
    (library.addSource file text directive).2.Unambiguous := by
  rw [Unambiguous, designations, units_addSource]
  simpa [designations, Function.comp_def] using nodup_fresh unambiguous (parsed text)

/-- The units of the library are known by different designations, have names that texts have, and stand in the
order of the sources, all of which are there. -/
structure WellFormed (library : Library) : Prop where
  unambiguous : library.Unambiguous
  lexed : ∀ item ∈ library.units, item.unit.name.IsLexed
  sources : ∀ item ∈ library.units, item.source < library.files.length
  ordered : library.units.Pairwise LibraryUnit.Before

theorem wellFormed_empty (name : Identifier) : (empty name).WellFormed :=
  ⟨List.nodup_nil, List.forall_mem_nil _, List.forall_mem_nil _, .nil⟩

theorem WellFormed.addSource (wellFormed : library.WellFormed) (file text directive : String) :
    (library.addSource file text directive).2.WellFormed := by
  let kept := fresh library.designations (parsed text)
  have units : (library.addSource file text directive).2.units =
      library.units ++ kept.map (LibraryUnit.mk · library.files.length) := units_addSource file text directive
  have sublist : kept.Sublist (parsed text) := fresh_sublist _ _
  constructor
  · exact wellFormed.unambiguous.addSource file text directive
  · rw [units]
    refine List.forall_mem_append.mpr ⟨wellFormed.lexed, List.forall_mem_map.mpr fun unit member => ?_⟩
    exact DesignFile.isLexed_of_mem_units unit (sublist.subset member)
  · rw [units, files_addSource, List.length_append]
    refine List.forall_mem_append.mpr ⟨fun item member => ?_, List.forall_mem_map.mpr fun unit _ => ?_⟩
    · exact Nat.lt_add_right 1 (wellFormed.sources item member)
    · exact Nat.lt_succ_self _
  · rw [units]
    refine List.pairwise_append.mpr ⟨wellFormed.ordered, List.pairwise_map.mpr ?_, fun item member other added => ?_⟩
    · exact ((DesignFile.pairwise_units text).sublist sublist).imp fun before => .inr ⟨rfl, before⟩
    · obtain ⟨unit, -, rfl⟩ := List.mem_map.mp added
      exact .inl (wellFormed.sources item member)

/-- Every library that comes about is well-formed. -/
theorem wellFormed_run (name : Identifier) (steps : List Step) : (run name steps).WellFormed :=
  run_induction WellFormed (wellFormed_empty name)
    (fun _ file text directive wellFormed => wellFormed.addSource file text directive)
    (fun _ wellFormed => ⟨wellFormed.unambiguous, wellFormed.lexed, wellFormed.sources, wellFormed.ordered⟩) steps

theorem WellFormed.isName (wellFormed : library.WellFormed) {entry : Entry} (member : entry ∈ library.entries) :
    entry.unit.name.IsName := by
  obtain ⟨item, found, same⟩ := Option.map_eq_some_iff.mp (mem_entries_iff.mp member)
  exact same ▸ (wellFormed.lexed item (List.mem_of_getElem? found)).isName

/-! ## Where the units were read -/

/-- The unit is one of the text of the file, which is added in one of the steps. -/
def ReadFrom (steps : List Step) (file text : String) (unit : DesignUnit) : Prop :=
  ∃ directive, .add file text directive ∈ steps ∧ unit ∈ parsed text

variable {name : Identifier} {steps : List Step} {file text : String} {unit : DesignUnit}

theorem run_concat (name : Identifier) (steps : List Step) (last : Step) :
    run name (steps ++ [last]) = (run name steps).step last :=
  List.foldl_append

theorem ReadFrom.concat (readFrom : ReadFrom steps file text unit) (last : Step) :
    ReadFrom (steps ++ [last]) file text unit := by
  obtain ⟨directive, added, member⟩ := readFrom
  exact ⟨directive, List.mem_append_left _ added, member⟩

/-- Every unit of a library was read from a text that was added. -/
theorem exists_readFrom_of_mem_units {item : LibraryUnit} (member : item ∈ (run name steps).units) :
    ∃ file text, ReadFrom steps file text item.unit := by
  induction steps using List.reverseRecOn with
  | nil => cases member
  | append_singleton steps last ih =>
    rw [run_concat] at member
    have earlier (inside : item ∈ (run name steps).units) :
        ∃ file text, ReadFrom (steps ++ [last]) file text item.unit := by
      obtain ⟨file, text, readFrom⟩ := ih inside
      exact ⟨file, text, readFrom.concat last⟩
    cases last with
    | link => exact earlier member
    | add path text directive =>
      rw [step, units_addSource] at member
      rcases List.mem_append.mp member with old | new
      · exact earlier old
      · obtain ⟨unit, isFresh, rfl⟩ := List.mem_map.mp new
        have added := List.mem_append_right steps (List.mem_singleton_self (Step.add path text directive))
        exact ⟨path, text, directive, added, (fresh_sublist _ _).subset isFresh⟩

theorem exists_readFrom {entry : Entry} (member : entry ∈ (run name steps).entries) :
    ∃ file text, ReadFrom steps file text entry.unit := by
  obtain ⟨item, found, same⟩ := Option.map_eq_some_iff.mp (mem_entries_iff.mp member)
  exact same ▸ exists_readFrom_of_mem_units (List.mem_of_getElem? found)

/-- A designation of a text is taken when its units have been added. -/
theorem mem_designations_fresh {taken : List Designation} {units : List DesignUnit} (member : unit ∈ units) :
    unit.designation ∈ taken ++ (fresh taken units).map DesignUnit.designation := by
  induction units generalizing taken with
  | nil => cases member
  | cons first rest ih =>
    unfold fresh
    split
    · rename_i isTaken
      rcases List.mem_cons.mp member with rfl | later
      · exact List.mem_append_left _ isTaken
      · exact ih later
    · rcases List.mem_cons.mp member with rfl | later
      · exact List.mem_append_right _ List.mem_cons_self
      · simpa using @ih (taken ++ [first.designation]) later

/-- What was read is held, or another unit of the same designation is. -/
theorem ReadFrom.mem_designations (readFrom : ReadFrom steps file text unit) :
    unit.designation ∈ (run name steps).designations := by
  obtain ⟨directive, added, member⟩ := readFrom
  induction steps using List.reverseRecOn with
  | nil => cases added
  | append_singleton steps last ih =>
    rw [run_concat]
    rcases List.mem_append.mp added with earlier | isLast
    · cases last with
      | link => exact ih earlier
      | add path text directive =>
        rw [step, designations, units_addSource, List.map_append]
        exact List.mem_append_left _ (ih earlier)
    · obtain rfl := List.mem_singleton.mp isLast
      rw [step, designations, units_addSource, List.map_append, List.map_map]
      exact mem_designations_fresh member

/-- A body of a package is held if and only if one was read. -/
theorem exists_body_iff {package : DesignUnit} :
    (∃ body ∈ (run name steps).entries, body.unit.Completes package) ↔
      ∃ file text body, ReadFrom steps file text body ∧ body.Completes package := by
  constructor
  · rintro ⟨body, member, completes⟩
    obtain ⟨file, text, readFrom⟩ := exists_readFrom member
    exact ⟨file, text, body.unit, readFrom, completes⟩
  · rintro ⟨file, text, body, readFrom, completes⟩
    have known : body.designation ∈ (run name steps).designations := readFrom.mem_designations
    rw [designations_eq_map_entries] at known
    obtain ⟨entry, member, same⟩ := List.mem_map.mp known
    rw [DesignUnit.designation_eq_body_iff.mpr completes, DesignUnit.designation_eq_body_iff] at same
    exact ⟨entry, member, same⟩

end Library

end VhdlOrder
