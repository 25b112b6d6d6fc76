import VhdlOrder.Visibility.Instance

/-! # Units and their numbers

The entries of a library are its units with their numbers. Looking up a name finds the first entry of the
right kind with that name, so what is found is an entry, has the name, and is found again under every
spelling of it.
-/

namespace VhdlOrder.Library

variable {library : Library} {entry : Entry} {name other : Identifier}

theorem getElem?_numbered (first : Nat) (items : List LibraryUnit) (index : Nat) :
    (numbered first items)[index]? = items[index]?.map fun item => ⟨first + index, item.unit⟩ := by
  induction items generalizing first index with
  | nil => rfl
  | cons item rest ih =>
    cases index with
    | zero => rfl
    | succ index =>
      simp only [numbered, List.getElem?_cons_succ, ih]
      congr 2
      funext item
      congr 1
      omega

/-- The entry at a place has the place as its number. -/
theorem getElem?_entries (index : Nat) :
    library.entries[index]? = (library.unit? index).map (Entry.mk index) := by
  rw [entries, getElem?_numbered, unit?, Option.map_map]
  congr 1
  funext item
  simp

/-- The entries are the units of the library under their numbers. -/
theorem mem_entries_iff : entry ∈ library.entries ↔ library.unit? entry.index = some entry.unit := by
  constructor
  · intro member
    obtain ⟨index, found⟩ := List.mem_iff_getElem?.mp member
    rw [getElem?_entries] at found
    obtain ⟨unit, present, rfl⟩ := Option.map_eq_some_iff.mp found
    exact present
  · intro present
    apply List.mem_of_getElem? (i := entry.index)
    rw [getElem?_entries, present]
    rfl

theorem index_lt (member : entry ∈ library.entries) : entry.index < library.size := by
  rw [mem_entries_iff, unit?, Option.map_eq_some_iff] at member
  obtain ⟨item, found, -⟩ := member
  exact (List.getElem?_eq_some_iff.mp found).1

/-- An entry is known by its number. -/
theorem eq_of_index_eq {first second : Entry} (first_mem : first ∈ library.entries)
    (second_mem : second ∈ library.entries) (same : first.index = second.index) : first = second := by
  rw [mem_entries_iff] at first_mem second_mem
  rw [same, second_mem] at first_mem
  cases first
  cases second
  simp_all

/-- Every number below the size belongs to an entry. -/
theorem exists_entry {index : Nat} (bound : index < library.size) :
    ∃ entry ∈ library.entries, entry.index = index := by
  refine ⟨⟨index, library.units[index].unit⟩, mem_entries_iff.mpr ?_, rfl⟩
  simp [unit?, List.getElem?_eq_getElem bound]

/-- What is made of the units in order, with the files that they stand in, can be made of the entries. -/
theorem filterMap_units {β : Type} (library : Library) (make : DesignUnit → String → Option β) :
    (library.units.filterMap fun item => make item.unit (library.path item.source)) =
      library.entries.filterMap fun entry => make entry.unit (library.fileOf entry.index) := by
  have each : library.units.map (fun item => make item.unit (library.path item.source)) =
      library.entries.map fun entry => make entry.unit (library.fileOf entry.index) := by
    apply List.ext_getElem?
    intro index
    rw [List.getElem?_map, List.getElem?_map, getElem?_entries, unit?, Option.map_map, Option.map_map]
    cases found : library.units[index]? with
    | none => rfl
    | some item => simp [fileOf, found]
  simpa [List.filterMap_map] using congrArg (List.filterMap id) each

theorem numbered_append (first : Nat) (items more : List LibraryUnit) :
    numbered first (items ++ more) = numbered first items ++ numbered (first + items.length) more := by
  induction items generalizing first with
  | nil => rfl
  | cons item rest ih =>
    rw [List.cons_append, numbered, ih, numbered, List.cons_append, List.length_cons]
    congr 3
    omega

/-- Units that stay in front keep their numbers. -/
theorem entries_mono {after : Library} (grown : library.units <+: after.units) : library.entries <+: after.entries := by
  obtain ⟨more, units⟩ := grown
  refine ⟨numbered library.size more, ?_⟩
  rw [entries, entries, ← units, numbered_append, Nat.zero_add]
  rfl

/-- What is found under a name is a primary unit of the library with that name. -/
theorem of_primary? (found : library.primary? name = some entry) :
    entry ∈ library.entries ∧ entry.unit.isPrimary = true ∧ entry.unit.name.same name = true := by
  have accepted := List.find?_some found
  rw [Bool.and_eq_true] at accepted
  exact ⟨List.mem_of_find?_eq_some found, accepted⟩

/-- Spelling a name in another way finds the same unit. -/
theorem primary?_congr (same : name.same other = true) : library.primary? name = library.primary? other := by
  unfold primary?
  congr 1
  funext entry
  congr 1
  rw [Bool.eq_iff_iff]
  constructor
  · intro left
    exact Identifier.same_trans left same
  · intro right
    exact Identifier.same_trans right (Identifier.same_comm name other ▸ same)

/-- A unit that is found under some name is found under its own. -/
theorem primary?_own_name (found : library.primary? name = some entry) :
    library.primary? entry.unit.name = some entry :=
  (primary?_congr (of_primary? found).2.2).trans found

theorem of_package? (found : library.package? name = some entry) :
    library.primary? name = some entry ∧ entry.isPackage = true :=
  Option.filter_eq_some_iff.mp found

theorem mem_of_body? (found : library.body? name = some entry) : entry ∈ library.entries :=
  List.mem_of_find?_eq_some found

theorem mem_of_mem_architectures (member : entry ∈ library.architectures name) :
    entry ∈ library.entries :=
  (List.mem_filter.mp member).1

/-- What a template names is a primary unit. -/
theorem exists_primary?_of_workUnit? {reference : SelectedName}
    (found : library.workUnit? reference = some entry) : ∃ name, library.primary? name = some entry := by
  unfold workUnit? at found
  split at found
  · exact ⟨_, found⟩
  · split at found
    · exact ⟨_, found⟩
    · contradiction
  · contradiction

end VhdlOrder.Library
