import VhdlOrder.Proofs.Library.Designations

/-! # Lookups in an unambiguous library

Lookups answer the first unit that fits. In an unambiguous library no other one does, so what is found is the unit
of the kind and name. Units that are put behind the others change nothing that is found.
-/

namespace VhdlOrder.Library

variable {library after : Library} {entry : Entry} {name entity : Identifier}

/-- Where only one element fits, finding it is finding it among the elements. -/
theorem find?_eq_some_iff_of_unique {α : Type} {fits : α → Bool} {items : List α} {item : α}
    (unique : ∀ first ∈ items, ∀ second ∈ items, fits first = true → fits second = true → first = second) :
    items.find? fits = some item ↔ item ∈ items ∧ fits item = true := by
  constructor
  · intro found
    exact ⟨List.mem_of_find?_eq_some found, List.find?_some found⟩
  · rintro ⟨member, accepted⟩
    obtain ⟨other, found⟩ := Option.isSome_iff_exists.mp (List.find?_isSome.mpr ⟨item, member, accepted⟩)
    rw [found, unique other (List.mem_of_find?_eq_some found) item member (List.find?_some found) accepted]

namespace Unambiguous

/-- The primary unit that is found is the one with the name. -/
theorem primary?_eq_some_iff (unambiguous : library.Unambiguous) : library.primary? name = some entry ↔
    entry ∈ library.entries ∧ entry.unit.isPrimary = true ∧ entry.unit.name.same name = true := by
  rw [← Bool.and_eq_true]
  refine find?_eq_some_iff_of_unique fun first member second member' fits fits' => ?_
  rw [Bool.and_eq_true, ← DesignUnit.designation_eq_primary_iff] at fits fits'
  exact unambiguous.eq_of_designation_eq member member' (fits.trans fits'.symm)

/-- The body that is found is the one of the package. -/
theorem body?_eq_some_iff (unambiguous : library.Unambiguous) : library.body? name = some entry ↔
    entry ∈ library.entries ∧ entry.unit.kind = .packageBody ∧ entry.unit.name.same name = true := by
  rw [← beq_iff_eq (a := entry.unit.kind), ← Bool.and_eq_true]
  refine find?_eq_some_iff_of_unique fun first member second member' fits fits' => ?_
  rw [Bool.and_eq_true, beq_iff_eq, ← DesignUnit.designation_eq_body_iff] at fits fits'
  exact unambiguous.eq_of_designation_eq member member' (fits.trans fits'.symm)

/-- The architecture that is found is the one of the entity with the name. -/
theorem architecture?_eq_some_iff (unambiguous : library.Unambiguous) :
    library.architecture? entity name = some entry ↔
      entry ∈ library.entries ∧ isArchitectureOf entity entry.unit = true ∧ entry.unit.name.same name = true := by
  have among : entry ∈ library.architectures entity ↔
      entry ∈ library.entries ∧ isArchitectureOf entity entry.unit = true := List.mem_filter
  rw [← and_assoc, ← among]
  refine find?_eq_some_iff_of_unique fun first member second member' fits fits' => ?_
  obtain ⟨present, isOf⟩ := List.mem_filter.mp member
  obtain ⟨present', isOf'⟩ := List.mem_filter.mp member'
  have known := DesignUnit.designation_eq_architecture_iff.mpr ⟨isOf, fits⟩
  have known' := DesignUnit.designation_eq_architecture_iff.mpr ⟨isOf', fits'⟩
  exact unambiguous.eq_of_designation_eq present present' (known.trans known'.symm)

end Unambiguous

/-! ## Units behind the others -/

theorem find?_mono {α : Type} {fits : α → Bool} {items more : List α} {item : α} (grown : items <+: more)
    (found : items.find? fits = some item) : more.find? fits = some item := by
  obtain ⟨rest, rfl⟩ := grown
  rw [List.find?_append, found, Option.some_or]

theorem primary?_mono (grown : library.units <+: after.units) (found : library.primary? name = some entry) :
    after.primary? name = some entry :=
  find?_mono (entries_mono grown) found

theorem body?_mono (grown : library.units <+: after.units) (found : library.body? name = some entry) :
    after.body? name = some entry :=
  find?_mono (entries_mono grown) found

theorem architectures_mono (grown : library.units <+: after.units) (entity : Identifier) :
    library.architectures entity <+: after.architectures entity :=
  (entries_mono grown).filter _

end VhdlOrder.Library
