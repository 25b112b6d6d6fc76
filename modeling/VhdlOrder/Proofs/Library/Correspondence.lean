import Mathlib.Data.List.Perm.Basic
import Mathlib.Logic.Equiv.Defs
import VhdlOrder.Proofs.Design.Respelling
import VhdlOrder.Proofs.Library.Designations

/-! # Libraries with the same units

Two libraries correspond if the units of the one are those of the other one under other numbers, with names that
are spelled in another way. As units that are looked up by name are known by their designations, which do not
depend on the spelling, corresponding libraries have corresponding units under every name.
-/

namespace VhdlOrder

/-- Another spelling of names and another numbering of units. -/
structure Correspondence where
  spelling : Respelling
  number : Equiv.Perm Nat

/-- The unit that an entry corresponds to. -/
def Entry.image (c : Correspondence) (entry : Entry) : Entry :=
  ⟨c.number entry.index, entry.unit.respell c.spelling⟩

namespace Entry

variable (c : Correspondence) (entry : Entry)

@[simp] theorem index_image : (entry.image c).index = c.number entry.index := rfl

@[simp] theorem unit_image : (entry.image c).unit = entry.unit.respell c.spelling := rfl

@[simp] theorem isPackage_image : (entry.image c).isPackage = entry.isPackage := by simp [isPackage]

@[simp] theorem isEntity_image : (entry.image c).isEntity = entry.isEntity := by simp [isEntity]

end Entry

@[simp] theorem DesignUnit.designation_respell (f : Respelling) (unit : DesignUnit) :
    (unit.respell f).designation = unit.designation := by
  unfold designation
  rw [contents_respell, name_respell, Respelling.key_apply]
  cases unit.contents <;> simp [UnitContents.respell]

namespace Library

/-- The units of the first library are those of the second one in another spelling and under other numbers, in the
same files. -/
structure Corresponds (c : Correspondence) (first second : Library) : Prop where
  name : second.name = c.spelling first.name
  unit? : ∀ index, second.unit? (c.number index) = (first.unit? index).map (DesignUnit.respell c.spelling)
  fileOf : ∀ index, second.fileOf (c.number index) = first.fileOf index
  unambiguous : first.Unambiguous

namespace Corresponds

variable {c : Correspondence} {first second : Library} {entry : Entry} (same : first.Corresponds c second)

include same

theorem image_mem (member : entry ∈ first.entries) : entry.image c ∈ second.entries := by
  rw [mem_entries_iff] at member ⊢
  rw [Entry.index_image, same.unit?, member]
  rfl

theorem exists_image (member : entry ∈ second.entries) : ∃ old ∈ first.entries, entry = old.image c := by
  rw [mem_entries_iff] at member
  have found := same.unit? (c.number.symm entry.index)
  rw [Equiv.apply_symm_apply, member] at found
  obtain ⟨unit, isUnit, respelled⟩ := Option.map_eq_some_iff.mp found.symm
  refine ⟨⟨c.number.symm entry.index, unit⟩, mem_entries_iff.mpr isUnit, ?_⟩
  simp [Entry.image, respelled]

theorem lt_size_iff {index : Nat} : c.number index < second.size ↔ index < first.size := by
  have bound (library : Library) (index : Nat) : index < library.size ↔ (library.unit? index).isSome = true := by
    simp [Library.unit?, Library.size]
  rw [bound, bound, same.unit?, Option.isSome_map]

/-- The numbers of the second library are those that the numbers of the first one correspond to. -/
theorem perm_range : (List.range second.size).Perm ((List.range first.size).map c.number) := by
  rw [List.perm_ext_iff_of_nodup List.nodup_range (List.nodup_range.map c.number.injective)]
  intro index
  rw [List.mem_range, List.mem_map]
  constructor
  · intro bound
    refine ⟨c.number.symm index, ?_, c.number.apply_symm_apply index⟩
    rwa [List.mem_range, ← same.lt_size_iff, Equiv.apply_symm_apply]
  · rintro ⟨old, bound, rfl⟩
    exact same.lt_size_iff.mpr (List.mem_range.mp bound)

theorem size_eq : second.size = first.size := by
  simpa using same.perm_range.length_eq

/-- What is asked of all units of the second library is what is asked of the images of those of the first one, in
some order. -/
theorem perm_map_entries {α : Type} (ask : Entry → α) :
    (second.entries.map ask).Perm (first.entries.map fun entry => ask (entry.image c)) := by
  have unique : (first.entries.map (Entry.image c)).Nodup := by
    apply List.Nodup.of_map Entry.index
    have indices : (first.entries.map (Entry.image c)).map Entry.index = (first.entries.map Entry.index).map c.number := by
      rw [List.map_map, List.map_map]
      rfl
    rw [indices, map_index_entries]
    exact List.nodup_range.map c.number.injective
  have images : second.entries.Perm (first.entries.map (Entry.image c)) := by
    rw [List.perm_ext_iff_of_nodup (nodup_entries second) unique]
    intro entry
    rw [List.mem_map]
    constructor
    · intro member
      obtain ⟨old, oldMember, rfl⟩ := same.exists_image member
      exact ⟨old, oldMember, rfl⟩
    · rintro ⟨old, oldMember, rfl⟩
      exact same.image_mem oldMember
  simpa [Function.comp_def] using images.map ask

/-- Where a search can find one entry only, the search in the second library finds the corresponding one. -/
theorem find?_entries {holds further : Entry → Bool} (agree : ∀ entry, further (entry.image c) = holds entry)
    (only : ∀ entry ∈ first.entries, ∀ other ∈ first.entries, holds entry = true → holds other = true →
      entry = other) :
    second.entries.find? further = (first.entries.find? holds).map (Entry.image c) := by
  cases found : first.entries.find? holds with
  | none =>
    rw [Option.map_none, List.find?_eq_none]
    intro entry member
    obtain ⟨old, oldMember, rfl⟩ := same.exists_image member
    rw [agree]
    exact List.find?_eq_none.mp found old oldMember
  | some entry =>
    have member := List.mem_of_find?_eq_some found
    have accepted : holds entry = true := List.find?_some found
    cases other : second.entries.find? further with
    | none =>
      have missed := List.find?_eq_none.mp other _ (same.image_mem member)
      rw [agree] at missed
      exact absurd accepted missed
    | some target =>
      obtain ⟨old, oldMember, rfl⟩ := same.exists_image (List.mem_of_find?_eq_some other)
      have oldAccepted := List.find?_some other
      rw [agree] at oldAccepted
      rw [only old oldMember entry member oldAccepted accepted, Option.map_some]

theorem primary? (name : Identifier) :
    second.primary? (c.spelling name) = (first.primary? name).map (Entry.image c) := by
  apply same.find?_entries
  · intro entry
    simp
  · intro entry member other otherMember left right
    have designated {entry : Entry} (accepted : (entry.unit.isPrimary && entry.unit.name.same name) = true) :
        entry.unit.designation = .primary name.key :=
      DesignUnit.designation_eq_primary_iff.mpr (by simpa using accepted)
    exact same.unambiguous.eq_of_designation_eq member otherMember ((designated left).trans (designated right).symm)

theorem body? (name : Identifier) :
    second.body? (c.spelling name) = (first.body? name).map (Entry.image c) := by
  apply same.find?_entries
  · intro entry
    simp
  · intro entry member other otherMember left right
    have designated {entry : Entry} (accepted : (entry.unit.kind == .packageBody && entry.unit.name.same name) = true) :
        entry.unit.designation = .body name.key :=
      DesignUnit.designation_eq_body_iff.mpr (by simpa using accepted)
    exact same.unambiguous.eq_of_designation_eq member otherMember ((designated left).trans (designated right).symm)

theorem package? (name : Identifier) :
    second.package? (c.spelling name) = (first.package? name).map (Entry.image c) := by
  unfold Library.package?
  rw [same.primary?]
  cases first.primary? name <;> simp [Option.filter, apply_ite]

theorem mem_architectures_iff {name : Identifier} {target : Entry} :
    target ∈ second.architectures (c.spelling name) ↔ ∃ entry ∈ first.architectures name, target = entry.image c := by
  have agree (entry : Entry) :
      isArchitectureOf (c.spelling name) (entry.image c).unit = isArchitectureOf name entry.unit := by
    unfold isArchitectureOf
    rw [Entry.unit_image, DesignUnit.contents_respell]
    cases entry.unit.contents <;> simp [UnitContents.respell]
  simp only [architectures, List.mem_filter]
  constructor
  · rintro ⟨member, isArchitecture⟩
    obtain ⟨entry, entryMember, rfl⟩ := same.exists_image member
    exact ⟨entry, ⟨entryMember, agree entry ▸ isArchitecture⟩, rfl⟩
  · rintro ⟨entry, ⟨member, isArchitecture⟩, rfl⟩
    exact ⟨same.image_mem member, (agree entry).trans isArchitecture⟩

theorem isWorking (name : Identifier) : second.isWorking (c.spelling name) = first.isWorking name := by
  simp [Library.isWorking, same.name]

theorem workUnit? (name : SelectedName) :
    second.workUnit? (name.respell c.spelling) = (first.workUnit? name).map (Entry.image c) := by
  obtain ⟨leading, suffix⟩ := name
  match suffix with
  | [] => exact same.primary? leading
  | [unit] =>
    simp only [Library.workUnit?, SelectedName.respell, List.map_cons, List.map_nil, same.isWorking, same.primary?]
    split <;> rfl
  | _ :: _ :: _ => rfl

end Corresponds

end Library

end VhdlOrder
