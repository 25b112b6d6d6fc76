import VhdlOrder.Proofs.Library.History
import VhdlOrder.Proofs.Library.Lookups

/-! # The names that find units

A primary unit is found by its name, a package body by that of the package with `body` behind it, and an
architecture by the names of its entity and its own; the name of the library may stand in front. As `body` is
reserved, no architecture has this name, and a name finds a unit exactly if it is the one of the unit.
-/

namespace VhdlOrder

/-- The identifiers that name the unit in its library. -/
def DesignUnit.address (unit : DesignUnit) : List Identifier :=
  match unit.contents with
  | .packageBody _ => [unit.name, Library.bodySuffix]
  | .architecture entity => [entity, unit.name]
  | _ => [unit.name]

theorem SelectedName.sameParts_refl (parts : List Identifier) : sameParts parts parts = true := by
  induction parts with
  | nil => rfl
  | cons part rest ih => simp [sameParts, ih]

namespace DesignUnit

variable {unit : DesignUnit} {name owner : Identifier}

theorem exists_address_eq_cons (unit : DesignUnit) : ∃ first rest, unit.address = first :: rest := by
  unfold address
  split <;> exact ⟨_, _, rfl⟩

theorem length_address_le (unit : DesignUnit) : unit.address.length ≤ 2 := by
  unfold address
  split <;> simp

theorem sameParts_name_iff : SelectedName.sameParts [name] unit.address = true ↔
    unit.isPrimary = true ∧ unit.name.same name = true := by
  unfold address isPrimary kind
  cases unit.contents <;> simp [SelectedName.sameParts, Identifier.same_comm name]

theorem sameParts_pair_iff : SelectedName.sameParts [owner, name] unit.address = true ↔
    (name.same Library.bodySuffix = true ∧ unit.kind = .packageBody ∧ unit.name.same owner = true) ∨
      (Library.isArchitectureOf owner unit = true ∧ unit.name.same name = true) := by
  unfold address kind Library.isArchitectureOf
  cases unit.contents <;>
    simp [SelectedName.sameParts, Identifier.same_comm owner, Identifier.same_comm name unit.name, and_comm]

end DesignUnit

namespace Library

variable {library : Library}

/-- The identifiers of the name without that of the library in front. -/
def unqualified (library : Library) (name : SelectedName) : List Identifier :=
  if library.isWorking name.first && name.isExpanded then name.suffix else name.parts

theorem find?_eq_findParts (name : SelectedName) :
    library.find? name = library.findParts (library.unqualified name) := by
  unfold find? unqualified
  split <;> rfl

/-- No architecture is called `body`. -/
theorem WellFormed.architecture?_body (wellFormed : library.WellFormed) (owner : Identifier)
    {name : Identifier} (isBody : name.same bodySuffix = true) : library.architecture? owner name = none := by
  rw [Option.eq_none_iff_forall_ne_some]
  intro entry found
  obtain ⟨member, -, same⟩ := wellFormed.unambiguous.architecture?_eq_some_iff.mp found
  have reserved := (wellFormed.isName member).not_same_reserved .body
  exact absurd (Identifier.same_trans same isBody) (Bool.eq_false_iff.mp reserved)

/-- Identifiers find the unit whose address they are. -/
theorem WellFormed.findParts_eq_some_iff (wellFormed : library.WellFormed) {parts : List Identifier} {entry : Entry} :
    library.findParts parts = some entry ↔
      entry ∈ library.entries ∧ SelectedName.sameParts parts entry.unit.address = true := by
  have unambiguous := wellFormed.unambiguous
  obtain _ | ⟨owner, _ | ⟨name, _ | ⟨further, rest⟩⟩⟩ := parts
  · obtain ⟨first, rest, address⟩ := entry.unit.exists_address_eq_cons
    simp [findParts, address, SelectedName.sameParts]
  · rw [DesignUnit.sameParts_name_iff]
    exact unambiguous.primary?_eq_some_iff
  · rw [DesignUnit.sameParts_pair_iff]
    cases isBody : name.same bodySuffix with
    | false =>
      simp only [findParts, isBody, Bool.false_eq_true, if_false, false_and, false_or]
      exact unambiguous.architecture?_eq_some_iff
    | true =>
      have noArchitecture := wellFormed.architecture?_body owner isBody
      have answer : library.findParts [owner, name] = library.body? owner := by
        simp only [findParts, isBody, if_true, noArchitecture]
        cases library.body? owner <;> rfl
      have notBoth : ¬ (entry ∈ library.entries ∧ isArchitectureOf owner entry.unit = true ∧
          entry.unit.name.same name = true) := by
        rw [← unambiguous.architecture?_eq_some_iff, noArchitecture]
        simp
      rw [answer, unambiguous.body?_eq_some_iff]
      tauto
  · have short := entry.unit.length_address_le
    obtain ⟨first, tail, address⟩ := entry.unit.exists_address_eq_cons
    obtain _ | ⟨second, _ | ⟨third, more⟩⟩ := tail
    · simp [findParts, address, SelectedName.sameParts]
    · simp [findParts, address, SelectedName.sameParts]
    · simp [address] at short

/-- A name finds the unit that has it, whether the name of the library stands in front or not. -/
theorem WellFormed.find?_eq_some_iff (wellFormed : library.WellFormed) {name : SelectedName} {entry : Entry} :
    library.find? name = some entry ↔
      entry ∈ library.entries ∧ SelectedName.sameParts (library.unqualified name) entry.unit.address = true := by
  rw [find?_eq_findParts, wellFormed.findParts_eq_some_iff]

/-- Behind `work` the address of a unit is all that is left of a name. -/
theorem unqualified_work (unit : DesignUnit) : library.unqualified ⟨.work, unit.address⟩ = unit.address := by
  obtain ⟨first, rest, address⟩ := unit.exists_address_eq_cons
  simp [unqualified, isWorking, SelectedName.isExpanded, address]

/-- Every unit of a library is found by its address behind `work`; and what a name finds is the unit whose address
the name is, behind one name of the library at most. -/
theorem found_by_address (name : Identifier) (steps : List Step) :
    (∀ entry ∈ (run name steps).entries, (run name steps).find? ⟨.work, entry.unit.address⟩ = some entry) ∧
      ∀ selected entry, (run name steps).find? selected = some entry ↔ entry ∈ (run name steps).entries ∧
        SelectedName.sameParts ((run name steps).unqualified selected) entry.unit.address = true := by
  have wellFormed := wellFormed_run name steps
  refine ⟨fun entry member => ?_, fun selected entry => wellFormed.find?_eq_some_iff⟩
  rw [wellFormed.find?_eq_some_iff, unqualified_work]
  exact ⟨member, SelectedName.sameParts_refl _⟩

/-- An entity with an architecture and, in another source, a package with its body. -/
def Sample.steps : List Step :=
  [.add "e.vhd" "entity e is end; architecture rtl of E is begin end;" "elab",
    .add "p.vhd" "package p is end; package body P is end;" "elab", .link]

/-- The body and the architecture are found by their addresses. -/
theorem found_by_address_secondary :
    ∃ architecture body, (run .work Sample.steps).find? ⟨.work, [.basic "E", .basic "rtl"]⟩ = some architecture ∧
      (run .work Sample.steps).find? ⟨.work, [.basic "P", bodySuffix]⟩ = some body ∧
      architecture.index = 1 ∧ body.index = 3 := by
  obtain ⟨found, -⟩ := found_by_address .work Sample.steps
  have known : (run .work Sample.steps).entries.map (fun entry => (entry.index, entry.unit.address)) =
      [(0, [.basic "e"]), (1, [.basic "E", .basic "rtl"]), (2, [.basic "p"]), (3, [.basic "P", bodySuffix])] := by
    decide +kernel
  have there (number : Nat) (address : List Identifier)
      (listed : (number, address) ∈
        (run .work Sample.steps).entries.map fun entry => (entry.index, entry.unit.address)) :
      ∃ entry, (run .work Sample.steps).find? ⟨.work, address⟩ = some entry ∧ entry.index = number := by
    obtain ⟨entry, member, same⟩ := List.mem_map.mp listed
    cases same
    exact ⟨entry, found entry member, rfl⟩
  obtain ⟨architecture, isFound, first⟩ := there 1 [.basic "E", .basic "rtl"] (by rw [known]; simp)
  obtain ⟨body, isFound', second⟩ := there 3 [.basic "P", bodySuffix] (by rw [known]; simp)
  exact ⟨architecture, body, isFound, isFound', first, second⟩

end Library

end VhdlOrder
