import VhdlOrder.Proofs.Library.Naming

/-! # Short names of secondary units

A package body is named by its package with `body` behind it, an architecture by its entity and its own name. This is
the short name of the unit; the name of the library may stand in front of it. In front of another name, a name that
means the library is always taken for the library. So the short name finds the unit if and only if the name of its
package or entity does not mean the library, while the name with the library in front finds every unit.
-/

namespace VhdlOrder

namespace DesignUnit

variable {unit : DesignUnit} {owner second : Identifier}

/-- Only secondary units have a name of two parts. -/
theorem isPrimary_of_sameParts_pair (named : SelectedName.sameParts [owner, second] unit.address = true) :
    unit.isPrimary = false := by
  unfold address at named
  unfold isPrimary kind
  split at named <;> simp_all [SelectedName.sameParts]

/-- The short name of a package body ends with `body`. -/
theorem same_bodySuffix_of_sameParts_pair (isBody : unit.kind = .packageBody)
    (named : SelectedName.sameParts [owner, second] unit.address = true) : second.same Library.bodySuffix = true := by
  rcases sameParts_pair_iff.mp named with ⟨endsWithBody, -⟩ | ⟨isArchitecture, -⟩
  · exact endsWithBody
  · unfold kind at isBody
    unfold Library.isArchitectureOf at isArchitecture
    split at isArchitecture <;> simp_all

end DesignUnit

namespace Library

variable {library : Library} {first owner second : Identifier} {rest : List Identifier} {entry : Entry}

/-- A name that means the library is dropped in front of another name. -/
theorem find?_of_isWorking (isWorking : library.isWorking first = true) :
    library.find? ⟨first, owner :: rest⟩ = library.findParts (owner :: rest) := by
  simp [find?, isWorking, SelectedName.isExpanded]

theorem find?_of_not_isWorking (notWorking : library.isWorking first = false) :
    library.find? ⟨first, rest⟩ = library.findParts (first :: rest) := by
  simp [find?, notWorking, SelectedName.parts]

/-- Every name that means the library can stand in front of the name of a unit. -/
theorem WellFormed.find?_qualified (wellFormed : library.WellFormed) (member : entry ∈ library.entries)
    (named : SelectedName.sameParts [owner, second] entry.unit.address = true)
    (isWorking : library.isWorking first = true) : library.find? ⟨first, [owner, second]⟩ = some entry := by
  rw [find?_of_isWorking isWorking, wellFormed.findParts_eq_some_iff]
  exact ⟨member, named⟩

/-- Behind a name that means the library, one name is that of a primary unit. -/
theorem find?_pair_of_isWorking (isWorking : library.isWorking owner = true) :
    library.find? ⟨owner, [second]⟩ = library.primary? second := find?_of_isWorking isWorking

/-- No primary unit is called `body`. -/
theorem WellFormed.primary?_body (wellFormed : library.WellFormed) (isBody : second.same bodySuffix = true) :
    library.primary? second = none := by
  rw [Option.eq_none_iff_forall_ne_some]
  intro entry found
  obtain ⟨member, -, same⟩ := wellFormed.unambiguous.primary?_eq_some_iff.mp found
  have reserved := (wellFormed.isName member).not_same_reserved .body
  exact absurd (Identifier.same_trans same isBody) (Bool.eq_false_iff.mp reserved)

/-- The short name of a unit finds it if and only if the first part does not mean the library. -/
theorem WellFormed.find?_pair_eq_some_iff (wellFormed : library.WellFormed) (member : entry ∈ library.entries)
    (named : SelectedName.sameParts [owner, second] entry.unit.address = true) :
    library.find? ⟨owner, [second]⟩ = some entry ↔ library.isWorking owner = false := by
  constructor
  · intro found
    rw [← Bool.not_eq_true]
    intro isWorking
    rw [find?_pair_of_isWorking isWorking, wellFormed.unambiguous.primary?_eq_some_iff] at found
    have secondary := DesignUnit.isPrimary_of_sameParts_pair named
    rw [found.2.1] at secondary
    cases secondary
  · intro notWorking
    rw [find?_of_not_isWorking notWorking, wellFormed.findParts_eq_some_iff]
    exact ⟨member, named⟩

/-- A package body or architecture is found by its name with any name of the library in front. The short name finds it
if and only if the name of the package or entity does not mean the library. Otherwise the short name finds the primary
unit that has the second name, and for a body, as nothing is called `body`, it finds nothing. -/
theorem found_by_short_name (name : Identifier) (steps : List Step) {entry : Entry}
    (member : entry ∈ (run name steps).entries) {owner second : Identifier}
    (named : SelectedName.sameParts [owner, second] entry.unit.address = true) :
    (∀ first, (run name steps).isWorking first = true →
      (run name steps).find? ⟨first, [owner, second]⟩ = some entry) ∧
    ((run name steps).find? ⟨owner, [second]⟩ = some entry ↔ (run name steps).isWorking owner = false) ∧
    ((run name steps).isWorking owner = true →
      (run name steps).find? ⟨owner, [second]⟩ = (run name steps).primary? second ∧
        (entry.unit.kind = .packageBody → (run name steps).find? ⟨owner, [second]⟩ = none)) := by
  have wellFormed := wellFormed_run name steps
  refine ⟨fun first => wellFormed.find?_qualified member named, wellFormed.find?_pair_eq_some_iff member named, ?_⟩
  intro isWorking
  refine ⟨find?_pair_of_isWorking isWorking, fun isBody => ?_⟩
  rw [find?_pair_of_isWorking isWorking]
  exact wellFormed.primary?_body (DesignUnit.same_bodySuffix_of_sameParts_pair isBody named)

namespace Namesake

/-- A package with its body, which is called like the library, and another one. -/
def steps : List Step :=
  [.add "lib.vhd" "package lib is end; package body lib is end;" "elab",
    .add "q.vhd" "package q is end; package body q is end;" "elab", .link]

def filled : Library := run (.basic "lib") steps

theorem addresses_eq : filled.entries.map (fun entry => (entry.index, entry.unit.kind, entry.unit.address)) =
    [(0, .package, [.basic "lib"]), (1, .packageBody, [.basic "lib", bodySuffix]), (2, .package, [.basic "q"]),
      (3, .packageBody, [.basic "q", bodySuffix])] := by
  decide +kernel

/-- There is a body with the number and the address. -/
theorem exists_body (number : Nat) (package : Identifier)
    (listed : (number, UnitKind.packageBody, [package, bodySuffix]) ∈
      filled.entries.map fun entry => (entry.index, entry.unit.kind, entry.unit.address)) :
    ∃ entry ∈ filled.entries, entry.index = number ∧ entry.unit.kind = .packageBody ∧
      SelectedName.sameParts [package, bodySuffix] entry.unit.address = true := by
  obtain ⟨entry, member, same⟩ := List.mem_map.mp listed
  simp only [Prod.mk.injEq] at same
  exact ⟨entry, member, same.1, same.2.1, same.2.2 ▸ SelectedName.sameParts_refl _⟩

theorem isWorking_lib : filled.isWorking (.basic "lib") = true := by decide +kernel

theorem isWorking_q : filled.isWorking (.basic "q") = false := by decide +kernel

end Namesake

/-- One body is found by its short name, the other one, whose package is called like the library, is not. -/
theorem found_by_short_name_namesake :
    Namesake.filled.find? ⟨.basic "lib", [bodySuffix]⟩ = none ∧
      ∃ body other, Namesake.filled.find? ⟨.work, [.basic "lib", bodySuffix]⟩ = some body ∧ body.index = 1 ∧
        Namesake.filled.find? ⟨.basic "q", [bodySuffix]⟩ = some other ∧ other.index = 3 := by
  obtain ⟨body, member, number, isBody, named⟩ :=
    Namesake.exists_body 1 (.basic "lib") (by simp [Namesake.addresses_eq])
  obtain ⟨other, otherMember, otherNumber, -, otherNamed⟩ :=
    Namesake.exists_body 3 (.basic "q") (by simp [Namesake.addresses_eq])
  obtain ⟨qualified, -, unfound⟩ := found_by_short_name (.basic "lib") Namesake.steps member named
  obtain ⟨-, short, -⟩ := found_by_short_name (.basic "lib") Namesake.steps otherMember otherNamed
  exact ⟨(unfound Namesake.isWorking_lib).2 isBody, body, other, qualified .work (by simp [isWorking]), number,
    short.mpr Namesake.isWorking_q, otherNumber⟩

/-- A body whose package is called like the library is not found by its short name. -/
theorem exists_not_found_by_short_name :
    ¬ ∀ (text : String) (name : Identifier) (steps : List Step), Identifier.read text = .ok name →
      ∀ entry ∈ (run name steps).entries, ∀ owner second,
        SelectedName.sameParts [owner, second] entry.unit.address = true →
          (run name steps).find? ⟨owner, [second]⟩ = (run name steps).find? ⟨.work, [owner, second]⟩ := by
  intro alike
  obtain ⟨body, member, -, isBody, named⟩ :=
    Namesake.exists_body 1 (.basic "lib") (by simp [Namesake.addresses_eq])
  have same := alike "lib" (.basic "lib") Namesake.steps (by decide +kernel) body member _ _ named
  have wellFormed : Namesake.filled.WellFormed := wellFormed_run _ _
  have short : Namesake.filled.find? ⟨.basic "lib", [bodySuffix]⟩ = none := by
    rw [find?_pair_of_isWorking Namesake.isWorking_lib, wellFormed.primary?_body (Identifier.same_refl _)]
  have qualified : Namesake.filled.find? ⟨.work, [.basic "lib", bodySuffix]⟩ = some body :=
    wellFormed.find?_qualified member named (by simp [isWorking])
  rw [← Namesake.filled, short, qualified] at same
  cases same

end Library

end VhdlOrder
