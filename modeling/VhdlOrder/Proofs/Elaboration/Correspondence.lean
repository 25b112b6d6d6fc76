import VhdlOrder.Proofs.Elaboration.Plan
import VhdlOrder.Proofs.Visibility.CorrespondingResolution

/-! # Plans of corresponding libraries

Units of corresponding libraries need corresponding units and are completed by corresponding ones. So there is an
order of both libraries or of none, and plans for corresponding targets exist together and have corresponding
units. The orders themselves may differ, because of units that are ready at the same time the one with the lowest
number comes first.
-/

namespace VhdlOrder

variable {c : Correspondence} {first second : Library} {checks : Checks} {primary target : Entry}
  {unit other index : Nat} {units : Set Nat}

theorem Acyclic.iff_of_perm {r s : Nat → Nat → Prop} (number : Equiv.Perm Nat)
    (agree : ∀ a b, s (number a) (number b) ↔ r a b) : Acyclic s ↔ Acyclic r := by
  constructor
  · intro acyclic
    exact (acyclic.comap number).mono (agree _ _).mpr
  · intro acyclic
    apply (acyclic.comap number.symm).mono
    intro a b related
    rw [← number.apply_symm_apply a, ← number.apply_symm_apply b] at related
    exact (agree _ _).mp related

/-- Nothing is planned for what is no unit. -/
theorem Elaboration.needed_of_size_le {library : Library} {target : Nat} (outside : library.size ≤ target) :
    (ofLibrary library checks).needed target = [] := by
  have absent : target ∉ (ofLibrary library checks).graph.nodes := by
    rw [mem_nodes_graph]
    exact Nat.not_lt_of_le outside
  have alone : (ofLibrary library checks).graph.ancestors target = [] := by
    apply List.eq_nil_iff_forall_not_mem.mpr
    intro node ancestor
    have visited := (Graph.mem_chosen.mp ancestor).2
    rw [Graph.visit, dif_neg absent, Graph.visit] at visited
    exact List.not_mem_nil visited
  rw [needed, alone]
  exact Graph.complete_of_nil (by simp [Graph.missing, Graph.chosen])

namespace Library.Corresponds

open Elaboration

variable (same : first.Corresponds c second)

include same

/-- Units depend on units that correspond to each other, in the same order. -/
theorem units_dependencies (checks : Checks) (index : Nat) :
    ((second.resolve checks).dependencies (c.number index)).map Dependency.unit =
      (((first.resolve checks).dependencies index).map Dependency.unit).map c.number := by
  have dependencies := same.dependencies_resolve checks index
  generalize (first.resolve checks).dependencies index = recorded at dependencies ⊢
  generalize (second.resolve checks).dependencies (c.number index) = recorded' at dependencies ⊢
  induction dependencies with
  | nil => rfl
  | cons here _ ih => rw [List.map_cons, List.map_cons, List.map_cons, here.unit, ih]

theorem needs_iff :
    (second.resolve checks).Needs (c.number unit) (c.number other) ↔ (first.resolve checks).Needs unit other := by
  have among (resolution : Resolution) (unit other : Nat) :
      resolution.Needs unit other ↔ other ∈ (resolution.dependencies unit).map Dependency.unit := by
    rw [Resolution.Needs, List.mem_map]
  rw [among, among, same.units_dependencies, List.mem_map_of_injective c.number.injective]

theorem secondary_iff :
    second.Secondary (primary.image c) target ↔ ∃ entry, first.Secondary primary entry ∧ target = entry.image c := by
  constructor
  · intro completes
    cases completes with
    | body isPackage found =>
      rw [Entry.unit_image, DesignUnit.name_respell, same.body?] at found
      obtain ⟨entry, isBody, rfl⟩ := Option.map_eq_some_iff.mp found
      exact ⟨entry, .body (primary.isPackage_image c ▸ isPackage) isBody, rfl⟩
    | architecture isEntity member =>
      obtain ⟨entry, isArchitecture, rfl⟩ := same.mem_architectures_iff.mp member
      exact ⟨entry, .architecture (primary.isEntity_image c ▸ isEntity) isArchitecture, rfl⟩
  · rintro ⟨entry, completes, rfl⟩
    cases completes with
    | body isPackage found =>
      refine .body ((primary.isPackage_image c).trans isPackage) ?_
      rw [Entry.unit_image, DesignUnit.name_respell, same.body?, found, Option.map_some]
    | architecture isEntity member =>
      exact .architecture ((primary.isEntity_image c).trans isEntity) (same.mem_architectures_iff.mpr ⟨entry, member, rfl⟩)

theorem selfContained_iff :
    second.SelfContained checks units ↔ first.SelfContained checks {unit | c.number unit ∈ units} := by
  constructor
  · intro contained
    constructor
    · intro unit other member needs
      exact contained.need_mem member (same.needs_iff.mpr needs)
    · intro primary member inside secondary completes
      exact contained.secondary_mem _ (same.image_mem member) inside _ (same.secondary_iff.mpr ⟨_, completes, rfl⟩)
  · intro contained
    constructor
    · intro unit other member needs
      rw [← c.number.apply_symm_apply unit, ← c.number.apply_symm_apply other] at needs
      have inside : c.number.symm unit ∈ {unit | c.number unit ∈ units} := by simpa using member
      simpa using contained.need_mem inside (same.needs_iff.mp needs)
    · intro primary member inside secondary completes
      obtain ⟨old, oldMember, rfl⟩ := same.exists_image member
      obtain ⟨entry, oldCompletes, rfl⟩ := same.secondary_iff.mp completes
      exact contained.secondary_mem old oldMember inside entry oldCompletes

/-- A plan needs the units that correspond to those that the plan for the corresponding target needs. -/
theorem mem_needed_iff {target : Nat} :
    c.number unit ∈ (ofLibrary second checks).needed (c.number target) ↔
      unit ∈ (ofLibrary first checks).needed target := by
  by_cases inLibrary : target < first.size
  · have least : IsLeast _ {unit | unit ∈ (ofLibrary first checks).needed target} := isLeast_needed inLibrary
    have least' : IsLeast _ {unit | unit ∈ (ofLibrary second checks).needed (c.number target)} :=
      isLeast_needed (same.lt_size_iff.mpr inLibrary)
    constructor
    · intro needed
      have images : c.number target ∈ {unit | c.number.symm unit ∈ (ofLibrary first checks).needed target} ∧
          second.SelfContained checks {unit | c.number.symm unit ∈ (ofLibrary first checks).needed target} := by
        rw [same.selfContained_iff]
        simpa using least.1
      simpa using least'.2 images needed
    · intro needed
      exact least.2 ⟨least'.1.1, same.selfContained_iff.mp least'.1.2⟩ needed
  · rw [needed_of_size_le (Nat.le_of_not_lt inLibrary),
      needed_of_size_le (Nat.le_of_not_lt (mt same.lt_size_iff.mp inLibrary))]
    exact iff_of_false List.not_mem_nil List.not_mem_nil

/-- Corresponding units are ordered or have a cycle among them. -/
theorem exists_orderWithin_iff {within within' : List Nat} (agree : ∀ unit, c.number unit ∈ within' ↔ unit ∈ within) :
    (∃ order, (ofLibrary second checks).graph.orderWithin within' = .ok order) ↔
      ∃ order, (ofLibrary first checks).graph.orderWithin within = .ok order := by
  rw [Graph.exists_orderWithin_iff (simple_graph _), Graph.exists_orderWithin_iff (simple_graph _),
    acyclic_edgeWithin_iff, acyclic_edgeWithin_iff]
  exact Acyclic.iff_of_perm c.number fun a b => by rw [agree, agree, same.needs_iff]

theorem exists_order_iff :
    (∃ order, (ofLibrary second checks).order = .ok order) ↔ ∃ order, (ofLibrary first checks).order = .ok order := by
  simp only [order_eq_ok_iff]
  exact same.exists_orderWithin_iff fun unit => by rw [mem_nodes_graph, mem_nodes_graph, same.lt_size_iff]

theorem exists_plan_iff {target : Nat} :
    (∃ plan, (ofLibrary second checks).plan (c.number target) = .ok plan) ↔
      ∃ plan, (ofLibrary first checks).plan target = .ok plan := by
  simp only [plan_eq_ok_iff]
  exact same.exists_orderWithin_iff fun unit => same.mem_needed_iff

/-- Plans for corresponding targets have corresponding units. -/
theorem perm_plan {target : Nat} {plan plan' : List Nat} (planned : (ofLibrary first checks).plan target = .ok plan)
    (planned' : (ofLibrary second checks).plan (c.number target) = .ok plan') : plan'.Perm (plan.map c.number) := by
  obtain ⟨perm, -⟩ := Graph.orderWithin_ok (simple_graph _) (plan_eq_ok_iff.mp planned)
  obtain ⟨perm', -⟩ := Graph.orderWithin_ok (simple_graph _) (plan_eq_ok_iff.mp planned')
  refine perm'.trans (.trans ?_ (perm.map c.number).symm)
  rw [List.perm_ext_iff_of_nodup Graph.nodup_chosen (Graph.nodup_chosen.map c.number.injective)]
  intro unit
  obtain ⟨old, rfl⟩ := c.number.surjective unit
  rw [List.mem_map_of_injective c.number.injective, Graph.mem_chosen, Graph.mem_chosen, mem_nodes_graph,
    mem_nodes_graph, same.lt_size_iff, same.mem_needed_iff]

end Library.Corresponds

end VhdlOrder
