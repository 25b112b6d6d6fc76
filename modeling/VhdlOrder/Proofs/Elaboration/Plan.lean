import VhdlOrder.Proofs.Elaboration.Order
import VhdlOrder.Proofs.Graph.Reach

/-! # Plans

A plan has the units of the least set that holds its target and, with each of its units, what the unit
needs and what completes it. Such a set is closed under needs, so a cycle that it touches lies in it, and
the order of a whole library restricted to it is the plan. Plans of one library therefore agree on the
order of the units that they share.
-/

namespace VhdlOrder

namespace Library

/-- `secondary` completes `primary`: it is the body of a package or an architecture of an entity. -/
inductive Secondary (library : Library) (primary secondary : Entry) : Prop
  | body : primary.isPackage = true → library.body? primary.unit.name = some secondary →
      Secondary library primary secondary
  | architecture : primary.isEntity = true → secondary ∈ library.architectures primary.unit.name →
      Secondary library primary secondary

/-- With each of its units, the set has all that the unit needs and all that completes it. -/
structure SelfContained (library : Library) (checks : Checks) (units : Set Nat) : Prop where
  need_mem : ∀ {unit other}, unit ∈ units → (library.resolve checks).Needs unit other → other ∈ units
  secondary_mem : ∀ primary ∈ library.entries, primary.index ∈ units →
    ∀ secondary, library.Secondary primary secondary → secondary.index ∈ units

variable {library : Library} {primary secondary : Entry}

theorem Secondary.mem_entries (completes : library.Secondary primary secondary) :
    secondary ∈ library.entries := by
  cases completes with
  | body _ found => exact mem_of_body? found
  | architecture _ member => exact mem_of_mem_architectures member

end Library

namespace Elaboration

variable {library : Library} {checks : Checks} {target : Nat}

theorem mem_secondaries_iff {primary : Entry} (member : primary ∈ library.entries) {unit : Nat} :
    unit ∈ secondaries library primary.index ↔
      ∃ secondary, library.Secondary primary secondary ∧ secondary.index = unit := by
  rw [Library.mem_entries_iff] at member
  unfold secondaries
  simp only [member]
  constructor
  · intro listed
    split at listed
    · rename_i kind
      obtain ⟨secondary, found, same⟩ := List.mem_map.mp listed
      have isPackage : primary.isPackage = true := by rw [Entry.isPackage, kind]; rfl
      exact ⟨secondary, .body isPackage (Option.mem_toList.mp found), same⟩
    · rename_i kind
      obtain ⟨secondary, found, same⟩ := List.mem_map.mp listed
      have isEntity : primary.isEntity = true := by rw [Entry.isEntity, kind]; rfl
      exact ⟨secondary, .architecture isEntity found, same⟩
    · exact absurd listed List.not_mem_nil
  · rintro ⟨secondary, completes, same⟩
    cases completes with
    | body isPackage found =>
      have kind : primary.unit.kind = .package := eq_of_beq isPackage
      rw [kind]
      exact List.mem_map.mpr ⟨secondary, Option.mem_toList.mpr found, same⟩
    | architecture isEntity found =>
      have kind : primary.unit.kind = .entity := eq_of_beq isEntity
      rw [kind]
      exact List.mem_map.mpr ⟨secondary, found, same⟩

/-- Only units of the library have secondary units. -/
theorem exists_entry_of_mem_secondaries {index unit : Nat} (listed : unit ∈ secondaries library index) :
    ∃ primary ∈ library.entries, primary.index = index := by
  apply Library.exists_entry
  apply Nat.lt_of_not_le
  intro outside
  have none : library.unit? index = none := by
    rw [Library.unit?, List.getElem?_eq_none outside, Option.map_none]
  rw [secondaries, none] at listed
  exact List.not_mem_nil listed

/-- A set of units is self-contained if it is complete in the graph. -/
theorem complete_graph_iff {units : Set Nat} :
    (ofLibrary library checks).graph.Complete (secondaries library) units ↔
      library.SelfContained checks units := by
  constructor
  · intro whole
    constructor
    · intro unit other member needs
      exact whole.predecessor_mem (edge_graph_iff.mpr needs) member
    · intro primary member inside secondary completes
      exact whole.companion_mem _ inside _ ((mem_secondaries_iff member).mpr ⟨secondary, completes, rfl⟩)
  · intro contained
    constructor
    · intro other unit edge member
      exact contained.need_mem member (edge_graph_iff.mp edge)
    · intro index inside unit listed
      obtain ⟨primary, member, rfl⟩ := exists_entry_of_mem_secondaries listed
      obtain ⟨secondary, completes, rfl⟩ := (mem_secondaries_iff member).mp listed
      exact contained.secondary_mem primary member inside secondary completes

/-- What a plan needs is the least self-contained set with the target. -/
theorem isLeast_needed (inLibrary : target < library.size) :
    IsLeast {units | target ∈ units ∧ library.SelfContained checks units}
      {unit | unit ∈ (ofLibrary library checks).needed target} := by
  have inside : ∀ member ∈ (ofLibrary library checks).graph.nodes,
      ∀ companion ∈ secondaries library member, companion ∈ (ofLibrary library checks).graph.nodes := by
    intro index _ unit listed
    obtain ⟨primary, member, rfl⟩ := exists_entry_of_mem_secondaries listed
    obtain ⟨secondary, completes, rfl⟩ := (mem_secondaries_iff member).mp listed
    exact mem_nodes_graph.mpr (Library.index_lt completes.mem_entries)
  have least := Graph.isLeast_complete (simple_graph (ofLibrary library checks)) inside
    (mem_nodes_graph.mpr inLibrary)
  simp only [complete_graph_iff] at least
  exact least

theorem growing_needed (inLibrary : target < library.size) :
    (ofLibrary library checks).graph.Growing ((ofLibrary library checks).needed target) := by
  have simple := simple_graph (ofLibrary library checks)
  exact Graph.growing_complete _ (Graph.growing_ancestors simple (mem_nodes_graph.mpr inLibrary)) simple

theorem plan_eq_ok_iff {elaboration : Elaboration} {order : List Nat} :
    elaboration.plan target = .ok order ↔
      elaboration.graph.orderWithin (elaboration.needed target) = .ok order := by
  unfold plan
  cases elaboration.graph.orderWithin (elaboration.needed target) <;> simp [Except.mapError]

theorem exists_plan_eq_error_iff {elaboration : Elaboration} :
    (∃ fault, elaboration.plan target = .error fault) ↔ ¬ ∃ order, elaboration.plan target = .ok order := by
  cases elaboration.plan target <;> simp

/-- A plan that exists has what it needs, each unit once and behind all that the unit needs. -/
theorem plan_ok (inLibrary : target < library.size) {order : List Nat}
    (planned : (ofLibrary library checks).plan target = .ok order) :
    (∀ unit, unit ∈ order ↔ unit ∈ (ofLibrary library checks).needed target) ∧ order.Nodup ∧
      ∀ {unit other}, unit ∈ order → (library.resolve checks).Needs unit other →
        Precedes order other unit := by
  have growing : (ofLibrary library checks).graph.Growing ((ofLibrary library checks).needed target) :=
    growing_needed inLibrary
  obtain ⟨perm, respects⟩ := Graph.orderWithin_ok (simple_graph _) (plan_eq_ok_iff.mp planned)
  have mem_order (unit : Nat) : unit ∈ order ↔ unit ∈ (ofLibrary library checks).needed target := by
    rw [perm.mem_iff, Graph.mem_chosen]
    exact ⟨fun both => both.2, fun needed => ⟨growing.inGraph unit needed, needed⟩⟩
  refine ⟨mem_order, perm.nodup_iff.mpr Graph.nodup_chosen, ?_⟩
  intro unit other member needs
  have edge := edge_graph_iff.mpr needs
  have needed := (mem_order unit).mp member
  exact respects ⟨edge, growing.predecessor_mem edge needed, needed⟩

/-- What is planned is planned as in the order of the whole library. -/
theorem plan_eq_filter (library : Library) (checks : Checks) {full : List Nat} {target : Nat}
    (sorted : (ofLibrary library checks).order = .ok full) (inLibrary : target < library.size) :
    (ofLibrary library checks).plan target =
      .ok (full.filter ((ofLibrary library checks).needed target).contains) := by
  apply plan_eq_ok_iff.mpr
  exact Graph.orderWithin_of_closed (growing_needed inLibrary).predecessor_mem (order_eq_ok_iff.mp sorted)

theorem precedes_plan_iff {full plan : List Nat} (sorted : (ofLibrary library checks).order = .ok full)
    (inLibrary : target < library.size) (planned : (ofLibrary library checks).plan target = .ok plan)
    {first second : Nat} (first_mem : first ∈ plan) (second_mem : second ∈ plan) :
    Precedes plan first second ↔ Precedes full first second := by
  obtain rfl := Except.ok.inj ((plan_eq_filter library checks sorted inLibrary).symm.trans planned)
  exact Precedes.filter_iff (List.mem_filter.mp first_mem).2 (List.mem_filter.mp second_mem).2

end Elaboration

namespace Layered

/-- What the plan for the instance needs: the package that it is made from comes first, then its body. -/
theorem needed_copy : (Elaboration.ofLibrary library .standard).needed 1 = [1, 2, 3] := by
  have ancestors : (Elaboration.ofLibrary library .standard).graph.ancestors 1 = [1, 2] := by cbv
  have missing : (Elaboration.ofLibrary library .standard).graph.missing
      (Elaboration.secondaries library) [1, 2] = [3] := by cbv
  have extended : (Elaboration.ofLibrary library .standard).graph.extend [1, 2] [3] = [1, 2, 3] := by cbv
  have whole : (Elaboration.ofLibrary library .standard).graph.missing
      (Elaboration.secondaries library) [1, 2, 3] = [] := by cbv
  change Graph.complete _ (Elaboration.secondaries library) _ = _
  rw [ancestors, Graph.complete_of_ne_nil (missing ▸ List.cons_ne_nil _ _), missing, extended,
    Graph.complete_of_nil whole]

theorem plan_copy : (Elaboration.ofLibrary library .standard).plan 1 = .ok [2, 1, 3] := by
  rw [Elaboration.plan_eq_filter library .standard order_library (by decide), needed_copy]
  rfl

end Layered

namespace Elaboration

/-- A plan sorts the least self-contained set with its target; it fails exactly if that set holds a
cycle. -/
theorem plan_sorts_least (library : Library) (checks : Checks) {target : Nat}
    (inLibrary : target < library.size) :
    ∃ units : Set Nat,
      IsLeast {units | target ∈ units ∧ library.SelfContained checks units} units ∧
      (∀ order, (ofLibrary library checks).plan target = .ok order →
        {unit | unit ∈ order} = units ∧ order.Nodup ∧
          ∀ unit ∈ order, ∀ other, (library.resolve checks).Needs unit other →
            Precedes order other unit) ∧
      ((∃ fault, (ofLibrary library checks).plan target = .error fault) ↔
        ¬ Acyclic fun unit other =>
          unit ∈ units ∧ other ∈ units ∧ (library.resolve checks).Needs unit other) := by
  refine ⟨{unit | unit ∈ (ofLibrary library checks).needed target}, isLeast_needed inLibrary, ?_, ?_⟩
  · intro order planned
    obtain ⟨mem_order, unique, respects⟩ := plan_ok inLibrary planned
    exact ⟨Set.ext mem_order, unique, fun unit member other => respects member⟩
  · have ordered : (∃ order, (ofLibrary library checks).plan target = .ok order) ↔
        Acyclic ((ofLibrary library checks).graph.EdgeWithin ((ofLibrary library checks).needed target)) := by
      simp only [plan_eq_ok_iff]
      exact Graph.exists_orderWithin_iff (simple_graph _)
    rw [exists_plan_eq_error_iff, ordered, acyclic_edgeWithin_iff]
    rfl

/-- The plan for the instance lacks the package that uses it, but has the body of its template. -/
theorem plan_sorts_least_copy :
    ∃ units : Set Nat,
      IsLeast {units | 1 ∈ units ∧ Layered.library.SelfContained .standard units} units ∧
        {unit | unit ∈ [2, 1, 3]} = units := by
  obtain ⟨units, least, sorted, -⟩ :=
    plan_sorts_least Layered.library .standard (show 1 < Layered.library.size by decide)
  exact ⟨units, least, (sorted [2, 1, 3] Layered.plan_copy).1⟩

/-- If a library has an order, every plan is the part of it that it is about, so no two plans order units
that they share in different ways. -/
theorem plans_follow_order (library : Library) (checks : Checks) {full : List Nat}
    (sorted : (ofLibrary library checks).order = .ok full) :
    (∀ target < library.size, ∃ plan, (ofLibrary library checks).plan target = .ok plan ∧
        plan = full.filter fun unit => plan.contains unit) ∧
      ∀ first < library.size, ∀ second < library.size, ∀ plan other,
        (ofLibrary library checks).plan first = .ok plan →
        (ofLibrary library checks).plan second = .ok other →
          ∀ a b, a ∈ plan → b ∈ plan → a ∈ other → b ∈ other →
            (Precedes plan a b ↔ Precedes other a b) := by
  constructor
  · intro target inLibrary
    refine ⟨_, plan_eq_filter library checks sorted inLibrary, List.filter_congr ?_⟩
    intro unit member
    rw [Bool.eq_iff_iff, List.contains_iff_mem, List.contains_iff_mem, List.mem_filter,
      List.contains_iff_mem]
    exact (and_iff_right member).symm
  · intro first firstInLibrary second secondInLibrary plan other planned otherPlanned
      a b aPlanned bPlanned aOther bOther
    rw [precedes_plan_iff sorted firstInLibrary planned aPlanned bPlanned,
      precedes_plan_iff sorted secondInLibrary otherPlanned aOther bOther]

/-- The package comes before its body in the plan for the instance as in the plan for the body. -/
theorem plans_follow_order_body : Precedes [2, 1, 3] 2 3 ↔ Precedes [2, 3] 2 3 := by
  have body : (ofLibrary Layered.library .standard).plan 3 = .ok [2, 3] := by cbv
  exact (plans_follow_order Layered.library .standard Layered.order_library).2 1 (by decide) 3 (by decide)
    [2, 1, 3] [2, 3] Layered.plan_copy body 2 3 (by decide) (by decide) (by decide) (by decide)

end Elaboration

end VhdlOrder
