import VhdlOrder.Proofs.Visibility.Clauses
import VhdlOrder.Proofs.Visibility.Context

/-! # What a context expands to

References to context declarations stand for what these declarations provide, and may lead back to where they came
from. An expanded context has exactly the items that can be reached: those that are written, and those that a
context declaration provides to which one of them refers. Every declaration is put in at most once, so an expansion
is no longer than the context and all context declarations of the library together.
-/

namespace VhdlOrder.ContextItem

variable {library : Library} {item other : ContextItem} {items more : List ContextItem} {index : Nat}

/-- The item is one of `items`, or a context declaration provides it to which an item refers that is reached. -/
inductive Reached (library : Library) (items : List ContextItem) : ContextItem → Prop
  | here {item : ContextItem} : item ∈ items → Reached library items item
  | provided {item other : ContextItem} {index : Nat} {more : List ContextItem} : Reached library items other →
      provided? library other = some (index, more) → item ∈ more → Reached library items item

/-- What an item provides is the clause of a context declaration of the library. -/
theorem exists_entry_of_provided? (opens : provided? library item = some (index, items)) :
    ∃ target ∈ library.entries, target.index = index ∧
      ∃ clause, target.unit.clause? = some clause ∧ items = ofClause clause none := by
  obtain ⟨context, target, clause, rfl, found, isContext, rfl⟩ := exists_of_provided? opens
  obtain ⟨name, primary⟩ := exists_primary?_of_target? found
  have number : target.index = index := by
    simpa [provided?, found, isContext] using congrArg (Option.map Prod.fst) opens
  exact ⟨target, (Library.of_primary? primary).1, number, clause, isContext, rfl⟩

/-- Items that refer to one context declaration provide the same. -/
theorem provided?_eq_of_index_eq (first : provided? library item = some (index, items))
    (second : provided? library other = some (index, more)) : items = more := by
  obtain ⟨target, member, number, clause, isContext, rfl⟩ := exists_entry_of_provided? first
  obtain ⟨target', member', number', clause', isContext', rfl⟩ := exists_entry_of_provided? second
  obtain rfl := Library.eq_of_index_eq member member' (number.trans number'.symm)
  rw [Option.some.inj (isContext.symm.trans isContext')]

/-- The list `whole` has the items and, with each of its items, what the item provides by a declaration in
`unvisited`. -/
structure Covers (library : Library) (unvisited : List Nat) (items whole : List ContextItem) : Prop where
  items : items ⊆ whole
  provided : ∀ item ∈ whole, ∀ index more, provided? library item = some (index, more) →
    index ∈ unvisited → more ⊆ whole

theorem covers_expandWithin (unvisited : List Nat) (items : List ContextItem) :
    Covers library unvisited items (expandWithin library unvisited items) := by
  induction unvisited, items using expandWithin.induct library with
  | case1 unvisited =>
    rw [expandWithin]
    exact ⟨List.Subset.refl _, fun item member => absurd member List.not_mem_nil⟩
  | case2 unvisited item rest index more opens fresh ih =>
    rw [expandWithin]
    simp only [opens, dif_pos fresh]
    obtain ⟨inMore, inRest⟩ := List.append_subset.mp ih.items
    refine ⟨List.cons_subset_cons item inRest, fun other member number provided opens' unvisited' => ?_⟩
    apply List.subset_cons_of_subset
    -- the declaration that is put in here is visited from now on; all others are left to the rest
    by_cases same : number = index
    · subst same
      rw [provided?_eq_of_index_eq opens' opens]
      exact inMore
    · rcases List.mem_cons.mp member with rfl | later
      · exact absurd (congrArg Prod.fst (Option.some.inj (opens'.symm.trans opens))) same
      · exact ih.provided other later number provided opens' ((List.mem_erase_of_ne same).mpr unvisited')
  | case3 unvisited item rest index more opens visited ih =>
    rw [expandWithin]
    simp only [opens, dif_neg visited]
    refine ⟨List.cons_subset_cons item ih.items, fun other member number provided opens' unvisited' => ?_⟩
    apply List.subset_cons_of_subset
    rcases List.mem_cons.mp member with rfl | later
    · obtain rfl : number = index := congrArg Prod.fst (Option.some.inj (opens'.symm.trans opens))
      exact absurd unvisited' visited
    · exact ih.provided other later number provided opens' unvisited'
  | case4 unvisited item rest closed ih =>
    rw [expandWithin]
    simp only [closed]
    refine ⟨List.cons_subset_cons item ih.items, fun other member number provided opens' unvisited' => ?_⟩
    apply List.subset_cons_of_subset
    rcases List.mem_cons.mp member with rfl | later
    · rw [closed] at opens'
      cases opens'
    · exact ih.provided other later number provided opens' unvisited'

/-- An expanded context has exactly the items that can be reached. -/
theorem mem_expand_iff : item ∈ expand library items ↔ Reached library items item := by
  constructor
  · refine fun member => forall_mem_expand (fun item => .here) ?_ item member
    exact fun other index more reached opens item present => .provided reached opens present
  · intro reached
    have covers : Covers library (List.range library.size) items (expand library items) := covers_expandWithin _ items
    induction reached with
    | here present => exact covers.items present
    | provided _ opens present ih =>
      obtain ⟨target, member, rfl, -⟩ := exists_entry_of_provided? opens
      exact covers.provided _ ih _ _ opens (List.mem_range.mpr (Library.index_lt member)) present

/-- A context that refers to no context declaration of the library stays as it is written. -/
theorem expand_eq_self (closed : ∀ item ∈ items, provided? library item = none) : expand library items = items := by
  have within (unvisited : List Nat) : expandWithin library unvisited items = items := by
    induction items with
    | nil => rw [expandWithin]
    | cons item rest ih =>
      obtain ⟨here, behind⟩ := List.forall_mem_cons.mp closed
      rw [expandWithin]
      simp only [here, ih behind]
  exact within _

/-! ## The length of an expansion -/

/-- The items that the unit of a number provides if it is a context declaration. -/
def supply (library : Library) (index : Nat) : List ContextItem :=
  (((library.unit? index).bind DesignUnit.clause?).map fun clause => ofClause clause none).getD []

theorem supply_of_provided? (opens : provided? library item = some (index, items)) : supply library index = items := by
  obtain ⟨target, member, rfl, clause, isContext, rfl⟩ := exists_entry_of_provided? opens
  rw [supply, Library.mem_entries_iff.mp member]
  simp [isContext]

/-- An expansion has the items and at most once what each of the unvisited declarations provides. -/
theorem length_expandWithin_le (unvisited : List Nat) (items : List ContextItem) :
    (expandWithin library unvisited items).length ≤ items.length + (unvisited.flatMap (supply library)).length := by
  induction unvisited, items using expandWithin.induct library with
  | case1 unvisited =>
    rw [expandWithin]
    exact Nat.zero_le _
  | case2 unvisited item rest index more opens fresh ih =>
    rw [expandWithin]
    simp only [opens, dif_pos fresh, List.length_cons]
    have spent := ((List.perm_cons_erase fresh).flatMap_right (supply library)).length_eq
    rw [List.flatMap_cons, List.length_append, supply_of_provided? opens] at spent
    rw [List.length_append] at ih
    omega
  | case3 unvisited item rest index more opens visited ih =>
    rw [expandWithin]
    simp only [opens, dif_neg visited, List.length_cons]
    omega
  | case4 unvisited item rest closed ih =>
    rw [expandWithin]
    simp only [closed, List.length_cons]
    omega

end VhdlOrder.ContextItem
