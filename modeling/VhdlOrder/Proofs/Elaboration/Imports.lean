import VhdlOrder.Proofs.Elaboration.Order
import VhdlOrder.Proofs.Graph.Reach

/-! # Names and what they come from

Every instance needs its template, so from the package that declares something there is a path of edges to
each package that makes it available through a chain of instances. What a resolved name in a package or
package body denotes comes from a unit that is needed; the package that declares it is therefore an
ancestor of the unit with the name, and stands before it in every order.
-/

namespace VhdlOrder.Elaboration

open Relation

variable {library : Library} {checks : Checks} {entry source origin : Entry}

/-- A unit of which a dependency is found is the unit itself or has an edge to it. -/
theorem path_of_found (member : entry ∈ library.entries)
    (found : ∃ dependency ∈ (Resolution.findings library checks.deferredConstants entry).dependencies,
      dependency.unit = source.index) :
    ReflTransGen (ofLibrary library checks).graph.Edge source.index entry.index := by
  by_cases same : source.index = entry.index
  · rw [same]
  · exact .single (edge_graph_iff.mpr (Library.needs_resolve member found same))

/-- There is a path along a chain of instances from the package at its end. -/
theorem path_of_origin (member : source ∈ library.entries) (chain : library.Origin source origin) :
    ReflTransGen (ofLibrary library checks).graph.Edge origin.index source.index := by
  obtain ⟨steps, plain⟩ := chain
  induction steps using ReflTransGen.head_induction_on with
  | refl => exact .refl
  | @head derived template step rest ih =>
    have isPackage := Library.Origin.isPackage ⟨rest, plain⟩
    have found := Resolution.exists_dependency_of_instantiates checks.deferredConstants step isPackage
    exact (ih step.mem_entries).trans (path_of_found member found)

/-- What has a path to a unit does not come after it in an order. -/
theorem eq_or_precedes_of_path {elaboration : Elaboration} {order : List Nat} {first second : Nat}
    (sorted : elaboration.order = .ok order) (unique : order.Nodup)
    (path : ReflTransGen elaboration.graph.Edge first second) :
    first = second ∨ Precedes order first second := by
  rcases reflTransGen_iff_eq_or_transGen.mp path with same | steps
  · exact .inl same.symm
  · exact .inr (Precedes.of_transGen unique (precedes_of_edge sorted) steps)

/-- A name that is resolved in a package or package body, and that an import or a prefix gives its meaning,
leads to a unit that is the unit itself or needed by it; what the name denotes is declared in a package
that is an ancestor of the unit, and that no order places behind it. -/
theorem declared_before_use (library : Library) (checks : Checks) {entry source : Entry}
    {site : Lookup.Site} {items : List Declaration} (member : entry ∈ library.entries)
    (present : site ∈ Resolution.sites library entry.unit)
    (denotes : Lookup.Denotes library (Resolution.scopeOf library entry).1 entry.unit site source items)
    (resolved :
      (Lookup.atSite library (Resolution.scopeOf library entry).1 entry.unit site).problems = []) :
    (source.index = entry.index ∨ (library.resolve checks).Needs entry.index source.index) ∧
      ∀ declaration ∈ items, ∃ origin, library.Origin source origin ∧
        Declaration.Within origin.unit.declarations declaration ∧
        origin.index ∈ (ofLibrary library checks).graph.ancestors entry.index ∧
        ∀ order, (ofLibrary library checks).order = .ok order →
          origin.index = entry.index ∨ Precedes order origin.index entry.index := by
  have supplied := Resolution.supplied_of_denotes checks.deferredConstants present denotes resolved
  constructor
  · by_cases same : source.index = entry.index
    · exact .inl same
    · exact .inr (Library.needs_resolve member supplied.recorded same)
  · intro declaration isItem
    obtain ⟨origin, chain, within⟩ := Library.exists_origin (supplied.within declaration isItem)
    have path : ReflTransGen (ofLibrary library checks).graph.Edge origin.index entry.index :=
      (path_of_origin supplied.member chain).trans (path_of_found member supplied.recorded)
    refine ⟨origin, chain, within, ?_, fun order sorted => ?_⟩
    · have inGraph : entry.index ∈ (ofLibrary library checks).graph.nodes :=
        mem_nodes_graph.mpr (Library.index_lt member)
      exact (Graph.mem_ancestors_iff (simple_graph _) inGraph).mpr path
    · have unique := (perm_order sorted).nodup_iff.mpr List.nodup_range
      exact eq_or_precedes_of_path sorted unique path

/-- The constant in the package on top refers to an item that the instance below it makes available. -/
theorem declared_before_use_limit :
    ∃ origin, Layered.library.Origin ⟨1, Layered.copy⟩ origin ∧
      Declaration.Within origin.unit.declarations Layered.item ∧
      (origin.index = 0 ∨ Precedes [2, 1, 0, 3] origin.index 0) := by
  let site : Lookup.Site := ⟨[Layered.limit], ⟨.ofIdentifier (.basic "i"), ⟨3, 20⟩⟩⟩
  let entry : Entry := ⟨0, Layered.top⟩
  have imports : (Resolution.scopeOf Layered.library entry).1.all =
      [⟨⟨1, Layered.copy⟩, ⟨.basic "lib", [.basic "c"]⟩, [Layered.item]⟩] := by cbv
  have items : Lookup.named site.reference.name.first [Layered.item] = [Layered.item] := by cbv
  have denotes : Lookup.Denotes Layered.library (Resolution.scopeOf Layered.library entry).1 entry.unit
      site ⟨1, Layered.copy⟩ (Lookup.named site.reference.name.first [Layered.item]) :=
    .all ⟨by cbv, by cbv, by cbv⟩ (.inr (by cbv)) (imports ▸ List.mem_cons_self) (items ▸ List.cons_ne_nil _ _)
  have member : entry ∈ Layered.library.entries := Library.mem_entries_iff.mpr rfl
  have present : site ∈ Resolution.sites Layered.library entry.unit := List.mem_cons_self
  obtain ⟨-, declared⟩ :=
    declared_before_use Layered.library .standard member present denotes (by cbv)
  obtain ⟨origin, chain, within, -, before⟩ := declared Layered.item (items ▸ List.mem_cons_self)
  exact ⟨origin, chain, within, before _ Layered.order_library⟩

end VhdlOrder.Elaboration
