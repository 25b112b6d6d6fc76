import Mathlib.Logic.Relation
import VhdlOrder.Proofs.Design.Nesting
import VhdlOrder.Proofs.Library.Entries

/-! # Where the declarations of a package come from

What a package makes available is declared in the package at the end of its chain of instances. The chain
leads from each instance to the package that its template names, and the package at the end is no
instance.
-/

namespace VhdlOrder

/-- The unit declares its items itself: it is a package, but not an instance. -/
def Entry.IsPlainPackage (entry : Entry) : Prop :=
  entry.isPackage = true ∧ entry.unit.template? = none

namespace Library

variable {library : Library} {entry source origin : Entry}

/-- `derived` is an instance of a package, and `template` is the primary unit that it names as such. -/
def Instantiates (library : Library) (derived template : Entry) : Prop :=
  ∃ reference, derived.unit.template? = some reference ∧
    library.workUnit? reference.name = some template

/-- The package at the end of the chain of instances that begins at `source`. -/
def Origin (library : Library) (source origin : Entry) : Prop :=
  Relation.ReflTransGen library.Instantiates source origin ∧ origin.IsPlainPackage

theorem isPackage_of_template? {reference : Reference} (derived : entry.unit.template? = some reference) :
    entry.isPackage = true := by
  unfold DesignUnit.template? at derived
  split at derived
  · rename_i contents
    simp [Entry.isPackage, DesignUnit.kind, contents]
  · contradiction

theorem Instantiates.mem_entries (step : library.Instantiates source origin) :
    origin ∈ library.entries := by
  obtain ⟨reference, -, named⟩ := step
  obtain ⟨name, found⟩ := exists_primary?_of_workUnit? named
  exact (of_primary? found).1

/-- Everything on the way to the end of a chain is a package. -/
theorem Origin.isPackage (chain : library.Origin source origin) : source.isPackage = true := by
  rcases chain.1.cases_head with rfl | ⟨next, ⟨reference, derived, -⟩, -⟩
  · exact chain.2.1
  · exact isPackage_of_template? derived

private theorem exists_origin_within {unvisited : List Nat}
    (nonempty : library.packageItemsWithin unvisited entry ≠ []) :
    ∃ origin, library.Origin entry origin ∧
      origin.unit.declarations = library.packageItemsWithin unvisited entry := by
  induction unvisited, entry using packageItemsWithin.induct library with
  | case1 unvisited entry fresh generics declarations contents =>
    rw [packageItemsWithin, dif_pos fresh] at nonempty ⊢
    simp only [contents] at nonempty ⊢
    refine ⟨entry, ⟨.refl, ?_, ?_⟩, ?_⟩
    · simp [Entry.isPackage, DesignUnit.kind, contents]
    · simp [DesignUnit.template?, contents]
    · simp [DesignUnit.declarations, contents]
  | case2 unvisited entry fresh generics declarations template contents next named ih =>
    rw [packageItemsWithin, dif_pos fresh] at nonempty ⊢
    simp only [contents, named] at nonempty ⊢
    obtain ⟨origin, chain, items⟩ := ih nonempty
    have step : library.Instantiates entry next :=
      ⟨template, by simp [DesignUnit.template?, contents], named⟩
    exact ⟨origin, ⟨.head step chain.1, chain.2⟩, items⟩
  | case3 unvisited entry fresh generics declarations template contents unnamed =>
    rw [packageItemsWithin, dif_pos fresh] at nonempty
    simp [contents, unnamed] at nonempty
  | case4 unvisited entry fresh plain derived =>
    rw [packageItemsWithin, dif_pos fresh] at nonempty
    split at nonempty
    · rename_i contents
      exact absurd contents (plain _ _)
    · rename_i contents
      exact absurd contents (derived _ _ _)
    · contradiction
  | case5 unvisited entry visited =>
    rw [packageItemsWithin, dif_neg visited] at nonempty
    contradiction

/-- What a package makes available stands in the package at the end of its chain of instances. -/
theorem exists_origin {declaration : Declaration}
    (within : Declaration.Within (library.packageItems entry) declaration) :
    ∃ origin, library.Origin entry origin ∧ Declaration.Within origin.unit.declarations declaration := by
  obtain ⟨origin, chain, items⟩ := exists_origin_within within.ne_nil
  exact ⟨origin, chain, items ▸ within⟩

end Library

end VhdlOrder
