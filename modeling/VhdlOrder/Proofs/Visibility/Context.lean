import VhdlOrder.Proofs.Visibility.Scope
import VhdlOrder.Visibility.Resolution

/-! # Contexts keep scopes backed

Applying one item of a context keeps the scope backed, so a whole context does, with all that context
declarations provide; and so does the context of a primary unit followed by that of the unit itself. The
scope in which the names of a unit are looked up is therefore backed by the dependencies of the unit.
-/

namespace VhdlOrder

open Scope

variable {library : Library} {recorded : List Dependency} {scope : Scope}

namespace ContextItem

theorem exists_primary?_of_target? {context : Reference} {entry : Entry}
    (found : target? library context = some entry) : ∃ name, library.primary? name = some entry := by
  unfold target? at found
  split at found
  · split at found
    · exact ⟨_, found⟩
    · contradiction
  · contradiction

/-- What there can be to say about a reference to a context declaration: nothing if it is in another library, a
dependency on it, or an error. -/
inductive ReferenceOutcome (library : Library) (scope : Scope) (context : Reference) : Findings → Prop
  | foreign : ReferenceOutcome library scope context .empty
  | undeclaredLibrary : ReferenceOutcome library scope context
      (.error (.undeclaredLibrary context.name.first) context.position)
  | context {target : Entry} : target? library context = some target → target.unit.kind = .context →
      ReferenceOutcome library scope context (.dependency target .context context.name.render context.position)
  | notContext : ReferenceOutcome library scope context (.error (.notContext context.name) context.position)
  | missing : ReferenceOutcome library scope context (.error (.undeclaredContext context.name) context.position)

theorem outcome_referenceFindings (context : Reference) :
    ReferenceOutcome library scope context (referenceFindings library scope context) := by
  unfold referenceFindings
  dsimp only
  split
  · split
    · exact .foreign
    · exact .undeclaredLibrary
  · split
    · rename_i target found
      split
      · rename_i isContext
        exact .context found (beq_iff_eq.mp isContext)
      · exact .notContext
    · exact .missing

theorem rooted_referenceFindings (context : Reference) :
    (referenceFindings library scope context).Rooted library := by
  have outcome := @outcome_referenceFindings library scope context
  generalize referenceFindings library scope context = result at outcome ⊢
  cases outcome with
  | context found =>
    obtain ⟨name, primary⟩ := exists_primary?_of_target? found
    exact .dependency primary _ _ _
  | foreign | undeclaredLibrary | notContext | missing => exact .of_eq_nil rfl

/-- One item keeps the scope backed. -/
theorem grounded_apply (backed : scope.Backed library recorded) (item : ContextItem) :
    Grounded library recorded (item.apply library scope) := by
  cases item with
  | library name => exact (backed.addLibrary name).grounded_empty
  | reference context => exact backed.grounded (rooted_referenceFindings context)
  | use clause key => exact backed.use clause key

/-- Items one after the other keep the scope backed. -/
theorem grounded_applyAll (backed : scope.Backed library recorded) (items : List ContextItem) :
    Grounded library recorded (applyAll library scope items) := by
  induction items generalizing scope recorded with
  | nil => exact backed.grounded_empty
  | cons item rest ih =>
    have first := grounded_apply backed item
    exact .after first.findings (ih first.scope)

end ContextItem

theorem Scope.Backed.enter (backed : scope.Backed library recorded) (clause : ContextClause)
    (owner : Option Nat) : Grounded library recorded (Scope.enter library scope clause owner) :=
  ContextItem.grounded_applyAll backed _

namespace Resolution

theorem exists_primary?_of_ownerOf? {unit : DesignUnit} {owner : Entry}
    (found : ownerOf? library unit = some owner) : ∃ name, library.primary? name = some owner := by
  unfold ownerOf? at found
  split at found
  · exact ⟨_, (Library.of_package? found).1⟩
  · exact ⟨_, (Option.filter_eq_some_iff.mp found).1⟩
  · exact ⟨_, (Option.filter_eq_some_iff.mp found).1⟩
  · contradiction

theorem grounded_enterOwner (library : Library) (unit : DesignUnit) :
    Grounded library [] (enterOwner library unit) := by
  unfold enterOwner
  split
  · exact (backed_start library []).grounded_empty
  · rename_i owner found
    obtain ⟨name, primary⟩ := exists_primary?_of_ownerOf? found
    have depend := Findings.Rooted.dependency primary .primary
      ((unit.owner?.map Identifier.render).getD "") unit.position
    dsimp only
    split
    · exact (backed_start library []).grounded depend
    · exact .after depend ((backed_start library _).enter owner.unit.context (some owner.index))

/-- The scope of a unit is backed by the dependencies that its context records. -/
theorem grounded_scopeOf (library : Library) (entry : Entry) :
    Grounded library [] (scopeOf library entry) := by
  have first := grounded_enterOwner library entry.unit
  unfold scopeOf
  exact .after first.findings (first.scope.enter entry.unit.context _)

end Resolution

end VhdlOrder
