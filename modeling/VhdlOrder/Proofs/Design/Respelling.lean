import Mathlib.Data.List.Basic
import VhdlOrder.Design.Unit
import VhdlOrder.Proofs.Name.Respelling

/-! # Units spelled in another way

A unit is spelled in another way by spelling every identifier in it so. What is asked of a unit when names are
looked up is answered in the same way, and what is taken from it is spelled in the other way.
-/

namespace VhdlOrder

variable (f : Respelling)

namespace UseClause

/-- The use clause with its name spelled in another way. -/
def respell (clause : UseClause) : UseClause := ⟨clause.name.respell f, clause.all, clause.position⟩

@[simp] theorem name_respell (clause : UseClause) : (clause.respell f).name = clause.name.respell f := rfl

@[simp] theorem all_respell (clause : UseClause) : (clause.respell f).all = clause.all := rfl

@[simp] theorem position_respell (clause : UseClause) : (clause.respell f).position = clause.position := rfl

@[simp] theorem respell_keep (clause : UseClause) : clause.respell .keep = clause := by simp [respell]

@[simp] theorem reference_respell (clause : UseClause) :
    (clause.respell f).reference = clause.reference.respell f := rfl

end UseClause

/-- The name at its place, spelled in another way. -/
def Located.respell (name : Located Identifier) : Located Identifier := ⟨name.position, f name.value⟩

@[simp] theorem Located.respell_keep (name : Located Identifier) : Located.respell .keep name = name := rfl

namespace ContextClause

/-- The context clause with all names in it spelled in another way. -/
def respell (clause : ContextClause) : ContextClause :=
  ⟨clause.libraries.map (Located.respell f), clause.uses.map (UseClause.respell f),
    clause.contexts.map (Reference.respell f)⟩

theorem respell_append (first second : ContextClause) :
    (first.append second).respell f = (first.respell f).append (second.respell f) := by
  simp [append, respell]

theorem respell_addUses (clause : ContextClause) (uses : List UseClause) :
    (clause.addUses uses).respell f = (clause.respell f).addUses (uses.map (UseClause.respell f)) := by
  simp [addUses, respell]

@[simp] theorem respell_keep (clause : ContextClause) : clause.respell .keep = clause := by
  cases clause
  simp [respell, List.map_congr_left (fun item _ => Located.respell_keep item),
    List.map_congr_left (fun item _ => UseClause.respell_keep item),
    List.map_congr_left (fun item _ => Reference.respell_keep item)]

end ContextClause

namespace Declaration

mutual

/-- The declaration with all names in it spelled in another way. -/
def respell : Declaration → Declaration
  | ⟨name, kind, position, typeClass, references, mentions, locals⟩ =>
      ⟨f name, kind, position, typeClass, references.map (Reference.respell f), mentions.map f, respellAll locals⟩

/-- Declarations with all names in them spelled in another way. -/
def respellAll : List Declaration → List Declaration
  | [] => []
  | declaration :: rest => declaration.respell :: respellAll rest

end

@[simp] theorem respellAll_eq_map (declarations : List Declaration) :
    respellAll f declarations = declarations.map (respell f) := by
  induction declarations with
  | nil => rfl
  | cons declaration rest ih => rw [respellAll, ih, List.map_cons]

section

variable (declaration : Declaration)

@[simp] theorem name_respell : (declaration.respell f).name = f declaration.name := by
  cases declaration
  rfl

@[simp] theorem kind_respell : (declaration.respell f).kind = declaration.kind := by
  cases declaration
  rfl

@[simp] theorem position_respell : (declaration.respell f).position = declaration.position := by
  cases declaration
  rfl

@[simp] theorem references_respell :
    (declaration.respell f).references = declaration.references.map (Reference.respell f) := by
  cases declaration
  rfl

@[simp] theorem mentions_respell : (declaration.respell f).mentions = declaration.mentions.map f := by
  cases declaration
  rfl

@[simp] theorem locals_respell : (declaration.respell f).locals = declaration.locals.map (respell f) := by
  cases declaration
  exact respellAll_eq_map f _

theorem withReferences_respell (name : Located Identifier) (kind : DeclarationKind) (references : List Reference) :
    (withReferences name kind references).respell f =
      withReferences (name.respell f) kind (references.map (Reference.respell f)) := rfl

end

/-- Equal parts make equal declarations, and the declarations inside are parts. -/
theorem forall_of_locals {holds : Declaration → Prop}
    (step : ∀ declaration, (∀ inner ∈ declaration.locals, holds inner) → holds declaration)
    (declaration : Declaration) : holds declaration := by
  refine @Declaration.rec holds (fun declarations => ∀ inner ∈ declarations, holds inner) ?_ ?_ ?_ declaration
  · intro name kind position typeClass references mentions locals inside
    exact step _ inside
  · exact List.forall_mem_nil _
  · intro first rest here behind
    exact List.forall_mem_cons.mpr ⟨here, behind⟩

@[simp] theorem respell_keep (declaration : Declaration) : declaration.respell .keep = declaration := by
  induction declaration using forall_of_locals with
  | step declaration inside =>
    obtain ⟨name, kind, position, typeClass, references, mentions, locals⟩ := declaration
    have references_keep : references.map (Reference.respell .keep) = references := by
      simp [List.map_congr_left (fun item _ => Reference.respell_keep item)]
    have locals_keep : locals.map (respell .keep) = locals := by
      simp [List.map_congr_left inside]
    simp [respell, references_keep, locals_keep]

section

variable (declarations : List Declaration) (name : Identifier)

@[simp] theorem declares_map : declares (declarations.map (respell f)) name = declares declarations name := by
  simp [declares, Function.comp_def]

@[simp] theorem declares_apply : declares declarations (f name) = declares declarations name := by
  simp [declares]

@[simp] theorem allReferences_map :
    allReferences (declarations.map (respell f)) = (allReferences declarations).map (Reference.respell f) := by
  simp [allReferences, List.flatMap_map, List.map_flatMap]

theorem outsideFrom_map (kept references : List Reference) :
    outsideFrom (declarations.map (respell f)) (kept.map (Reference.respell f))
        (references.map (Reference.respell f)) =
      (outsideFrom declarations kept references).map (Reference.respell f) := by
  induction references generalizing kept with
  | nil => rfl
  | cons reference rest ih =>
    simp only [List.map_cons, outsideFrom, Reference.name_respell, SelectedName.first_respell, declares_map,
      declares_apply, List.any_map, Function.comp_def, Reference.same_respell]
    split
    · exact ih kept
    · rw [List.map_cons, ← ih, List.map_cons]

@[simp] theorem outside_map (references : List Reference) :
    outside (declarations.map (respell f)) (references.map (Reference.respell f)) =
      (outside declarations references).map (Reference.respell f) :=
  outsideFrom_map f declarations [] references

end

theorem allMentionsOf_eq_flatMap (declarations : List Declaration) :
    allMentionsOf declarations = declarations.flatMap allMentions := by
  induction declarations with
  | nil => rfl
  | cons declaration rest ih => rw [allMentionsOf, ih, List.flatMap_cons]

@[simp] theorem allMentions_respell (declaration : Declaration) :
    (declaration.respell f).allMentions = declaration.allMentions.map f := by
  induction declaration using forall_of_locals with
  | step declaration inside =>
    have unfolded (declaration : Declaration) :
        declaration.allMentions = declaration.mentions ++ declaration.locals.flatMap allMentions := by
      cases declaration
      rw [allMentions, allMentionsOf_eq_flatMap]
    rw [unfolded, unfolded, mentions_respell, locals_respell, List.map_append, List.map_flatMap, List.flatMap_map]
    congr 1
    exact List.flatMap_congr inside

end Declaration

/-- The contents of a unit with all names in them spelled in another way. -/
def UnitContents.respell : UnitContents → UnitContents
  | .package generics declarations template =>
      .package (generics.map (Declaration.respell f)) (declarations.map (Declaration.respell f))
        (template.map (Reference.respell f))
  | .packageBody declarations => .packageBody (declarations.map (Declaration.respell f))
  | .entity generics ports =>
      .entity (generics.map (Declaration.respell f)) (ports.map (Declaration.respell f))
  | .architecture owner => .architecture (f owner)
  | .configuration owner => .configuration (f owner)
  | .context clause => .context (clause.respell f)

namespace DesignUnit

/-- The unit with all names in it spelled in another way. -/
def respell (unit : DesignUnit) : DesignUnit :=
  ⟨f unit.name, unit.position, unit.context.respell f, unit.references.map (Reference.respell f),
    unit.contents.respell f⟩

variable (unit : DesignUnit)

@[simp] theorem name_respell : (unit.respell f).name = f unit.name := rfl

@[simp] theorem position_respell : (unit.respell f).position = unit.position := rfl

@[simp] theorem context_respell : (unit.respell f).context = unit.context.respell f := rfl

@[simp] theorem references_respell : (unit.respell f).references = unit.references.map (Reference.respell f) := rfl

@[simp] theorem contents_respell : (unit.respell f).contents = unit.contents.respell f := rfl

@[simp] theorem kind_respell : (unit.respell f).kind = unit.kind := by
  unfold kind
  rw [contents_respell]
  cases unit.contents <;> rfl

@[simp] theorem isPrimary_respell : (unit.respell f).isPrimary = unit.isPrimary := by
  simp [isPrimary]

@[simp] theorem owner?_respell : (unit.respell f).owner? = unit.owner?.map f := by
  unfold owner?
  rw [contents_respell]
  cases unit.contents <;> rfl

@[simp] theorem generics_respell : (unit.respell f).generics = unit.generics.map (Declaration.respell f) := by
  unfold generics
  rw [contents_respell]
  cases unit.contents <;> rfl

@[simp] theorem declarations_respell :
    (unit.respell f).declarations = unit.declarations.map (Declaration.respell f) := by
  unfold declarations
  rw [contents_respell]
  cases unit.contents <;> rfl

@[simp] theorem clause?_respell : (unit.respell f).clause? = unit.clause?.map (ContextClause.respell f) := by
  unfold clause?
  rw [contents_respell]
  cases unit.contents <;> rfl

@[simp] theorem deferredConstants_respell :
    (unit.respell f).deferredConstants = unit.deferredConstants.map (Declaration.respell f) := by
  unfold deferredConstants
  rw [contents_respell]
  cases unit.contents with
  | package generics declarations template => simp [UnitContents.respell, List.filter_map, Function.comp_def]
  | _ => rfl

@[simp] theorem respell_keep : unit.respell .keep = unit := by
  have references (items : List Reference) : items.map (Reference.respell .keep) = items := by
    simp [List.map_congr_left (fun item _ => Reference.respell_keep item)]
  have declarations (items : List Declaration) : items.map (Declaration.respell .keep) = items := by
    simp [List.map_congr_left (fun item _ => Declaration.respell_keep item)]
  obtain ⟨name, position, context, own, contents⟩ := unit
  cases contents with
  | package generics items template => cases template <;> simp [respell, UnitContents.respell, references, declarations]
  | _ => simp [respell, UnitContents.respell, references, declarations]

end DesignUnit

end VhdlOrder
