import VhdlOrder.Proofs.Design.Constants
import VhdlOrder.Proofs.Design.FreeNames
import VhdlOrder.Proofs.Visibility.CorrespondingFindings

/-! # Deferred constants of nested regions

Only the region of a package declaration may have constants without a value, so in the tree of a unit they are misplaced
in the bodies of nested packages and in the declarative parts of subprograms. The declarations that a tree is flattened
to keep the regions of subprograms inside subprograms, and what is looked for is looked for there. Nested packages are
not looked into, and of the bodies of nested packages nothing is kept.
-/

namespace VhdlOrder

open VhdlOrder.Parser

variable {front : Remainder}

namespace Constant

theorem deferred_append (first second : List Declaration) :
    deferred (first ++ second) = deferred first ++ deferred second := List.filter_append ..

theorem inSubprograms_append (first second : List Declaration) :
    inSubprograms (first ++ second) = inSubprograms first ++ inSubprograms second := by
  simp only [inSubprograms_eq_flatMap, List.flatMap_append]

theorem isConstant_of_isSubprogram {kind : DeclarationKind} (isSubprogram : isSubprogram kind = true) :
    kind.isConstant = false := by
  cases kind <;> first | rfl | cases isSubprogram

theorem inSubprogram_of_isSubprogram {declaration : Declaration} (isSubprogram : isSubprogram declaration.kind = true) :
    inSubprogram declaration = deferred declaration.locals ++ inSubprograms declaration.locals := by
  cases declaration
  rw [inSubprogram, if_pos isSubprogram]

theorem inSubprogram_of_not {declaration : Declaration} (notSubprogram : isSubprogram declaration.kind = false) :
    inSubprogram declaration = [] := by
  cases declaration
  rw [inSubprogram, if_neg (Bool.eq_false_iff.mp notSubprogram)]

theorem inSubprograms_eq_nil {items : List Declaration} (none : ∀ item ∈ items, isSubprogram item.kind = false) :
    inSubprograms items = [] := by
  rw [inSubprograms_eq_flatMap, List.flatMap_eq_nil_iff]
  exact fun item member => inSubprogram_of_not (none item member)

theorem deferred_eq_nil {items : List Declaration} (each : ∀ item ∈ items, item.kind = .interface) :
    deferred items = [] := by
  refine List.filter_eq_nil_iff.mpr fun item member => ?_
  rw [each item member]
  exact Bool.false_ne_true

theorem inSubprograms_of_interfaces {items : List Declaration} (each : ∀ item ∈ items, item.kind = .interface) :
    inSubprograms items = [] :=
  inSubprograms_eq_nil fun item member => each item member ▸ rfl

end Constant

/-! ## Parameters -/

namespace Interface

variable {tokens : List PlacedToken} {items : List Declaration}

/-- The parameters of a subprogram are elements of its interface. -/
theorem kind_of_header {references : List Reference} (answered : header tokens = .ok (items, references)) :
    ∀ item ∈ items, item.kind = .interface := by
  refine forall_of_elements (fun group _ items isElement item member => ?_) (header_eq_ok_iff.mp answered).1
  obtain ⟨name, references, rfl⟩ := exists_withReferences_of_element isElement item member
  rfl

end Interface

/-! ## Items that are no subprograms -/

theorem Declaration.IsLeaf.notSubprogram {declaration : Declaration} (leaf : declaration.IsLeaf) :
    Constant.isSubprogram declaration.kind = false := by
  have encloses := leaf.kind
  cases same : declaration.kind <;> first | rfl | (rw [same] at encloses; cases encloses)

theorem DeclarationKind.notSubprogram_of_isPlain {kind : DeclarationKind} (plain : kind.isPlain = true) :
    Constant.isSubprogram kind = false := by
  cases kind <;> first | rfl | cases plain

/-- Only the words for subprograms begin the declaration of one. -/
theorem DeclarativePart.notSubprogram_item {part : Parser DeclarativePart} {position : Position} {word : Keyword}
    (noFunction : word ≠ .function) (noProcedure : word ≠ .procedure) (notPure : word ≠ .pure)
    (notImpure : word ≠ .impure) (noPackage : word ≠ .package) :
    Reads front (item part position word) fun found =>
      ∀ item ∈ found.declarations, Constant.isSubprogram item.kind = false := by
  have plain {items : List Declaration} (each : ∀ item ∈ items, item.kind.isPlain = true) :
      ∀ item ∈ items, Constant.isSubprogram item.kind = false :=
    fun item member => DeclarationKind.notSubprogram_of_isPlain (each item member)
  have leaves {items : List Declaration} (each : ∀ item ∈ items, item.IsLeaf) :
      ∀ item ∈ items, Constant.isSubprogram item.kind = false :=
    fun item member => (each item member).notSubprogram
  have leaf {item : Declaration} (isLeaf : item.IsLeaf) :
      ∀ other ∈ [item], Constant.isSubprogram other.kind = false :=
    leaves (List.forall_mem_singleton.mpr isLeaf)
  unfold item
  split
  · exact TypeDeclaration.plain_parse.bind fun _ each => .pure (plain each)
  · exact SimpleDeclaration.reads_parseSubtype.bind fun _ isLeaf => .pure (leaf isLeaf)
  iterate 4 exact (SimpleDeclaration.reads_parseObjects _ _).bind fun _ each => .pure (leaves each)
  · exact (SimpleDeclaration.reads_parseShared _).bind fun _ each => .pure (leaves each)
  · exact SimpleDeclaration.reads_parseAlias.bind fun _ isLeaf => .pure (leaf isLeaf)
  · exact SimpleDeclaration.reads_parseAttribute.bind fun _ each => .pure (leaves each)
  · exact SimpleDeclaration.plain_parseComponent.bind fun _ isPlain =>
      .pure (plain (List.forall_mem_singleton.mpr isPlain))
  · exact absurd rfl noFunction
  · exact absurd rfl noProcedure
  · exact absurd rfl notPure
  · exact absurd rfl notImpure
  · exact ContextClause.reads_parseUses.bind fun _ _ => .pure (List.forall_mem_nil _)
  · exact absurd rfl noPackage
  · exact reads_statement.bind fun _ _ => .pure (List.forall_mem_nil _)

/-! ## Trees -/

namespace RegionTree

open Constant

/-- The constants without a value in the bodies of nested packages and in the subprograms of the tree, at any depth. -/
def misplaced : RegionTree → List Declaration
  | .empty => []
  | .plain _ rest => rest.misplaced
  | .subprogram _ _ _ _ inside _ rest | .body _ inside rest =>
      deferred inside.part.declarations ++ inside.misplaced ++ rest.misplaced
  | .package _ _ inside rest => inside.misplaced ++ rest.misplaced

/-- Those of them that are in subprograms around which there are only subprograms. -/
def reached : RegionTree → List Declaration
  | .empty => []
  | .plain _ rest | .package _ _ _ rest | .body _ _ rest => rest.reached
  | .subprogram _ _ _ _ inside _ rest => deferred inside.part.declarations ++ inside.reached ++ rest.reached

/-- Those of them that are in a nested package or in the body of one. -/
def hidden : RegionTree → List Declaration
  | .empty => []
  | .plain _ rest => rest.hidden
  | .subprogram _ _ _ _ inside _ rest => inside.hidden ++ rest.hidden
  | .package _ _ inside rest => inside.misplaced ++ rest.hidden
  | .body _ inside rest => deferred inside.part.declarations ++ inside.misplaced ++ rest.hidden

/-- Every misplaced constant is either reached or hidden. -/
theorem reached_append_hidden_perm (tree : RegionTree) : (tree.reached ++ tree.hidden).Perm tree.misplaced := by
  induction tree with
  | empty => exact .nil
  | plain _ rest ih => exact ih
  | subprogram _ _ _ _ inside _ rest inner ih =>
    have apart : ((inside.reached ++ rest.reached) ++ (inside.hidden ++ rest.hidden)).Perm
        ((inside.reached ++ inside.hidden) ++ (rest.reached ++ rest.hidden)) := by
      rw [List.append_assoc, List.append_assoc]
      exact .append_left _ (List.perm_append_comm_assoc ..)
    rw [reached, hidden, misplaced, List.append_assoc (deferred _), List.append_assoc (deferred _),
      List.append_assoc (deferred _)]
    exact .append_left _ (apart.trans (inner.append ih))
  | package _ _ inside rest inner ih => exact (List.perm_append_comm_assoc ..).trans (ih.append_left _)
  | body _ inside rest inner ih => exact (List.perm_append_comm_assoc ..).trans (ih.append_left _)

/-- What holds of a tree that is read: the constants in it are declared by statements behind the word `constant`, the
parameters of a subprogram are no constants, and no plain item has a region. -/
def Regular (front : Remainder) : RegionTree → Prop
  | .empty => True
  | .plain part rest =>
      inSubprograms part.declarations = [] ∧ (∀ item ∈ part.declarations, item.ConstantRead front) ∧ rest.Regular front
  | .subprogram _ kind parameters _ inside _ rest =>
      isSubprogram kind = true ∧ (∀ item ∈ parameters, item.kind = .interface) ∧ inside.Regular front ∧
        rest.Regular front
  | .package _ _ inside rest | .body _ inside rest => inside.Regular front ∧ rest.Regular front

/-- In the declarations that a tree is flattened to, exactly the constants that are reached are found. -/
theorem inSubprograms_part {tree : RegionTree} (regular : tree.Regular front) :
    inSubprograms tree.part.declarations = tree.reached := by
  induction tree with
  | empty => rfl
  | plain part rest ih =>
    obtain ⟨none, -, others⟩ := regular
    rw [RegionTree.part, DeclarativePart.append, inSubprograms_append, none, ih others, reached, List.nil_append]
  | subprogram name kind parameters references inside statements rest inner ih =>
    obtain ⟨isSubprogram, each, regular, others⟩ := regular
    have here : inSubprograms [DeclarativePart.subprogramBody name kind parameters references inside.part statements] =
        deferred inside.part.declarations ++ inside.reached := by
      rw [inSubprograms, inSubprogram_of_isSubprogram isSubprogram, inSubprograms, List.append_nil]
      change deferred (parameters ++ inside.part.declarations) ++ inSubprograms (parameters ++ _) = _
      rw [deferred_append, inSubprograms_append, deferred_eq_nil each, inSubprograms_of_interfaces each, inner regular]
      rfl
    rw [RegionTree.part, DeclarativePart.append, inSubprograms_append, ih others, reached]
    exact congrArg (· ++ rest.reached) here
  | package name generics inside rest inner ih =>
    have here : inSubprograms [packageDeclaration name generics inside.part] = [] :=
      inSubprograms_eq_nil (List.forall_mem_singleton.mpr rfl)
    rw [RegionTree.part, DeclarativePart.append, inSubprograms_append, ih regular.2, reached]
    exact congrArg (· ++ rest.reached) here
  | body name inside rest inner ih => exact ih regular.2

/-- The constants of a region are declared by statements. -/
theorem Regular.constantRead {tree : RegionTree} (regular : tree.Regular front) :
    ∀ item ∈ tree.part.declarations, item.ConstantRead front := by
  have one {declaration : Declaration} {rest : List Declaration} (other : declaration.kind.isConstant = false)
      (others : ∀ item ∈ rest, item.ConstantRead front) :
      ∀ item ∈ [declaration] ++ rest, item.ConstantRead front :=
    List.forall_mem_cons.mpr ⟨fun isConstant => absurd (other.symm.trans isConstant) Bool.false_ne_true, others⟩
  induction tree with
  | empty => exact List.forall_mem_nil _
  | plain part rest ih => exact List.forall_mem_append.mpr ⟨regular.2.1, ih regular.2.2⟩
  | subprogram name kind parameters references inside statements rest inner ih =>
    obtain ⟨isSubprogram, -, -, others⟩ := regular
    exact one (isConstant_of_isSubprogram isSubprogram) (ih others)
  | package _ _ _ _ _ ih => exact one rfl (ih regular.2)
  | body _ _ _ _ ih => exact ih regular.2

/-- Every misplaced constant is declared by a statement without a value. -/
theorem Regular.misplaced {tree : RegionTree} (regular : tree.Regular front) :
    ∀ constant ∈ deferred tree.part.declarations ++ tree.misplaced, ∃ statement rest,
      front.holds (statement ++ rest) ∧ constant.IsConstantOf statement ∧
        SimpleDeclaration.hasValue statement = false := by
  have direct {tree : RegionTree} (regular : tree.Regular front) :
      ∀ constant ∈ deferred tree.part.declarations, ∃ statement rest,
        front.holds (statement ++ rest) ∧ constant.IsConstantOf statement ∧
          SimpleDeclaration.hasValue statement = false := by
    intro constant member
    obtain ⟨declared, isDeferred⟩ := List.mem_filter.mp member
    have kind : constant.kind = .deferredConstant := eq_of_beq isDeferred
    obtain ⟨statement, rest, stands, isConstant⟩ :=
      regular.constantRead constant declared (kind ▸ rfl)
    refine ⟨statement, rest, stands, isConstant, Bool.eq_false_iff.mpr fun given => ?_⟩
    have other := isConstant.kind
    rw [given, kind] at other
    cases other
  refine List.forall_mem_append.mpr ⟨direct regular, ?_⟩
  induction tree with
  | empty => exact List.forall_mem_nil _
  | plain part rest ih => exact ih regular.2.2
  | subprogram _ _ _ _ inside _ rest inner ih =>
    obtain ⟨-, -, within, others⟩ := regular
    exact List.forall_mem_append.mpr ⟨List.forall_mem_append.mpr ⟨direct within, inner within⟩, ih others⟩
  | package _ _ inside rest inner ih =>
    exact List.forall_mem_append.mpr ⟨inner regular.1, ih regular.2⟩
  | body _ inside rest inner ih =>
    exact List.forall_mem_append.mpr ⟨List.forall_mem_append.mpr ⟨direct regular.1, inner regular.1⟩, ih regular.2⟩

/-! ### Reading -/

theorem Regular.append {first second : RegionTree} (left : first.Regular front) (right : second.Regular front) :
    (first.append second).Regular front := by
  induction first with
  | empty => exact right
  | plain _ _ ih => exact ⟨left.1, left.2.1, ih left.2.2⟩
  | subprogram _ _ _ _ _ _ _ _ ih => exact ⟨left.1, left.2.1, left.2.2.1, ih left.2.2.2⟩
  | package _ _ _ _ _ ih | body _ _ _ _ ih => exact ⟨left.1, ih left.2⟩

/-- An item that declares something without a region. -/
theorem regular_ofDeclarations {declaration : Declaration} (none : inSubprogram declaration = [])
    (other : declaration.kind.isConstant = false) :
    (plain (.ofDeclarations [declaration]) .empty).Regular front := by
  refine ⟨?_, List.forall_mem_singleton.mpr fun isConstant => ?_, trivial⟩
  · rw [DeclarativePart.ofDeclarations, inSubprograms_eq_flatMap, List.flatMap_singleton, none]
  · exact absurd (other.symm.trans isConstant) Bool.false_ne_true

variable {region : Parser RegionTree} (regular : Reads front region (·.Regular front))

include regular

theorem regular_parseSubprogram (word : Keyword) {kind : DeclarationKind} (isSubprogram : isSubprogram kind = true) :
    Reads front (parseSubprogram region word kind) (·.Regular front) := by
  have none {declaration : Declaration} (each : ∀ item ∈ declaration.locals, item.kind = .interface) :
      inSubprogram declaration = [] := by
    cases same : Constant.isSubprogram declaration.kind with
    | false => exact inSubprogram_of_not same
    | true => rw [inSubprogram_of_isSubprogram same, deferred_eq_nil each, inSubprograms_of_interfaces each]; rfl
  have other := isConstant_of_isSubprogram isSubprogram
  refine (reads_next _).bind fun _ _ => (reads_ofExcept _).bind fun _ _ => (reads_takeUntil _).bind fun _ _ =>
    (reads_ofExcept _).bind fun ⟨parameters, references⟩ answered => ?_
  have each := Interface.kind_of_header answered
  refine .ite (.pure (regular_ofDeclarations (none each) other)) (.accept ?_ ?_)
  · exact reads_statement.bind fun _ _ => .pure (regular_ofDeclarations (none (List.forall_mem_nil _)) other)
  · exact regular.bind fun _ inside => (reads_keyword _).bind fun _ _ => (Region.reads_skip _).bind fun _ _ =>
      (DeclarativePart.reads_subprogramEnding _ _).bind fun _ _ => .pure ⟨isSubprogram, each, inside, trivial⟩

theorem regular_parseQualified : Reads front (parseQualified region) (·.Regular front) := by
  refine (reads_next _).bind fun _ _ => ?_
  split
  · exact regular_parseSubprogram regular _ rfl
  · exact regular_parseSubprogram regular _ rfl
  · exact reads_unexpected _ _

theorem regular_parsePackage : Reads front (parsePackage region) (·.Regular front) := by
  have each : Interface.EachElement front fun _ => True := fun _ _ _ _ _ _ _ => trivial
  refine reads_identifier.bind fun _ _ => (reads_keyword _).bind fun _ _ => .accept ?_ ?_
  · exact reads_statement.bind fun _ _ => .pure (regular_ofDeclarations (inSubprogram_of_not rfl) rfl)
  · exact (DeclarativePart.reads_nestedGenerics each).bind fun _ _ => regular.bind fun _ inside =>
      (reads_keyword _).bind fun _ _ => (reads_ending _ _).bind fun _ _ => .pure ⟨inside, trivial⟩

theorem regular_parseBody : Reads front (parseBody region) (·.Regular front) :=
  reads_identifier.bind fun _ _ => (reads_keyword _).bind fun _ _ => regular.bind fun _ inside =>
    (reads_keyword _).bind fun _ _ => (reads_ending _ _).bind fun _ _ => .pure ⟨inside, trivial⟩

theorem regular_parseItem (position : Position) (word : Keyword) :
    Reads front (parseItem region position word) (·.Regular front) := by
  unfold parseItem
  split
  · exact regular_parseSubprogram regular _ rfl
  · exact regular_parseSubprogram regular _ rfl
  iterate 2 exact regular_parseQualified regular
  · exact .accept (regular_parseBody regular) (regular_parsePackage regular)
  · rename_i noFunction noProcedure notPure notImpure noPackage
    intro tokens tree rest part answered
    obtain ⟨found, left, isItem, same⟩ := bind_eq_ok_iff.mp answered
    cases same
    have reads : Reads front DeclarativePart.parse fun _ => True :=
      DeclarativePart.constantRead_parse.imp fun _ _ => trivial
    obtain ⟨constants, behind⟩ := DeclarativePart.constantRead_item reads position word _ _ _ part isItem
    obtain ⟨others, -⟩ := DeclarativePart.notSubprogram_item noFunction noProcedure notPure notImpure noPackage _ _ _
      part isItem
    exact ⟨⟨inSubprograms_eq_nil others, constants, trivial⟩, behind⟩

omit regular in
theorem regular_parse : Reads front parse (·.Regular front) := by
  refine .fix fun further regular => DeclarativePart.reads_head.bind fun token _ => .ite (.pure trivial) ?_
  have first : Reads front (parseAnyItem further token) (·.Regular front) := by
    unfold parseAnyItem
    split
    · exact (reads_next _).bind fun _ _ => regular_parseItem regular _ _
    · exact reads_statement.bind fun _ _ => .pure trivial
  exact first.bind fun _ first => regular.bind fun _ more => .pure (first.append more)

end RegionTree

/-! ## Units -/

namespace DesignUnit

theorem regular_parseBodyRegion : Reads front parseBodyRegion (·.Regular front) :=
  reads_identifier.bind fun _ _ => (reads_keyword _).bind fun _ _ => RegionTree.regular_parse

theorem regular_parsePackageRegion : Reads front parsePackageRegion (·.Regular front) := by
  have each : Interface.EachElement front fun _ => True := fun _ _ _ _ _ _ _ => trivial
  exact reads_identifier.bind fun _ _ => (reads_keyword _).bind fun _ _ => (reads_packageGenerics each).bind fun _ _ =>
    RegionTree.regular_parse

/-- A unit that is no instance has a tree that was read from the tokens. -/
def HasRegular (front : Remainder) (unit : DesignUnit) : Prop :=
  unit.hasRegion = true → ∃ tree, unit.Holds tree ∧ tree.Regular front

variable {position : Position} {context : ContextClause}

theorem hasRegular_of_not {unit : DesignUnit} (none : unit.hasRegion = false) : unit.HasRegular front :=
  fun plain => absurd (none.symm.trans plain) Bool.false_ne_true

theorem hasRegular_parsePackageBody : Reads front (parsePackageBody position context) (·.HasRegular front) := by
  intro tokens unit rest part read
  refine ⟨fun _ => ?_, (readsConstants_parsePackageBody tokens unit rest part read).2⟩
  obtain ⟨tree, left, region, references, contents⟩ := exists_region_of_parsePackageBody read
  exact ⟨tree, .packageBody read region references contents,
    (regular_parseBodyRegion tokens tree left part region).1⟩

theorem hasRegular_parsePackage : Reads front (parsePackage position context) (·.HasRegular front) := by
  intro tokens unit rest part read
  refine ⟨fun plain => ?_, (readsConstants_parsePackage tokens unit rest part read).2⟩
  obtain ⟨tree, left, generics, region, references, contents⟩ := exists_region_of_parsePackage read plain
  exact ⟨tree, .package read region references contents, (regular_parsePackageRegion tokens tree left part region).1⟩

end DesignUnit

namespace DesignFile

/-- A package that is no instance, or a package body, holds a tree whose constants stand in the tokens of the file. -/
theorem hasRegular_of_mem_units {tokens : List PlacedToken} :
    ∀ unit ∈ (units tokens).1, unit.HasRegular (.endOf (withoutComments tokens)) := by
  have each : DesignUnit.EachReads (.endOf (withoutComments tokens)) (·.HasRegular _) := {
    package := fun _ _ => DesignUnit.hasRegular_parsePackage
    packageBody := fun _ _ => DesignUnit.hasRegular_parsePackageBody
    entity := fun _ _ => DesignUnit.noRegion_parseEntity.imp fun _ => DesignUnit.hasRegular_of_not
    architecture := fun _ _ => DesignUnit.reads_parseOfEntity fun _ _ _ => DesignUnit.hasRegular_of_not rfl
    configuration := fun _ _ => DesignUnit.reads_parseOfEntity fun _ _ _ => DesignUnit.hasRegular_of_not rfl
    context := fun _ _ _ => DesignUnit.reads_parseContext fun _ => DesignUnit.hasRegular_of_not rfl }
  exact forall_mem_units each List.suffix_rfl

end DesignFile

end VhdlOrder
