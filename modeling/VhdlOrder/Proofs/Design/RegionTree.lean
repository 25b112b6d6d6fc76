import VhdlOrder.Design.File
import VhdlOrder.Proofs.Design.Yields

/-! # Regions inside declarative parts

A declarative part is a list of items, and what the regions inside it refer to is handed over to it: a subprogram
and a nested package keep it in their declaration, a nested package body leaves it to the part around. `RegionTree`
keeps the regions apart, and reading a part is reading its tree and flattening it. What is handed over are the
references that are free in the tree, that is those whose leading name no region around them declares. The package
that a nested body completes is no region around it.
-/

namespace VhdlOrder

open VhdlOrder.Parser

namespace DeclarativePart

theorem append_assoc (first second third : DeclarativePart) :
    (first.append second).append third = first.append (second.append third) := by
  simp only [append, List.append_assoc]

theorem empty_append (part : DeclarativePart) : empty.append part = part := rfl

theorem append_empty (part : DeclarativePart) : part.append empty = part := by
  simp only [append, empty, List.append_nil]

end DeclarativePart

/-- The items of a declarative part with the regions inside them. Subprogram declarations and instances have no
region and are plain items. -/
inductive RegionTree where
  | empty
  | plain (part : DeclarativePart) (rest : RegionTree)
  | subprogram (name : Located Identifier) (kind : DeclarationKind) (parameters : List Declaration)
      (references : List Reference) (inside : RegionTree) (statements : List PlacedToken) (rest : RegionTree)
  | package (name : Located Identifier) (generics : List Declaration) (inside rest : RegionTree)
  | body (name : Located Identifier) (inside rest : RegionTree)

namespace RegionTree

/-- The items of two trees one after the other. -/
def append : RegionTree → RegionTree → RegionTree
  | .empty, other => other
  | .plain part rest, other => .plain part (rest.append other)
  | .subprogram name kind parameters references inside statements rest, other =>
      .subprogram name kind parameters references inside statements (rest.append other)
  | .package name generics inside rest, other => .package name generics inside (rest.append other)
  | .body name inside rest, other => .body name inside (rest.append other)

/-! ## Flattening -/

/-- The declaration of a nested package with the items `part`. -/
def packageDeclaration (name : Located Identifier) (generics : List Declaration) (part : DeclarativePart) :
    Declaration :=
  let locals := generics ++ part.declarations
  let references := part.references ++ Declaration.allReferences locals ++ part.uses.map UseClause.reference
  { Declaration.withReferences name .package (Declaration.outside locals references) with locals := locals }

/-- What a nested package body with the items `part` leaves to the part around it. -/
def bodyPart (part : DeclarativePart) : DeclarativePart :=
  ⟨[], part.uses,
    Declaration.outside part.declarations (Declaration.allReferences part.declarations ++ part.references)⟩

/-- The declarative part that the tree is flattened to. -/
def part : RegionTree → DeclarativePart
  | .empty => .empty
  | .plain part rest => part.append rest.part
  | .subprogram name kind parameters references inside statements rest =>
      (DeclarativePart.ofDeclarations
        [DeclarativePart.subprogramBody name kind parameters references inside.part statements]).append rest.part
  | .package name generics inside rest =>
      (DeclarativePart.ofDeclarations [packageDeclaration name generics inside.part]).append rest.part
  | .body _ inside rest => (bodyPart inside.part).append rest.part

theorem part_append (first second : RegionTree) : (first.append second).part = first.part.append second.part := by
  induction first with
  | empty => exact (DeclarativePart.empty_append _).symm
  | plain _ _ ih | subprogram _ _ _ _ _ _ _ _ ih | package _ _ _ _ _ ih | body _ _ _ _ ih =>
    rw [append, part, ih, ← DeclarativePart.append_assoc, part]

/-! ## Reading -/

variable (region : Parser RegionTree)

/-- A subprogram after its first word, with the region of a body. -/
def parseSubprogram (word : Keyword) (kind : DeclarationKind) : Parser RegionTree := do
  let name ← Parser.ofExcept (Interface.designator (← Parser.next .subprogramDesignator))
  let (tokens, stop) ← Parser.takeUntil fun token =>
    token.isDelimiter .semicolon || token.isKeyword .is
  let (parameters, references) ← Parser.ofExcept (Interface.header tokens)
  if stop.value.isDelimiter .semicolon then
    return .plain (.ofDeclarations [DeclarativePart.subprogramDeclaration name kind parameters references]) .empty
  else if ← Parser.acceptKeyword .new then
    return .plain (.ofDeclarations [.withReferences name kind (References.collect (← Parser.statement))]) .empty
  else
    let inside ← region
    Parser.keyword .begin
    let statements ← Region.skip none
    DeclarativePart.subprogramEnding word name.value
    return .subprogram name kind parameters references inside statements .empty

/-- A subprogram whose first word is `pure` or `impure`, after that word. -/
def parseQualified : Parser RegionTree := do
  let token ← Parser.next .subprogramKind
  match token.value with
  | .keyword .function => parseSubprogram region .function .function
  | .keyword .procedure => parseSubprogram region .procedure .procedure
  | _ => Parser.unexpected token .subprogramKind

/-- A nested package after its first word, with its region if it is no instance. -/
def parsePackage : Parser RegionTree := do
  let name ← Parser.identifier
  Parser.keyword .is
  if ← Parser.acceptKeyword .new then
    return .plain (.ofDeclarations [.withReferences name .package (References.collect (← Parser.statement))]) .empty
  else
    let generics ← DeclarativePart.nestedGenerics
    let inside ← region
    Parser.keyword .end
    Parser.ending [.package] name.value
    return .package name generics inside .empty

/-- A nested package body after the words `package body`, with its region. -/
def parseBody : Parser RegionTree := do
  let name ← Parser.identifier
  Parser.keyword .is
  let inside ← region
  Parser.keyword .end
  Parser.ending [.package, .body] name.value
  return .body name inside .empty

/-- The item that begins with the reserved word `word` at `position`, after that word. -/
def parseItem (position : Position) (word : Keyword) : Parser RegionTree := do
  match word with
  | .function => parseSubprogram region .function .function
  | .procedure => parseSubprogram region .procedure .procedure
  | .pure | .impure => parseQualified region
  | .package => if ← Parser.acceptKeyword .body then parseBody region else parsePackage region
  -- no other item has a region, so it does not matter how one would be read
  | _ => return .plain (← DeclarativePart.item DeclarativePart.parse position word) .empty

/-- Takes one item, which begins with `token`. -/
def parseAnyItem (token : PlacedToken) : Parser RegionTree := do
  match token.value with
  | .keyword word =>
      let _ ← Parser.next (.keyword .end)
      parseItem region token.position word
  | _ =>
      let _ ← Parser.statement
      return .empty

/-- The items up to the word `begin` or `end`, with the regions inside them. -/
def parse : Parser RegionTree := Parser.fix fun region => do
  let token ← DeclarativePart.head
  if token.value = .keyword .end || token.value = .keyword .begin then return .empty
  else
    let first ← parseAnyItem region token
    return first.append (← region)

variable {region}

theorem part_parseSubprogram (word : Keyword) (kind : DeclarationKind) :
    part <$> parseSubprogram region word kind =
      (fun item => .ofDeclarations [item]) <$> DeclarativePart.subprogram (part <$> region) word kind := by
  unfold parseSubprogram DeclarativePart.subprogram
  simp only [map_bind, bind_map_left, apply_ite (Functor.map _), map_pure]
  rfl

theorem part_parseQualified :
    part <$> parseQualified region =
      (fun item => .ofDeclarations [item]) <$> DeclarativePart.qualifiedSubprogram (part <$> region) := by
  unfold parseQualified DeclarativePart.qualifiedSubprogram
  simp only [map_bind]
  congr 1
  funext token
  cases token.value with
  | keyword word =>
    cases word with
    | function => exact part_parseSubprogram _ _
    | procedure => exact part_parseSubprogram _ _
    | _ => rfl
  | _ => rfl

theorem part_parsePackage :
    part <$> parsePackage region =
      (fun item => .ofDeclarations [item]) <$> DeclarativePart.nestedPackage (part <$> region) := by
  unfold parsePackage DeclarativePart.nestedPackage
  simp only [map_bind, bind_map_left, apply_ite (Functor.map _), map_pure]
  rfl

theorem part_parseBody : part <$> parseBody region = DeclarativePart.nestedBody (part <$> region) := by
  unfold parseBody DeclarativePart.nestedBody
  simp only [map_bind, bind_map_left, map_pure, part, DeclarativePart.append_empty]
  rfl

/-- The items that have no region are read in the same way however a region is read. -/
theorem item_eq_item {part other : Parser DeclarativePart} {position : Position} {word : Keyword}
    (noFunction : word ≠ .function) (noProcedure : word ≠ .procedure) (notPure : word ≠ .pure)
    (notImpure : word ≠ .impure) (noPackage : word ≠ .package) :
    DeclarativePart.item part position word = DeclarativePart.item other position word := by
  unfold DeclarativePart.item
  split <;> first | rfl | contradiction

theorem part_parseItem (position : Position) (word : Keyword) :
    part <$> parseItem region position word = DeclarativePart.item (part <$> region) position word := by
  unfold parseItem
  split
  · exact part_parseSubprogram _ _
  · exact part_parseSubprogram _ _
  · exact part_parseQualified
  · exact part_parseQualified
  · simp only [map_bind, apply_ite (Functor.map _), part_parseBody, part_parsePackage]
    rfl
  · rename_i noFunction noProcedure notPure notImpure noPackage
    simp only [map_bind, map_pure, part, DeclarativePart.append_empty, bind_pure]
    exact item_eq_item noFunction noProcedure notPure notImpure noPackage

theorem part_parseAnyItem (token : PlacedToken) :
    part <$> parseAnyItem region token = DeclarativePart.anyItem (part <$> region) token := by
  unfold parseAnyItem DeclarativePart.anyItem
  cases token.value with
  | keyword word => simp only [map_bind, part_parseItem]
  | _ =>
    simp only [map_bind, map_pure]
    rfl

/-- Mapping a function over what is repeated, where each round with further rounds maps to another one. -/
theorem map_fix {α β : Type} {f : α → β} {round : Parser α → Parser α} {round' : Parser β → Parser β}
    (step : ∀ further, f <$> round further = round' (f <$> further)) : f <$> Parser.fix round = Parser.fix round' := by
  have within (bound : List PlacedToken) : f <$> fixWithin round bound = fixWithin round' bound := by
    induction bound with
    | nil => exact step _
    | cons _ bound ih =>
      rw [fixWithin, fixWithin, step, ih]
  funext tokens
  exact congrFun (within tokens) tokens

/-- Reading a declarative part is reading its tree and flattening it. -/
theorem part_parse : part <$> parse = DeclarativePart.parse := by
  refine map_fix fun region => ?_
  simp only [map_bind, apply_ite (Functor.map _), map_pure, part_append, ← part_parseAnyItem, bind_map_left]
  rfl

end RegionTree

/-! ## References that are handed over -/

theorem SelectedName.sameParts_iff {first second : List Identifier} :
    sameParts first second = true ↔ first.map Identifier.key = second.map Identifier.key := by
  induction first generalizing second with
  | nil => cases second <;> simp [sameParts]
  | cons name rest ih =>
    cases second with
    | nil => simp [sameParts]
    | cons other more => simp [sameParts, ih, Identifier.same_iff]

namespace Reference

variable {reference other third : Reference}

/-- References are the same if their places and the keys of their names are. -/
theorem same_iff : reference.same other = true ↔
    reference.name.parts.map Identifier.key = other.name.parts.map Identifier.key ∧
      reference.position = other.position := by
  simp [same, SelectedName.same, SelectedName.sameParts_iff]

theorem same_refl (reference : Reference) : reference.same reference = true := same_iff.mpr ⟨rfl, rfl⟩

theorem same_symm (same : reference.same other = true) : other.same reference = true :=
  same_iff.mpr ⟨(same_iff.mp same).1.symm, (same_iff.mp same).2.symm⟩

theorem same_trans (first : reference.same other = true) (second : other.same third = true) :
    reference.same third = true :=
  same_iff.mpr ⟨(same_iff.mp first).1.trans (same_iff.mp second).1, (same_iff.mp first).2.trans (same_iff.mp second).2⟩

theorem key_first_of_same (same : reference.same other = true) : reference.name.first.key = other.name.first.key := by
  have keys := (same_iff.mp same).1
  simp only [SelectedName.parts, List.map_cons, List.cons.injEq] at keys
  exact keys.1

/-- The reference is one of `references`, up to the case of basic identifiers. -/
def IsAmong (references : List Reference) (reference : Reference) : Prop :=
  ∃ other ∈ references, other.same reference = true

theorem isAmong_of_mem {references : List Reference} (member : reference ∈ references) : reference.IsAmong references :=
  ⟨reference, member, same_refl reference⟩

@[simp] theorem isAmong_nil : ¬ reference.IsAmong [] := by simp [IsAmong]

@[simp] theorem isAmong_append {first second : List Reference} :
    reference.IsAmong (first ++ second) ↔ reference.IsAmong first ∨ reference.IsAmong second := by
  simp only [IsAmong, List.mem_append, or_and_right, exists_or]

@[simp] theorem isAmong_cons {references : List Reference} :
    reference.IsAmong (other :: references) ↔ other.same reference = true ∨ reference.IsAmong references := by
  simp [IsAmong]

end Reference

namespace Declaration

theorem declares_congr {first second : Identifier} (same : first.key = second.key) (declarations : List Declaration) :
    declares declarations first = declares declarations second := by
  simp only [declares, Identifier.same, same]

/-- Taking out local names leaves the references whose leading name is not local. -/
theorem isAmong_outside_iff {locals : List Declaration} {references : List Reference} {reference : Reference} :
    reference.IsAmong (outside locals references) ↔
      declares locals reference.name.first = false ∧ reference.IsAmong references := by
  have congr {first : Reference} (same : first.same reference = true) :
      declares locals first.name.first = declares locals reference.name.first :=
    declares_congr (Reference.key_first_of_same same) locals
  -- what is kept already counts, since equal references are kept once
  have from' (kept : List Reference) :
      reference.IsAmong (outsideFrom locals kept references) ∨ reference.IsAmong kept ↔
        declares locals reference.name.first = false ∧ reference.IsAmong references ∨ reference.IsAmong kept := by
    induction references generalizing kept with
    | nil => simp [outsideFrom]
    | cons first rest ih =>
      unfold outsideFrom
      split
      · rename_i dropped
        have covered (outer : declares locals reference.name.first = false) (same : first.same reference = true) :
            reference.IsAmong kept := by
          rw [congr same, outer, Bool.false_or, List.any_eq_true] at dropped
          obtain ⟨other, member, equal⟩ := dropped
          exact ⟨other, member, Reference.same_trans (Reference.same_symm equal) same⟩
        rw [ih, Reference.isAmong_cons, and_or_left, or_assoc]
        exact ⟨.inr, fun either => either.elim (fun both => .inr (covered both.1 both.2)) id⟩
      · rename_i kept'
        rw [Bool.or_eq_true, not_or, Bool.not_eq_true] at kept'
        have later := ih (first :: kept)
        rw [Reference.isAmong_cons] at later ⊢
        rw [Reference.isAmong_cons, or_assoc, or_left_comm, later, and_or_left, or_left_comm, or_assoc]
        refine or_congr_left ⟨fun same => ⟨?_, same⟩, And.right⟩
        rw [← congr same, kept'.1]
  simpa [outside] using from' []

end Declaration

namespace DeclarativePart

/-- The references that a part hands over to what is around it: those of its declarations and its own. -/
def handed (part : DeclarativePart) : List Reference :=
  Declaration.allReferences part.declarations ++ part.references

end DeclarativePart

namespace RegionTree

open Declaration

/-- The reference is written in the tree at a place where no region around it, inside the tree, declares its leading
name. -/
def Free : RegionTree → Reference → Prop
  | .empty, _ => False
  | .plain part rest, reference => reference.IsAmong part.handed ∨ rest.Free reference
  | .subprogram _ _ parameters references inside statements rest, reference =>
      (declares (parameters ++ inside.part.declarations) reference.name.first = false ∧
        (reference.IsAmong references ∨ inside.Free reference ∨
          reference.IsAmong (inside.part.uses.map UseClause.reference) ∨
          reference.IsAmong (References.expanded statements))) ∨ rest.Free reference
  | .package _ generics inside rest, reference =>
      (declares (generics ++ inside.part.declarations) reference.name.first = false ∧
        (reference.IsAmong (allReferences generics) ∨ inside.Free reference ∨
          reference.IsAmong (inside.part.uses.map UseClause.reference))) ∨ rest.Free reference
  | .body _ inside rest, reference =>
      (declares inside.part.declarations reference.name.first = false ∧ inside.Free reference) ∨ rest.Free reference

theorem isAmong_handed_append {first second : DeclarativePart} {reference : Reference} :
    reference.IsAmong (first.append second).handed ↔
      reference.IsAmong first.handed ∨ reference.IsAmong second.handed := by
  simp only [DeclarativePart.handed, DeclarativePart.append, allReferences, List.flatMap_append,
    Reference.isAmong_append]
  exact or_or_or_comm ..

theorem isAmong_handed_ofDeclarations {declaration : Declaration} {reference : Reference} :
    reference.IsAmong (DeclarativePart.ofDeclarations [declaration]).handed ↔
      reference.IsAmong declaration.references := by
  simp [DeclarativePart.handed, DeclarativePart.ofDeclarations, allReferences]

/-- What a part hands over is what is free in its tree. -/
theorem isAmong_handed_iff (tree : RegionTree) (reference : Reference) :
    reference.IsAmong tree.part.handed ↔ tree.Free reference := by
  induction tree with
  | empty => simp [part, DeclarativePart.empty, DeclarativePart.handed, allReferences, Free]
  | plain _ rest ih => rw [part, isAmong_handed_append, ih, Free]
  | subprogram name kind parameters references inside statements rest inner ih =>
    rw [part, isAmong_handed_append, ih, isAmong_handed_ofDeclarations, Free, ← inner]
    simp only [DeclarativePart.subprogramBody, withReferences, isAmong_outside_iff, DeclarativePart.handed,
      Reference.isAmong_append, or_assoc]
  | package name generics inside rest inner ih =>
    rw [part, isAmong_handed_append, ih, isAmong_handed_ofDeclarations, Free, ← inner]
    simp only [packageDeclaration, withReferences, isAmong_outside_iff, DeclarativePart.handed, allReferences,
      List.flatMap_append, Reference.isAmong_append]
    simp only [or_left_comm, or_comm]
  | body name inside rest inner ih =>
    rw [part, isAmong_handed_append, ih, Free, ← inner]
    simp only [bodyPart, DeclarativePart.handed, allReferences, List.flatMap_nil, List.nil_append, isAmong_outside_iff]

/-! ## Nested bodies -/

/-- The nested packages of the region, with what they declare. -/
def packages : RegionTree → List (Identifier × List Declaration)
  | .empty => []
  | .package name generics inside rest => (name.value, generics ++ inside.part.declarations) :: rest.packages
  | .plain _ rest | .subprogram _ _ _ _ _ _ rest | .body _ _ rest => rest.packages

/-- The nested package bodies of the region. -/
def bodies : RegionTree → List (Identifier × RegionTree)
  | .empty => []
  | .body name inside rest => (name.value, inside) :: rest.bodies
  | .plain _ rest | .subprogram _ _ _ _ _ _ rest | .package _ _ _ rest => rest.bodies

/-- The regions directly inside the region. -/
def inner : RegionTree → List RegionTree
  | .empty => []
  | .plain _ rest => rest.inner
  | .subprogram _ _ _ _ inside _ rest | .package _ _ inside rest | .body _ inside rest => inside :: rest.inner

/-- The reference is written in the body of a nested package that stands in the same region and declares its leading
name, at any depth. -/
inductive Completed : RegionTree → Reference → Prop
  | here {tree inside : RegionTree} {name completed : Identifier} {declarations : List Declaration}
      {reference : Reference}
      (isPackage : (name, declarations) ∈ tree.packages) (isBody : (completed, inside) ∈ tree.bodies)
      (completes : completed.same name = true) (declared : declares declarations reference.name.first = true)
      (written : inside.Free reference) : Completed tree reference
  | inside {tree inside : RegionTree} {reference : Reference} (member : inside ∈ tree.inner)
      (completed : Completed inside reference) : Completed tree reference

end RegionTree

end VhdlOrder
