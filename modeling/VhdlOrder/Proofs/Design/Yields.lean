import VhdlOrder.Proofs.Design.Reads

/-! # Names as they are written

A name is written in some tokens if one of them is that name, at the same place. Parsers only pick names up:
what holds of every value that a parser can answer from tokens of a source is stated by `Parser.Yields`.
The names of references and of interface declarations are therefore written in the tokens that they are
read from.
-/

namespace VhdlOrder

/-- The name is one of the tokens, which stands at the place of the name. -/
def Written (source : List PlacedToken) (name : Located Identifier) : Prop :=
  ∃ token ∈ source, Interface.designator token = .ok name

/-- The first identifier of the reference is written at the place of the reference. -/
def Reference.IsWritten (source : List PlacedToken) (reference : Reference) : Prop :=
  Written source ⟨reference.position, reference.name.first⟩

/-- The declared name is written at the place of the declaration, and so are its references and what is
declared inside it. -/
inductive Declaration.IsWritten (source : List PlacedToken) : Declaration → Prop
  | intro {declaration : Declaration} (name : Written source ⟨declaration.position, declaration.name⟩)
      (references : ∀ reference ∈ declaration.references, reference.IsWritten source)
      (locals : ∀ inner ∈ declaration.locals, IsWritten source inner) : IsWritten source declaration

variable {source tokens : List PlacedToken}

theorem Written.of_identifier {token : PlacedToken} {name : Identifier} (member : token ∈ source)
    (same : token.value = .identifier name) : Written source ⟨token.position, name⟩ :=
  ⟨token, member, by simp [Interface.designator, same]⟩

/-- What is written at a place is written at the place of a token. -/
theorem Written.exists_position {name : Located Identifier} (written : Written source name) :
    ∃ token ∈ source, token.position = name.position := by
  obtain ⟨token, member, same⟩ := written
  refine ⟨token, member, ?_⟩
  unfold Interface.designator at same
  split at same
  · cases same
    rfl
  · cases same
    rfl
  · cases same
    rfl
  · cases same

namespace Declaration.IsWritten

variable {declaration : Declaration}

theorem name (written : declaration.IsWritten source) :
    Written source ⟨declaration.position, declaration.name⟩ := by
  cases written with
  | intro name references locals => exact name

theorem references (written : declaration.IsWritten source) :
    ∀ reference ∈ declaration.references, reference.IsWritten source := by
  cases written with
  | intro name references locals => exact references

theorem locals (written : declaration.IsWritten source) :
    ∀ inner ∈ declaration.locals, inner.IsWritten source := by
  cases written with
  | intro name references locals => exact locals

theorem withReferences {name : Located Identifier} (written : Written source name) (kind : DeclarationKind)
    {references : List Reference} (each : ∀ reference ∈ references, reference.IsWritten source) :
    (Declaration.withReferences name kind references).IsWritten source :=
  .intro written each (List.forall_mem_nil _)

theorem simple {name : Located Identifier} (written : Written source name) (kind : DeclarationKind) :
    (Declaration.simple name kind).IsWritten source :=
  withReferences written kind (List.forall_mem_nil _)

end Declaration.IsWritten

/-- The references of written declarations are written. -/
theorem Declaration.isWritten_of_mem_allReferences {declarations : List Declaration}
    (each : ∀ declaration ∈ declarations, declaration.IsWritten source) :
    ∀ reference ∈ allReferences declarations, reference.IsWritten source := by
  intro reference member
  obtain ⟨declaration, present, inside⟩ := List.mem_flatMap.mp member
  exact (each declaration present).references reference inside

/-- References that are left when local names are taken out were there before. -/
theorem Declaration.outsideFrom_subset (locals : List Declaration) (kept references : List Reference) :
    outsideFrom locals kept references ⊆ references := by
  induction references generalizing kept with
  | nil => exact fun _ member => member
  | cons reference rest ih =>
    unfold outsideFrom
    split
    · exact List.subset_cons_of_subset _ (ih kept)
    · exact List.cons_subset_cons _ (ih _)

theorem Declaration.outside_subset (locals : List Declaration) (references : List Reference) :
    outside locals references ⊆ references :=
  outsideFrom_subset locals [] references

namespace Parser

/-- Whatever the parser answers from tokens of the source satisfies `good`, and the tokens that are left are
tokens of the source. -/
abbrev Yields {α : Type} (source : List PlacedToken) (parser : Parser α) (good : α → Prop) : Prop :=
  Reads (.within source) parser good

theorem yields_next (wanted : Expectation) : Yields source (next wanted) (· ∈ source) :=
  (reads_next wanted).imp fun _ ⟨_, part⟩ => (List.cons_subset.mp part).1

theorem yields_identifier : Yields source identifier (Written source) := by
  refine reads_identifier.imp ?_
  rintro ⟨position, name⟩ ⟨token, rest, part, same, rfl⟩
  exact .of_identifier (List.cons_subset.mp part).1 same

theorem yields_takeUntil (stops : Token → Bool) :
    Yields source (takeUntil stops) fun found => found.1 ⊆ source ∧ found.2 ∈ source := by
  refine (reads_takeUntil stops).imp fun found ⟨rest, part⟩ => ?_
  obtain ⟨taken, behind⟩ := List.append_subset.mp part
  exact ⟨taken, (List.cons_subset.mp behind).1⟩

theorem yields_statement : Yields source statement (· ⊆ source) :=
  reads_statement.imp fun _ ⟨_, part⟩ => (List.append_subset.mp part).1

theorem yields_selectedName : Yields source selectedName fun found => found.1.IsWritten source := by
  refine yields_identifier.bind fun first written => (reads_selectedNameAfter _).bind fun found same => .pure ?_
  change Written source ⟨first.position, found.1.first⟩
  rw [same]
  exact written

end Parser

/-! ## References -/

namespace References

theorem chain_sublist (tokens : List PlacedToken) : (chain tokens).2.Sublist tokens := by
  fun_induction chain tokens with
  | case1 dot next rest name _ _ names tail bound ih =>
    rw [bound] at ih
    exact (ih.cons _).cons _
  | case2 => exact List.Sublist.refl _
  | case3 => exact List.Sublist.refl _

theorem isWritten_of_mem_collectFrom {selected : Bool} (part : tokens ⊆ source) :
    ∀ reference ∈ collectFrom selected tokens, reference.IsWritten source := by
  fun_induction collectFrom selected tokens with
  | case1 => exact List.forall_mem_nil _
  | case2 selected token rest name same tail formal further dropped ih =>
    exact ih (List.Subset.trans (chain_sublist rest).subset (List.cons_subset.mp part).2)
  | case3 selected token rest name same tail formal further kept ih =>
    obtain ⟨here, behind⟩ := List.cons_subset.mp part
    exact List.forall_mem_cons.mpr ⟨.of_identifier here same, ih (List.Subset.trans (chain_sublist rest).subset behind)⟩
  | case4 selected token rest ordinary ih => exact ih (List.cons_subset.mp part).2

/-- The references in tokens of the source are written in it. -/
theorem isWritten_of_mem_collect (part : tokens ⊆ source) : ∀ reference ∈ collect tokens, reference.IsWritten source :=
  isWritten_of_mem_collectFrom part

theorem isWritten_of_mem_expanded (part : tokens ⊆ source) :
    ∀ reference ∈ expanded tokens, reference.IsWritten source :=
  fun reference member => isWritten_of_mem_collect part reference (List.mem_filter.mp member).1

end References

namespace Region

theorem yields_skip (closing : Option Keyword) : Parser.Yields source (skip closing) (· ⊆ source) :=
  (reads_skip closing).imp fun _ ⟨_, part⟩ => (List.append_subset.mp part).1

end Region

/-! ## Interface lists -/

namespace Interface

theorem behind?_subset {token : Token} {rest : List PlacedToken} (found : behind? token tokens = some rest) :
    rest ⊆ tokens := by
  unfold behind? at found
  split at found
  · cases found
  · rename_i first others same
    cases found
    have inside : first :: rest ⊆ tokens := same ▸ (List.dropWhile_suffix _).subset
    exact (List.cons_subset.mp inside).2

theorem isWritten_of_mem_identifiers (part : tokens ⊆ source) : ∀ name ∈ identifiers tokens, Written source name := by
  intro name member
  obtain ⟨token, present, same⟩ := List.mem_filterMap.mp member
  obtain ⟨identifier, isIdentifier, rfl⟩ := Option.map_eq_some_iff.mp same
  refine .of_identifier (part present) ?_
  unfold Token.identifier? at isIdentifier
  split at isIdentifier
  · rename_i value
    cases isIdentifier
    exact value
  · cases isIdentifier

theorem isWritten_of_named {first : PlacedToken} {token : Option PlacedToken} {references : List Reference}
    {declarations : List Declaration} (answered : named first token references = .ok declarations)
    (member : ∀ other, token = some other → other ∈ source)
    (each : ∀ reference ∈ references, reference.IsWritten source) :
    ∀ declaration ∈ declarations, declaration.IsWritten source := by
  obtain ⟨other, name, rfl, isName, rfl⟩ := named_eq_ok_iff.mp answered
  have written : Written source name := ⟨other, member other rfl, isName⟩
  exact List.forall_mem_singleton.mpr (.withReferences written .interface each)

theorem isWritten_of_element {declarations : List Declaration} (part : tokens ⊆ source)
    (answered : element tokens = .ok declarations) : ∀ declaration ∈ declarations, declaration.IsWritten source := by
  have nothing : ∀ reference ∈ ([] : List Reference), reference.IsWritten source :=
    List.forall_mem_nil _
  unfold element at answered
  split at answered
  · cases answered
    exact List.forall_mem_nil _
  · rename_i first rest
    obtain ⟨-, behind⟩ := List.cons_subset.mp part
    have inside (index : Nat) (other : PlacedToken) (same : rest[index]? = some other) : other ∈ source :=
      behind (List.mem_of_getElem? same)
    dsimp only at answered
    split at answered
    iterate 3 exact isWritten_of_named answered (inside 0) nothing
    iterate 2 exact isWritten_of_named answered (inside 1) nothing
    · refine isWritten_of_named answered (inside 0) fun reference member => ?_
      have among := List.mem_of_mem_take member
      cases found : behind? (.keyword .new) rest with
      | none => simp [found] at among
      | some target =>
        simp only [found, Option.map_some, Option.getD_some] at among
        exact References.isWritten_of_mem_collect (List.Subset.trans (behind?_subset found) behind) reference among
    · split at answered
      · cases answered
      · rename_i indication found
        cases answered
        intro declaration member
        obtain ⟨name, present, rfl⟩ := List.mem_map.mp member
        have names : before (.delimiter .colon) (first :: rest) ⊆ source :=
          List.Subset.trans (List.takeWhile_prefix _).subset part
        exact .withReferences (isWritten_of_mem_identifiers names name present) .interface
          (References.isWritten_of_mem_collect (List.Subset.trans (behind?_subset found) part))

/-- The elements of interface lists declare what is written. -/
theorem eachElement_isWritten : EachElement (.within source) (·.IsWritten source) :=
  fun _ _ _ part answered => isWritten_of_element (List.append_subset.mp part).1 answered

theorem split_subset (depth : Nat) (current tokens : List PlacedToken) (held : current ⊆ source)
    (part : tokens ⊆ source) :
    (∀ group ∈ (split depth current tokens).1, group ⊆ source) ∧ (split depth current tokens).2 ⊆ source := by
  have turned (current : List PlacedToken) (held : current ⊆ source) :
      ∀ group ∈ [current.reverse], group ⊆ source :=
    List.forall_mem_singleton.mpr (List.reverse_subset.mpr held)
  induction tokens generalizing depth current with
  | nil => exact ⟨turned current held, List.nil_subset _⟩
  | cons token others ih =>
    obtain ⟨here, behind⟩ := List.cons_subset.mp part
    unfold split
    split
    · exact ⟨turned current held, behind⟩
    · split
      · obtain ⟨groups, left⟩ := ih 0 [] (List.nil_subset _) behind
        exact ⟨List.forall_mem_cons.mpr ⟨List.reverse_subset.mpr held, groups⟩, left⟩
      · exact ih _ _ (List.cons_subset.mpr ⟨here, held⟩) behind

theorem headerParts_subset (part : tokens ⊆ source) :
    (∀ group ∈ (headerParts tokens).1, group ⊆ source) ∧ (headerParts tokens).2 ⊆ source := by
  fun_induction headerParts tokens with
  | case1 => exact ⟨List.forall_mem_nil _, List.nil_subset _⟩
  | case2 token rest _ more result same ih =>
    obtain ⟨groups, left⟩ := split_subset 0 [] rest (List.nil_subset _) (List.cons_subset.mp part).2
    obtain ⟨further, resultPart⟩ := ih left
    rw [same] at further resultPart
    exact ⟨List.forall_mem_append.mpr ⟨groups, further⟩, resultPart⟩
  | case3 token rest _ _ => exact ⟨List.forall_mem_nil _, (List.cons_subset.mp part).2⟩
  | case4 token rest _ _ ih => exact ih (List.cons_subset.mp part).2

/-- The parameters and references of a subprogram header are written in it. -/
theorem isWritten_of_header {parameters : List Declaration} {references : List Reference}
    (part : tokens ⊆ source) (answered : header tokens = .ok (parameters, references)) :
    (∀ parameter ∈ parameters, parameter.IsWritten source) ∧
      ∀ reference ∈ references, reference.IsWritten source := by
  obtain ⟨groups, result⟩ := headerParts_subset part
  obtain ⟨isElements, rfl⟩ := header_eq_ok_iff.mp answered
  have written := forall_of_elements (fun group among _ => isWritten_of_element (groups group among)) isElements
  exact ⟨written, List.forall_mem_append.mpr
    ⟨References.isWritten_of_mem_collect result, Declaration.isWritten_of_mem_allReferences written⟩⟩

end Interface

end VhdlOrder
