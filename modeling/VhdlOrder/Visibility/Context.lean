import VhdlOrder.Visibility.Scope

/-! # Contexts

The context of a unit is a list of items: libraries, references to context declarations, and use
clauses. A reference to a context declaration of the working library stands for the items that the
declaration provides, and they are put in behind the reference. Each declaration is put in only once,
so declarations that refer to each other do no harm.
-/

namespace VhdlOrder

/-- One item of a context. A use clause has a key if it is watched. -/
inductive ContextItem where
  | library (name : Identifier)
  | reference (context : Reference)
  | use (clause : UseClause) (key : Option ClauseKey)

namespace ContextItem

/-- The use clauses of a unit, numbered from `number` on; `owner` is the unit if they are watched. -/
def ofUses (owner : Option Nat) (number : Nat) : List UseClause → List ContextItem
  | [] => []
  | clause :: rest =>
      .use clause (owner.map fun owner => ⟨owner, number⟩) :: ofUses owner (number + 1) rest

/-- The items of a context clause: libraries, then references, then use clauses. -/
def ofClause (clause : ContextClause) (owner : Option Nat) : List ContextItem :=
  clause.libraries.map (fun name => .library name.value) ++ clause.contexts.map .reference
    ++ ofUses owner 0 clause.uses

/-- The unit that a reference to a context declaration of the working library names, if there is one;
it need not be a context declaration. -/
def target? (library : Library) (context : Reference) : Option Entry :=
  match context.name.suffix with
  | [name] => if library.isWorking context.name.first then library.primary? name else none
  | _ => none

/-- The context declaration that an item refers to, and the items that it provides. -/
def provided? (library : Library) : ContextItem → Option (Nat × List ContextItem)
  | .reference context =>
      match target? library context with
      | some entry => entry.unit.clause?.map fun clause => (entry.index, ofClause clause none)
      | none => none
  | _ => none

/-- Puts the items that context declarations provide behind the references to them; only declarations
in `unvisited` are put in. -/
def expandWithin (library : Library) (unvisited : List Nat) : List ContextItem → List ContextItem
  | [] => []
  | item :: rest =>
      match provided? library item with
      | some (index, items) =>
          if _ : index ∈ unvisited then
            item :: expandWithin library (unvisited.erase index) (items ++ rest)
          else item :: expandWithin library unvisited rest
      | none => item :: expandWithin library unvisited rest
termination_by items => (unvisited.length, items.length)
decreasing_by
  · have shorter := List.length_erase_of_mem ‹index ∈ unvisited›
    have nonempty := List.length_pos_of_mem ‹index ∈ unvisited›
    exact Prod.Lex.left _ _ (by omega)
  · exact Prod.Lex.right _ (by simp)
  · exact Prod.Lex.right _ (by simp)

/-- Puts the items that context declarations provide behind the first reference to each of them. -/
def expand (library : Library) (items : List ContextItem) : List ContextItem :=
  expandWithin library (List.range library.size) items

/-- What there is to say about a reference to a context declaration. -/
def referenceFindings (library : Library) (scope : Scope) (context : Reference) : Findings :=
  let name := context.name
  if !library.isWorking name.first then
    if scope.hasLibrary name.first then .empty
    else .error (.undeclaredLibrary name.first) context.position
  else
    match target? library context with
    | some entry =>
        if entry.unit.kind == .context then
          .dependency entry .context name.render context.position
        else .error (.notContext name) context.position
    | none => .error (.undeclaredContext name) context.position

/-- Makes visible what an item names. -/
def apply (library : Library) (scope : Scope) : ContextItem → Scope × Findings
  | .library name => (scope.addLibrary name, .empty)
  | .reference context => (scope, referenceFindings library scope context)
  | .use clause key => scope.use library clause key

/-- Makes visible what the items name, one after the other. -/
def applyAll (library : Library) (scope : Scope) : List ContextItem → Scope × Findings
  | [] => (scope, .empty)
  | item :: rest =>
      let (scope, first) := item.apply library scope
      let (scope, more) := applyAll library scope rest
      (scope, first ++ more)

end ContextItem

/-- Makes visible what a context clause names; its use clauses are watched if `owner`, the unit that
they stand in, is given. -/
def Scope.enter (library : Library) (scope : Scope) (clause : ContextClause) (owner : Option Nat) :
    Scope × Findings :=
  ContextItem.applyAll library scope
    (ContextItem.expand library (ContextItem.ofClause clause owner))

end VhdlOrder
