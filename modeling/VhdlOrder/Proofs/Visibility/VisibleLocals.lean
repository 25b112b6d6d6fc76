import VhdlOrder.Proofs.Visibility.Lookup
import VhdlOrder.Stepwise.Resolution

/-! # What is visible at a declaration

One list of what is visible is kept while the declarations of a part are gone through. The declaration at a place and
the literals or units behind it are put on the list, the declaration is looked at, and as many items are taken off again
as there were literals or units. So whatever is done at a declaration is done among the declarations that were visible
at first, all up to this one, and the literals or units right behind it; what stands later is not visible.
-/

namespace VhdlOrder

open Stepwise

namespace Findings

theorem empty_append (found : Findings) : empty ++ found = found := by
  cases found
  rfl

theorem append_empty (found : Findings) : found ++ empty = found := by
  change append found empty = found
  simp [append, empty]

theorem append_assoc (first second third : Findings) : first ++ second ++ third = first ++ (second ++ third) := by
  change append (append first second) third = append first (append second third)
  simp [append]

end Findings

namespace Lookup

/-! ## Visible declarations -/

/-- What is visible at the declaration at a place: `locals`, all declarations up to it, and the literals or units right
behind it. -/
def visibleAt (locals declarations : List Declaration) (place : Nat) : List Declaration :=
  locals ++ declarations.take (place + 1)
    ++ (declarations.drop (place + 1)).takeWhile fun next => next.kind.belongsToType

/-- Nothing but literals or units stands behind the one place up to the other one. -/
def Reaches (declarations : List Declaration) (place other : Nat) : Prop :=
  ∀ between, place < between → between ≤ other →
    ∃ next, declarations[between]? = some next ∧ next.kind.belongsToType = true

/-- The declarations in order, each with what is visible at it. -/
def turns (locals declarations : List Declaration) : List (List Declaration × Declaration) :=
  declarations.mapIdx fun place declaration => (visibleAt locals declarations place, declaration)

variable {locals items rest : List Declaration} {declaration : Declaration} {place : Nat}

theorem visibleAt_zero : visibleAt locals (declaration :: rest) 0 =
    locals ++ declaration :: rest.takeWhile fun next => next.kind.belongsToType := by
  simp [visibleAt]

/-- Behind the first declaration, it is one of those that were visible before. -/
theorem visibleAt_succ :
    visibleAt locals (declaration :: rest) (place + 1) = visibleAt (locals ++ [declaration]) rest place := by
  simp [visibleAt]

theorem turns_cons : turns locals (declaration :: rest) =
    (locals ++ declaration :: rest.takeWhile fun next => next.kind.belongsToType, declaration)
      :: turns (locals ++ [declaration]) rest := by
  simp only [turns, List.mapIdx_cons, visibleAt_zero, visibleAt_succ]

/-- The items in front of the first one that does not fit are those with nothing else before them. -/
theorem mem_takeWhile_iff {α : Type} {fits : α → Bool} {items : List α} {item : α} :
    item ∈ items.takeWhile fits ↔
    ∃ place : Nat, items[place]? = some item ∧
      ∀ before : Nat, before ≤ place → ∃ other, items[before]? = some other ∧ fits other = true := by
  induction items with
  | nil => simp
  | cons first rest ih =>
    by_cases fitting : fits first = true
    · rw [List.takeWhile_cons_of_pos fitting, List.mem_cons, ih]
      constructor
      · rintro (rfl | ⟨place, present, before⟩)
        · exact ⟨0, rfl, fun earlier bound => ⟨item, by rw [Nat.le_zero.mp bound]; rfl, fitting⟩⟩
        · refine ⟨place + 1, present, fun earlier bound => ?_⟩
          cases earlier with
          | zero => exact ⟨first, rfl, fitting⟩
          | succ earlier => exact before earlier (Nat.le_of_succ_le_succ bound)
      · rintro ⟨place, present, before⟩
        cases place with
        | zero => exact .inl (Option.some.inj present).symm
        | succ place =>
          exact .inr ⟨place, present, fun earlier bound => before (earlier + 1) (Nat.succ_le_succ bound)⟩
    · rw [List.takeWhile_cons_of_neg fitting]
      refine iff_of_false List.not_mem_nil ?_
      rintro ⟨place, -, before⟩
      obtain ⟨other, isFirst, fits⟩ := before 0 (Nat.zero_le _)
      exact fitting (Option.some.inj isFirst ▸ fits)

/-- A declaration is visible at a place if it was from the beginning, or if it stands no later than the literals or
units behind the place. -/
theorem mem_visibleAt_iff : declaration ∈ visibleAt locals items place ↔
    declaration ∈ locals ∨
      ∃ other : Nat, items[other]? = some declaration ∧ Reaches items place other := by
  rw [visibleAt, List.append_assoc, List.mem_append, List.mem_append]
  refine or_congr_right ⟨?_, ?_⟩
  · rintro (upTo | behind)
    · obtain ⟨other, present⟩ := List.mem_iff_getElem?.mp upTo
      rw [List.getElem?_take] at present
      split at present
      · exact ⟨other, present, fun between later bound => by omega⟩
      · contradiction
    · obtain ⟨offset, present, before⟩ := mem_takeWhile_iff.mp behind
      rw [List.getElem?_drop] at present
      refine ⟨_, present, fun between later bound => ?_⟩
      obtain ⟨next, isNext, belongs⟩ := before (between - (place + 1)) (by omega)
      rw [List.getElem?_drop, show place + 1 + (between - (place + 1)) = between by omega] at isNext
      exact ⟨next, isNext, belongs⟩
  · rintro ⟨other, present, reaches⟩
    by_cases upTo : other < place + 1
    · exact .inl (List.mem_of_getElem? ((List.getElem?_take_of_lt upTo).trans present))
    · refine .inr (mem_takeWhile_iff.mpr ⟨other - (place + 1), ?_, fun before bound => ?_⟩)
      · rw [List.getElem?_drop, show place + 1 + (other - (place + 1)) = other by omega]
        exact present
      · rw [List.getElem?_drop]
        exact reaches (place + 1 + before) (by omega) (by omega)

theorem declares_visibleAt_iff {name : Identifier} :
    Declaration.declares (visibleAt locals items place) name = true ↔
      Declaration.declares locals name = true ∨ ∃ (other : Nat) (declaration : Declaration),
        items[other]? = some declaration ∧ Reaches items place other ∧ declaration.name.same name = true := by
  simp only [Declaration.declares, List.any_eq_true, mem_visibleAt_iff, or_and_right, exists_or]
  refine or_congr_right ⟨?_, ?_⟩
  · rintro ⟨declaration, ⟨other, present, reaches⟩, same⟩
    exact ⟨other, declaration, present, reaches, same⟩
  · rintro ⟨other, declaration, present, reaches, same⟩
    exact ⟨declaration, ⟨other, present, reaches⟩, same⟩

/-- The findings in declarations are those of each one among what is visible at it. -/
theorem declarations_eq_flatten (library : Library) (scope : Scope) (unit : DesignUnit)
    (locals items : List Declaration) : declarations library scope unit locals items =
      .flatten ((turns locals items).map fun turn =>
        findAll library scope unit turn.1 turn.2.references ++ mentioned scope turn.1 turn.2) := by
  induction items generalizing locals with
  | nil => rfl
  | cons declaration rest ih =>
    rw [declarations, turns_cons, List.map_cons, Findings.flatten, ih]

end Lookup

namespace Catalog

/-! ## Going through declarations -/

/-- What is found at a declaration among what is visible. -/
def lookAt? (catalog : Catalog) (scope : Scope) (number : Nat) (visible : List Declaration)
    (declaration : Declaration) : Option Findings := do
  return (← catalog.lookupAll? scope number visible declaration.references)
    ++ Lookup.mentioned scope visible declaration

/-- The round for the declaration at a place, where `look` says what is found at a declaration among what is
visible. -/
def walkRound (look : List Declaration → Declaration → Option Findings) (declarations : List Declaration)
    (progress : Progress) : Option (Round Progress (List Declaration × Findings)) :=
  let ⟨place, locals, found⟩ := progress
  match declarations[place]? with
  | none => some (.done (locals, found))
  | some declaration => do
      let (behind, visible) ←
        loop (ownRound declarations) (declarations.length + 1) (place + 1, locals ++ [declaration])
      let here ← look visible declaration
      let kept ← subtract? visible.length (← subtract? (← subtract? behind place) 1)
      return .again ⟨place + 1, visible.take kept, found ++ here⟩

/-- Goes through declarations and looks at each of them. -/
def walk (look : List Declaration → Declaration → Option Findings) (locals declarations : List Declaration) :
    Option (List Declaration × Findings) :=
  loop (walkRound look declarations) (declarations.length + 1) ⟨0, locals, .empty⟩

variable {look : List Declaration → Declaration → Option Findings} {locals declarations : List Declaration}
  {declaration : Declaration} {place : Nat} {found : Findings}

/-- The declarations of a unit are resolved by going through them. -/
theorem declarations?_eq_walk (catalog : Catalog) (scope : Scope) (number : Nat) (locals declarations : List Declaration) :
    catalog.declarations? scope number locals declarations = walk (catalog.lookAt? scope number) locals declarations := by
  have round : catalog.declarationRound scope number declarations =
      walkRound (catalog.lookAt? scope number) declarations := by
    funext ⟨place, locals, found⟩
    cases present : declarations[place]? with
    | none => simp only [declarationRound, walkRound, present]
    | some declaration => simp only [declarationRound, walkRound, lookAt?, present, bind_assoc, pure_bind]
  rw [declarations?, walk, round]

theorem drop_of_getElem? {α : Type} {items : List α} {place : Nat} {item : α} (present : items[place]? = some item) :
    place < items.length ∧ items.drop place = item :: items.drop (place + 1) := by
  obtain ⟨inside, rfl⟩ := List.getElem?_eq_some_iff.mp present
  exact ⟨inside, List.drop_eq_getElem_cons inside⟩

theorem loop_ownRound (declarations visible : List Declaration) {place rounds : Nat}
    (enough : declarations.length - place < rounds) :
    loop (ownRound declarations) rounds (place, visible) =
      some (place + ((declarations.drop place).takeWhile fun next => next.kind.belongsToType).length,
        visible ++ (declarations.drop place).takeWhile fun next => next.kind.belongsToType) := by
  refine loop_eq (fun _ => True) (fun state : Nat × List Declaration => declarations.length - state.1)
    (fun state => (state.1 + ((declarations.drop state.1).takeWhile fun next => next.kind.belongsToType).length,
      state.2 ++ (declarations.drop state.1).takeWhile fun next => next.kind.belongsToType)) ?_ trivial enough
  rintro ⟨place, visible⟩ -
  cases present : declarations[place]? with
  | none =>
    have nothing := List.drop_eq_nil_of_le (List.getElem?_eq_none_iff.mp present)
    exact .inl (by simp [ownRound, present, nothing])
  | some next =>
    obtain ⟨inside, split⟩ := drop_of_getElem? present
    by_cases belongs : next.kind.belongsToType = true
    · refine .inr ⟨(place + 1, visible ++ [next]), ?_, trivial, ?_, ?_⟩
      · simp [ownRound, present, belongs]
      · simp [split, belongs, Nat.add_assoc, Nat.add_comm]
      · dsimp only
        omega
    · exact .inl (by simp [ownRound, present, split, belongs])

/-- What is taken off the list behind a declaration are the literals or units that were added there. -/
theorem walkRound_eq (present : declarations[place]? = some declaration) :
    walkRound look declarations ⟨place, locals, found⟩ =
      (look (locals ++ declaration ::
          (declarations.drop (place + 1)).takeWhile fun next => next.kind.belongsToType) declaration).map
        fun here => .again ⟨place + 1, locals ++ [declaration], found ++ here⟩ := by
  have own := loop_ownRound declarations (locals ++ [declaration])
    (show declarations.length - (place + 1) < declarations.length + 1 by omega)
  generalize (declarations.drop (place + 1)).takeWhile (fun next => next.kind.belongsToType) = more at own ⊢
  have behind : subtract? (place + 1 + more.length) place = some (more.length + 1) := by
    rw [subtract?_of_le (by omega)]
    congr 1
    omega
  have one : subtract? (more.length + 1) 1 = some more.length := subtract?_of_le (Nat.le_add_left 1 _)
  have total : (locals ++ [declaration] ++ more).length = locals.length + 1 + more.length := by
    rw [List.length_append, List.length_append, List.length_singleton]
  have kept : subtract? (locals ++ [declaration] ++ more).length more.length = some (locals.length + 1) := by
    rw [total, subtract?_of_le (Nat.le_add_left _ _), Nat.add_sub_cancel]
  have taken : (locals ++ [declaration] ++ more).take (locals.length + 1) = locals ++ [declaration] :=
    List.take_left' (by simp)
  have shown : locals ++ declaration :: more = locals ++ [declaration] ++ more := by simp
  simp only [walkRound, present, own, behind, one, kept, taken, Option.bind_eq_bind, Option.bind_some, shown]
  cases look (locals ++ [declaration] ++ more) declaration <;> rfl

/-- From a place on, each declaration is looked at among what is visible at it. -/
theorem loop_walkRound {rounds : Nat} (enough : declarations.length - place < rounds) :
    loop (walkRound look declarations) rounds ⟨place, locals, found⟩ =
      ((Lookup.turns locals (declarations.drop place)).mapM fun turn => look turn.1 turn.2).map
        fun more => (locals ++ declarations.drop place, found ++ .flatten more) := by
  induction rounds generalizing place locals found with
  | zero => exact absurd enough (Nat.not_lt_zero _)
  | succ rounds ih =>
    rw [loop]
    cases present : declarations[place]? with
    | none =>
      have nothing := List.drop_eq_nil_of_le (List.getElem?_eq_none_iff.mp present)
      simp [walkRound, present, nothing, Lookup.turns, Findings.flatten, Findings.append_empty]
    | some declaration =>
      obtain ⟨inside, split⟩ := drop_of_getElem? present
      have remaining : declarations.length - (place + 1) < rounds := by omega
      rw [walkRound_eq present, split, Lookup.turns_cons, List.mapM_cons]
      cases look _ declaration with
      | none => rfl
      | some here =>
        simp only [Option.map_some, Option.bind_eq_bind, Option.bind_some, ih remaining]
        cases (Lookup.turns (locals ++ [declaration]) (declarations.drop (place + 1))).mapM
          fun turn => look turn.1 turn.2 with
        | none => rfl
        | some more => simp [Findings.flatten, Findings.append_assoc]

/-- Each declaration is looked at among what is visible at it, in order, and at the end all of them are visible. -/
theorem walk_eq (look : List Declaration → Declaration → Option Findings) (locals declarations : List Declaration) :
    walk look locals declarations =
      ((Lookup.turns locals declarations).mapM fun turn => look turn.1 turn.2).map
        fun found => (locals ++ declarations, .flatten found) := by
  rw [walk, loop_walkRound (by omega), List.drop_zero]
  simp only [Findings.empty_append]

/-- Whatever is done at the declarations of a part, it is done at each of them in order, and the declarations that are
local there are exactly the ones visible from the beginning, those up to it, and the literals or units right behind it;
in the end they are all. A name that only later declarations have is looked for outside the part. -/
theorem local_at_each_declaration (locals declarations : List Declaration) :
    (∀ look, walk look locals declarations =
      ((Lookup.turns locals declarations).mapM fun turn => look turn.1 turn.2).map
        fun found => (locals ++ declarations, .flatten found)) ∧
    (∀ catalog scope number, Catalog.declarations? catalog scope number locals declarations =
      walk (catalog.lookAt? scope number) locals declarations) ∧
    (∀ library scope unit, Lookup.declarations library scope unit locals declarations =
      .flatten ((Lookup.turns locals declarations).map fun turn =>
        Lookup.findAll library scope unit turn.1 turn.2.references ++ Lookup.mentioned scope turn.1 turn.2)) ∧
    (∀ place name, Declaration.declares (Lookup.visibleAt locals declarations place) name = true ↔
      Declaration.declares locals name = true ∨ ∃ other declaration, declarations[other]? = some declaration ∧
        Lookup.Reaches declarations place other ∧ declaration.name.same name = true) ∧
    ∀ library scope unit place reference, Declaration.declares locals reference.name.first = false →
      (∀ other declaration, declarations[other]? = some declaration →
        declaration.name.same reference.name.first = true → ¬ Lookup.Reaches declarations place other) →
      Lookup.find library scope unit (Lookup.visibleAt locals declarations place) reference =
        if unit.name.same reference.name.first || unit.owner?.any reference.name.first.same then .empty
        else Lookup.imported library scope reference := by
  have declared (place : Nat) (name : Identifier) :
      Declaration.declares (Lookup.visibleAt locals declarations place) name = true ↔
        Declaration.declares locals name = true ∨ ∃ other declaration, declarations[other]? = some declaration ∧
          Lookup.Reaches declarations place other ∧ declaration.name.same name = true :=
    Lookup.declares_visibleAt_iff
  refine ⟨fun look => walk_eq look locals declarations,
    fun catalog scope number => declarations?_eq_walk catalog scope number locals declarations,
    fun library scope unit => Lookup.declarations_eq_flatten library scope unit locals declarations, declared, ?_⟩
  intro library scope unit place reference notBefore onlyLater
  have notLocal : Declaration.declares (Lookup.visibleAt locals declarations place) reference.name.first = false := by
    rw [Bool.eq_false_iff, Ne, declared]
    rintro (before | ⟨other, declaration, present, reaches, same⟩)
    · exact Bool.eq_false_iff.mp notBefore before
    · exact onlyLater other declaration present same reaches
  simp only [Lookup.find, notLocal, Bool.false_eq_true, if_false]

end Catalog

end VhdlOrder
