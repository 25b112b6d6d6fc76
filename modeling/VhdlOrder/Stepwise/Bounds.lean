/-! # Steps within bounds

Places in a list are numbers, and so are the counters of a loop. A step that uses a place outside its list, or
that takes more from a counter than there is, has no result. The step-by-step forms of the algorithms are made
of these steps, so that `none` is the answer of a run that leaves its bounds, and also of one that takes more steps
than it may.
-/

namespace VhdlOrder.Stepwise

variable {α β σ : Type}

/-- What is left of a counter. -/
def subtract? (count less : Nat) : Option Nat := if less ≤ count then some (count - less) else none

/-- The items from one place up to another one. -/
def slice? (items : List α) (first last : Nat) : Option (List α) :=
  if first ≤ last ∧ last ≤ items.length then some ((items.take last).drop first) else none

/-- The item at the last place. -/
def last? (items : List α) : Option α := do items[← subtract? items.length 1]?

/-- Changes the item at a place. -/
def update? (items : List α) (place : Nat) (change : α → α) : Option (List α) :=
  if place < items.length then some (items.modify place change) else none

theorem subtract?_of_le {count less : Nat} (enough : less ≤ count) : subtract? count less = some (count - less) :=
  if_pos enough

theorem slice?_of_le {items : List α} {first last : Nat} (ordered : first ≤ last) (inside : last ≤ items.length) :
    slice? items first last = some ((items.take last).drop first) :=
  if_pos ⟨ordered, inside⟩

/-- Behind a place, everything up to the end. -/
theorem slice?_length {items : List α} {first : Nat} (inside : first ≤ items.length) :
    slice? items first items.length = some (items.drop first) := by
  rw [slice?_of_le inside (Nat.le_refl _), List.take_length]

/-- Before a place, everything from the beginning. -/
theorem slice?_zero {items : List α} {last : Nat} (inside : last ≤ items.length) :
    slice? items 0 last = some (items.take last) := by
  rw [slice?_of_le (Nat.zero_le _) inside, List.drop_zero]

example : subtract? 0 1 = none ∧ slice? [1, 2] 1 3 = none ∧ slice? [1, 2] 2 1 = none := ⟨rfl, rfl, rfl⟩

/-- There is no item at the last place only if there is none at all. -/
theorem last?_eq (items : List α) : last? items = items.getLast? := by
  cases items with
  | nil => rfl
  | cons item rest =>
    have some : 1 ≤ (item :: rest).length := Nat.le_add_left 1 _
    rw [last?, subtract?_of_le some, List.getLast?_eq_getElem?]
    rfl

theorem update?_of_lt {items : List α} {place : Nat} (inside : place < items.length) (change : α → α) :
    update? items place change = some (items.modify place change) :=
  if_pos inside

/-- A step for each item, all of which have a result. -/
theorem mapM_eq_map {items : List α} {step : α → Option β} {function : α → β}
    (each : ∀ item ∈ items, step item = some (function item)) : items.mapM step = some (items.map function) := by
  induction items with
  | nil => rfl
  | cons item rest ih =>
    rw [List.mapM_cons, each item List.mem_cons_self, ih fun other member => each other (List.mem_cons_of_mem _ member)]
    rfl

/-- Where each step has a result, nothing is left out. -/
theorem mapM_eq_filterMap {items : List α} {step : α → Option β} (each : ∀ item ∈ items, (step item).isSome) :
    items.mapM step = some (items.filterMap step) := by
  induction items with
  | nil => rfl
  | cons item rest ih =>
    obtain ⟨here, others⟩ := List.forall_mem_cons.mp each
    obtain ⟨found, isFound⟩ := Option.isSome_iff_exists.mp here
    rw [List.mapM_cons, isFound, ih others, List.filterMap_cons, isFound]
    rfl

/-- Collects what a step finds for the items. -/
def filterMap? (step : α → Option (Option β)) (items : List α) : Option (List β) := do
  return (← items.mapM step).filterMap id

theorem filterMap?_map {γ : Type} (step : β → Option (Option γ)) (function : α → β) (items : List α) :
    filterMap? step (items.map function) = filterMap? (fun item => step (function item)) items := by
  rw [filterMap?, filterMap?, List.mapM_map]
  rfl

theorem filterMap?_eq {items : List α} {step : α → Option (Option β)} {function : α → Option β}
    (each : ∀ item ∈ items, step item = some (function item)) :
    filterMap? step items = some (items.filterMap function) := by
  rw [filterMap?, mapM_eq_map each]
  exact congrArg some (List.filterMap_map ..)

/-- The first item that a step says yes to. -/
theorem findM?_eq_find? {α : Type} {items : List α} {step : α → Option Bool} {fits : α → Bool}
    (each : ∀ item ∈ items, step item = some (fits item)) : items.findM? step = some (items.find? fits) := by
  induction items with
  | nil => rfl
  | cons item rest ih =>
    have others := ih fun other member => each other (List.mem_cons_of_mem _ member)
    rw [List.findM?, each item List.mem_cons_self, List.find?_cons]
    cases fits item with
    | true => rfl
    | false => exact others

/-- A step for each item, all of which have a result where they are taken. -/
theorem foldlM_eq_foldl {step : σ → α → Option σ} {next : σ → α → σ} (holds : σ → Prop) {items : List α}
    (each : ∀ state, holds state → ∀ item ∈ items, step state item = some (next state item) ∧ holds (next state item))
    {state : σ} (here : holds state) :
    items.foldlM step state = some (items.foldl next state) ∧ holds (items.foldl next state) := by
  induction items generalizing state with
  | nil => exact ⟨rfl, here⟩
  | cons item rest ih =>
    obtain ⟨taken, there⟩ := each state here item List.mem_cons_self
    rw [List.foldlM_cons, taken]
    exact ih (fun state here other member => each state here other (List.mem_cons_of_mem _ member)) there

/-! ## Loops -/

/-- What a round of a loop comes to: one more round from another state, or the answer. -/
inductive Round (σ β : Type) where
  | again (state : σ)
  | done (answer : β)

/-- Runs rounds from a state on until one of them has the answer, which is to come within a number of rounds. -/
def loop (round : σ → Option (Round σ β)) : Nat → σ → Option β
  | 0, _ => none
  | rounds + 1, state => do
      match ← round state with
      | .again next => loop round rounds next
      | .done answer => return answer

/-- A loop has a good answer if each round from a state as it should be has one or leads to another such state with
less left to do. -/
theorem exists_loop {round : σ → Option (Round σ β)} (holds : σ → Prop) (left : σ → Nat) (good : β → Prop)
    (each : ∀ state, holds state → (∃ answer, round state = some (.done answer) ∧ good answer) ∨
      ∃ next, round state = some (.again next) ∧ holds next ∧ left next < left state)
    {rounds : Nat} {state : σ} (here : holds state) (enough : left state < rounds) :
    ∃ answer, loop round rounds state = some answer ∧ good answer := by
  induction rounds generalizing state with
  | zero => exact absurd enough (Nat.not_lt_zero _)
  | succ rounds ih =>
    rcases each state here with ⟨answer, ended, isGood⟩ | ⟨next, went, there, less⟩
    · exact ⟨answer, by rw [loop, ended]; rfl, isGood⟩
    · obtain ⟨answer, ran, isGood⟩ := ih there (by omega)
      refine ⟨answer, ?_, isGood⟩
      rw [loop, went]
      exact ran

/-- A loop has the answer that no round changes. -/
theorem loop_eq {round : σ → Option (Round σ β)} (holds : σ → Prop) (left : σ → Nat) (answer : σ → β)
    (each : ∀ state, holds state → round state = some (.done (answer state)) ∨
      ∃ next, round state = some (.again next) ∧ holds next ∧ answer next = answer state ∧ left next < left state)
    {rounds : Nat} {state : σ} (here : holds state) (enough : left state < rounds) :
    loop round rounds state = some (answer state) := by
  have unchanged (other : σ) (there : holds other ∧ answer other = answer state) :
      (∃ found, round other = some (.done found) ∧ found = answer state) ∨
        ∃ next, round other = some (.again next) ∧ (holds next ∧ answer next = answer state) ∧
          left next < left other := by
    rcases each other there.1 with ended | ⟨next, went, stays, same, less⟩
    · exact .inl ⟨_, ended, there.2⟩
    · exact .inr ⟨next, went, ⟨stays, same.trans there.2⟩, less⟩
  obtain ⟨_, ran, rfl⟩ := exists_loop _ left _ unchanged ⟨here, rfl⟩ enough
  exact ran

end VhdlOrder.Stepwise
