import VhdlOrder.Proofs.Design.RegionTree

/-! # Declarations inside declarations

Components, subprograms and packages have declarations inside them. Such a declaration is closed if it refers to none
of these, refers to nothing twice, and refers to whatever they refer to and is not among them. So a reference of a
declaration at any depth is bound by one of the declarations around it, if all of them are closed, or it is also a
reference of the outermost one.
-/

namespace VhdlOrder

/-- The declaration is one of `items` or stands inside one of them. -/
inductive Declaration.Within : List Declaration → Declaration → Prop
  | here {items : List Declaration} {declaration : Declaration} :
      declaration ∈ items → Within items declaration
  | inside {items : List Declaration} {outer declaration : Declaration} :
      outer ∈ items → Within outer.locals declaration → Within items declaration

theorem Declaration.Within.ne_nil {items : List Declaration} {declaration : Declaration}
    (within : Within items declaration) : items ≠ [] := by
  cases within with
  | here member => exact List.ne_nil_of_mem member
  | inside member _ => exact List.ne_nil_of_mem member

theorem Declaration.Within.mono {items more : List Declaration} {declaration : Declaration}
    (within : Within items declaration) (part : items ⊆ more) : Within more declaration := by
  cases within with
  | here member => exact .here (part member)
  | inside member deeper => exact .inside (part member) deeper

namespace Declaration

variable {items first second : List Declaration} {declaration outer inner : Declaration} {around : List Declaration}

@[simp] theorem not_within_nil : ¬ Within [] declaration := fun within => within.ne_nil rfl

@[simp] theorem within_append :
    Within (first ++ second) declaration ↔ Within first declaration ∨ Within second declaration := by
  constructor
  · rintro (⟨member⟩ | ⟨member, deeper⟩)
    · exact (List.mem_append.mp member).imp .here .here
    · exact (List.mem_append.mp member).imp (.inside · deeper) (.inside · deeper)
  · rintro (within | within)
    · exact within.mono (List.subset_append_left _ _)
    · exact within.mono (List.subset_append_right _ _)

@[simp] theorem within_cons :
    Within (outer :: items) declaration ↔
      declaration = outer ∨ Within outer.locals declaration ∨ Within items declaration := by
  constructor
  · rintro (⟨member⟩ | ⟨member, deeper⟩)
    · exact (List.mem_cons.mp member).imp_right fun later => .inr (.here later)
    · rcases List.mem_cons.mp member with rfl | later
      · exact .inr (.inl deeper)
      · exact .inr (.inr (.inside later deeper))
  · rintro (rfl | deeper | later)
    · exact .here List.mem_cons_self
    · exact .inside List.mem_cons_self deeper
    · exact later.mono (List.subset_cons_self _ _)

/-! ## Paths to a declaration -/

/-- The declaration `inner` is `outer` itself or stands inside it; the declarations around it are `around`, from `outer`
inwards. -/
inductive Encloses : Declaration → List Declaration → Declaration → Prop
  | self {declaration : Declaration} : Encloses declaration [] declaration
  | inside {outer next inner : Declaration} {around : List Declaration} : next ∈ outer.locals →
      Encloses next around inner → Encloses outer (outer :: around) inner

theorem Within.step {next : Declaration} (within : Within items outer) (isLocal : next ∈ outer.locals) :
    Within items next := by
  induction within with
  | here member => exact .inside member (.here isLocal)
  | inside member _ ih => exact .inside member (ih isLocal)

theorem Encloses.within (encloses : Encloses outer around inner) (within : Within items outer) :
    Within items inner ∧ ∀ declaration ∈ around, Within items declaration := by
  induction encloses with
  | self => exact ⟨within, List.forall_mem_nil _⟩
  | inside isLocal _ ih =>
    obtain ⟨isInner, others⟩ := ih (within.step isLocal)
    exact ⟨isInner, List.forall_mem_cons.mpr ⟨within, others⟩⟩

/-- The declarations around another one have declarations inside them. -/
theorem Encloses.locals_ne_nil (encloses : Encloses outer around inner) :
    ∀ declaration ∈ around, declaration.locals ≠ [] := by
  induction encloses with
  | self => exact List.forall_mem_nil _
  | inside isLocal _ ih => exact List.forall_mem_cons.mpr ⟨List.ne_nil_of_mem isLocal, ih⟩

/-! ## Closed declarations -/

/-- The references of the declaration are free in it and differ, and they have all that are free in the declarations
inside it. -/
structure Closed (declaration : Declaration) : Prop where
  free : ∀ reference ∈ declaration.references, declares declaration.locals reference.name.first = false
  distinct : declaration.references.Pairwise fun first second => first.same second = false
  kept : ∀ inner ∈ declaration.locals, ∀ reference ∈ inner.references,
    declares declaration.locals reference.name.first = false → reference.IsAmong declaration.references

/-- A reference at any depth is bound by a declaration around it, or the outermost declaration has it. -/
theorem Encloses.bound_or_isAmong (encloses : Encloses outer around inner)
    (closed : ∀ declaration ∈ around, declaration.Closed) {reference : Reference}
    (member : reference ∈ inner.references) :
    (∃ declaration ∈ around, declares declaration.locals reference.name.first = true) ∨
      reference.IsAmong outer.references := by
  induction encloses with
  | self => exact .inr (Reference.isAmong_of_mem member)
  | inside isLocal _ ih =>
    obtain ⟨outerClosed, others⟩ := List.forall_mem_cons.mp closed
    obtain ⟨declaration, present, bound⟩ | ⟨handed, present, same⟩ := ih others member
    · exact .inl ⟨declaration, List.mem_cons_of_mem _ present, bound⟩
    · have alike := declares_congr (Reference.key_first_of_same same)
      cases bound : declares _ reference.name.first with
      | true => exact .inl ⟨_, List.mem_cons_self, bound⟩
      | false =>
        obtain ⟨other, isOther, equal⟩ := outerClosed.kept _ isLocal handed present (by rw [alike, bound])
        exact .inr ⟨other, isOther, Reference.same_trans equal same⟩

/-- What is kept outside the locals is not the same as what was kept before. -/
theorem pairwise_outsideFrom (locals : List Declaration) (kept references : List Reference) :
    (∀ reference ∈ outsideFrom locals kept references, ∀ other ∈ kept, reference.same other = false) ∧
      (outsideFrom locals kept references).Pairwise fun first second => first.same second = false := by
  induction references generalizing kept with
  | nil => exact ⟨List.forall_mem_nil _, .nil⟩
  | cons reference rest ih =>
    unfold outsideFrom
    split
    · exact ih kept
    · rename_i fresh
      rw [Bool.or_eq_true, not_or, List.any_eq_true, not_exists] at fresh
      obtain ⟨differ, pairwise⟩ := ih (reference :: kept)
      refine ⟨List.forall_mem_cons.mpr ⟨fun other member => ?_, fun later present other member => ?_⟩,
        List.pairwise_cons.mpr ⟨fun later present => ?_, pairwise⟩⟩
      · exact Bool.eq_false_iff.mpr fun same => fresh.2 other ⟨member, same⟩
      · exact differ later present other (List.mem_cons_of_mem _ member)
      · refine Bool.eq_false_iff.mpr fun same => ?_
        have different := differ later present reference List.mem_cons_self
        rw [Reference.same_symm same] at different
        cases different

/-- A declaration is closed if its references are those of more references, with all of its locals, that are not
local. -/
theorem closed_of_outside {references : List Reference}
    (same : declaration.references = outside declaration.locals references)
    (all : allReferences declaration.locals ⊆ references) : declaration.Closed where
  free reference member := by
    rw [same] at member
    exact (isAmong_outside_iff.mp (Reference.isAmong_of_mem member)).1
  distinct := same ▸ (pairwise_outsideFrom _ _ _).2
  kept inner isLocal reference member free := by
    rw [same]
    exact isAmong_outside_iff.mpr
      ⟨free, Reference.isAmong_of_mem (all (List.mem_flatMap.mpr ⟨inner, isLocal, member⟩))⟩

end Declaration

end VhdlOrder
