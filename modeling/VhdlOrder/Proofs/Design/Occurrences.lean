import Mathlib.Data.List.Forall2
import Mathlib.Data.Set.Subsingleton
import VhdlOrder.Proofs.Design.Yields

/-! # Where names are written

The references in a piece of source are the names that are written in it: identifiers with points between them, as many
as there are, that stand neither behind a point or a tick nor before an arrow. Such a name stands at the place of its
first identifier, and at most one name stands at a place. The references are the names at all such places, one for each
place and in the order of the places, and the mentions are the leading identifiers that come for the first time.
-/

namespace VhdlOrder.References

/-- Identifiers, each behind a point. -/
inductive Chain : List PlacedToken → List Identifier → Prop
  | nil : Chain [] []
  | cons {dot next : PlacedToken} {tokens : List PlacedToken} {name : Identifier} {names : List Identifier} :
      dot.value = .delimiter .dot → next.value = .identifier name → Chain tokens names →
        Chain (dot :: next :: tokens) (name :: names)

/-- The reference begins with `token`, takes all identifiers behind points that follow, and is no formal part. -/
inductive BeginsAt (token : PlacedToken) (rest : List PlacedToken) (reference : Reference) : Prop
  | intro {others after : List PlacedToken} (value : token.value = .identifier reference.name.first)
      (place : token.position = reference.position) (standing : rest = others ++ after)
      (suffix : Chain others reference.name.suffix)
      (whole : ∀ dot next behind, after = dot :: next :: behind → dot.value = .delimiter .dot →
        next.value.isIdentifier = false)
      (actual : ∀ next ∈ after.head?, next.value ≠ .delimiter .arrow) : BeginsAt token rest reference

/-- Whether an identifier behind the tokens selects a part; without tokens, `selected` says so. -/
def selectsLast (selected : Bool) (before : List PlacedToken) : Bool :=
  (before.getLast?.map fun last => selects last.value).getD selected

/-- The reference is written in the tokens; `selected` says whether a point or a tick comes before them. -/
inductive OccursFrom (selected : Bool) (tokens : List PlacedToken) (reference : Reference) : Prop
  | intro {before rest : List PlacedToken} {token : PlacedToken} (standing : tokens = before ++ token :: rest)
      (ordinary : selectsLast selected before = false) (begins : BeginsAt token rest reference) :
      OccursFrom selected tokens reference

/-- The reference is written in the tokens. -/
abbrev Occurs (tokens : List PlacedToken) (reference : Reference) : Prop := OccursFrom false tokens reference

variable {selected : Bool} {token : PlacedToken} {tokens rest others : List PlacedToken} {names : List Identifier}
  {reference : Reference}

theorem Chain.chain_append (chained : Chain others names) (tokens : List PlacedToken) :
    chain (others ++ tokens) = (names ++ (chain tokens).1, (chain tokens).2) := by
  induction chained with
  | nil => rfl
  | cons isDot isName _ ih => simp [chain, isDot, isName, ih]

theorem exists_chain (tokens : List PlacedToken) :
    ∃ others, tokens = others ++ (chain tokens).2 ∧ Chain others (chain tokens).1 ∧
      ∀ dot next behind, (chain tokens).2 = dot :: next :: behind → dot.value = .delimiter .dot →
        next.value.isIdentifier = false := by
  fun_induction chain tokens with
  | case1 dot next rest name isName isDot names tail bound ih =>
    rw [bound] at ih
    obtain ⟨others, same, chained, whole⟩ := ih
    exact ⟨dot :: next :: others, by rw [List.cons_append, List.cons_append, ← same], .cons isDot isName chained, whole⟩
  | case2 dot next rest other =>
    refine ⟨[], rfl, .nil, ?_⟩
    rintro _ _ _ ⟨⟩ isDot
    cases value : next.value with
    | identifier name => exact absurd value (other name isDot)
    | comment | decimal | based | character | string | bitString | keyword | delimiter | endOfFile => rfl
  | case3 tokens short =>
    exact ⟨[], rfl, .nil, fun dot next behind same => absurd same (short dot next behind)⟩

theorem selectsLast_cons (token : PlacedToken) (before : List PlacedToken) :
    selectsLast selected (token :: before) = selectsLast (selects token.value) before := by
  unfold selectsLast
  cases before with
  | nil => rfl
  | cons next others => simp only [List.getLast?_cons, Option.map_some, Option.getD_some]

/-- No more is taken where no point with an identifier follows. -/
theorem chain_of_whole (whole : ∀ dot next behind, tokens = dot :: next :: behind → dot.value = .delimiter .dot →
    next.value.isIdentifier = false) : chain tokens = ([], tokens) := by
  fun_cases chain tokens with
  | case1 dot next rest name isName isDot =>
    have none := whole dot next rest rfl isDot
    rw [isName] at none
    cases none
  | case2 => rfl
  | case3 => rfl

theorem beginsAt_iff : BeginsAt token rest reference ↔ token.value = .identifier reference.name.first ∧
    token.position = reference.position ∧ (chain rest).1 = reference.name.suffix ∧
      ((chain rest).2.head?.any fun next => next.value.isDelimiter .arrow) = false := by
  have noArrow (after : List PlacedToken) : (after.head?.any fun next => next.value.isDelimiter .arrow) = false ↔
      ∀ next ∈ after.head?, next.value ≠ .delimiter .arrow := by
    cases after <;> simp [Token.isDelimiter]
  constructor
  · rintro ⟨value, place, rfl, suffix, whole, actual⟩
    rw [suffix.chain_append, chain_of_whole whole, List.append_nil]
    exact ⟨value, place, rfl, (noArrow _).mpr actual⟩
  · rintro ⟨value, place, same, actual⟩
    obtain ⟨others, standing, chained, whole⟩ := exists_chain rest
    exact ⟨value, place, standing, same ▸ chained, whole, (noArrow _).mp actual⟩

/-- A reference that is written in some tokens begins at the first one or is written behind it. -/
theorem occursFrom_cons : OccursFrom selected (token :: rest) reference ↔
    (selected = false ∧ BeginsAt token rest reference) ∨ OccursFrom (selects token.value) rest reference := by
  constructor
  · rintro ⟨standing, ordinary, begins⟩
    rename_i before _ _
    cases before with
    | nil =>
      cases standing
      exact .inl ⟨ordinary, begins⟩
    | cons first before =>
      cases standing
      exact .inr ⟨rfl, (selectsLast_cons _ _).symm.trans ordinary, begins⟩
  · rintro (⟨ordinary, begins⟩ | ⟨rfl, ordinary, begins⟩)
    · exact .intro (List.nil_append (token :: rest)).symm ordinary begins
    · exact .intro (List.cons_append ..).symm ((selectsLast_cons _ _).trans ordinary) begins

theorem not_occursFrom_nil : ¬ OccursFrom selected [] reference := by
  rintro ⟨standing, -, -⟩
  simp at standing

theorem BeginsAt.isIdentifier (begins : BeginsAt token rest reference) :
    token.value = .identifier reference.name.first :=
  (beginsAt_iff.mp begins).1

/-- No reference begins with one of the identifiers behind points. -/
theorem Chain.occursFrom_append (chained : Chain others names) :
    OccursFrom false (others ++ tokens) reference ↔ OccursFrom false tokens reference := by
  induction chained with
  | nil => exact Iff.rfl
  | cons isDot isName _ ih =>
    rw [List.cons_append, List.cons_append, occursFrom_cons, occursFrom_cons, isDot, isName, ← ih]
    constructor
    · rintro (⟨-, begins⟩ | ⟨isFalse, -⟩ | occurs)
      · cases isDot.symm.trans begins.isIdentifier
      · cases isFalse
      · exact occurs
    · exact fun occurs => .inr (.inr occurs)

theorem occursFrom_behind_chain {name : Identifier} : OccursFrom (selects (.identifier name)) rest reference ↔
    OccursFrom false (chain rest).2 reference := by
  obtain ⟨others, standing, chained, -⟩ := exists_chain rest
  rw [← chained.occursFrom_append, ← standing]
  rfl

theorem mem_collectFrom_iff : reference ∈ collectFrom selected tokens ↔ OccursFrom selected tokens reference := by
  fun_induction collectFrom selected tokens with
  | case1 => simpa using not_occursFrom_nil
  | case2 selected token rest name same tail formal further dropped ih =>
    rw [ih, occursFrom_cons, same, occursFrom_behind_chain]
    refine ⟨.inr, fun occurs => occurs.resolve_left ?_⟩
    rintro ⟨ordinary, begins⟩
    obtain ⟨-, -, -, actual⟩ := beginsAt_iff.mp begins
    rw [ordinary, Bool.false_or] at dropped
    cases actual.symm.trans dropped
  | case3 selected token rest name same tail formal further kept ih =>
    rw [Bool.or_eq_true, not_or, Bool.not_eq_true, Bool.not_eq_true] at kept
    obtain ⟨ordinary, actual⟩ := kept
    rw [List.mem_cons, ih, occursFrom_cons, same, occursFrom_behind_chain, beginsAt_iff, same]
    refine or_congr_left ⟨?_, ?_⟩
    · rintro rfl
      exact ⟨ordinary, rfl, rfl, rfl, actual⟩
    · obtain ⟨⟨first, suffix⟩, position⟩ := reference
      rintro ⟨-, ⟨⟩, rfl, rfl, -⟩
      rfl
  | case4 selected token rest other ih =>
    rw [ih, occursFrom_cons]
    exact ⟨.inr, fun occurs => occurs.resolve_left fun here => other _ here.2.isIdentifier⟩

/-- The references in tokens are those that are written in them. -/
theorem mem_collect_iff : reference ∈ collect tokens ↔ Occurs tokens reference := mem_collectFrom_iff

/-! ## What stands at places, in order -/

section Places

variable {α : Type} {stands : Nat → α → Prop} {items : List α} {item : α}

/-- The items are what stands at the places, one for each place where anything stands, and in the order of the
places. -/
def InOrder (stands : Nat → α → Prop) (items : List α) : Prop :=
  ∃ places : List Nat, places.Pairwise (· < ·) ∧ (∀ place, place ∈ places ↔ ∃ item, stands place item) ∧
    List.Forall₂ stands places items

theorem InOrder.nil (nothing : ∀ place item, ¬ stands place item) : InOrder stands [] :=
  ⟨[], .nil, fun place => by simp [nothing], .nil⟩

/-- Nothing stands at the first place. -/
theorem InOrder.behind (nothing : ∀ item, ¬ stands 0 item) (others : InOrder (fun place => stands (place + 1)) items) :
    InOrder stands items := by
  obtain ⟨places, ordered, all, standing⟩ := others
  refine ⟨places.map (· + 1), ?_, fun place => ?_, List.forall₂_map_left_iff.mpr standing⟩
  · exact List.pairwise_map.mpr (ordered.imp (Nat.succ_lt_succ ·))
  · cases place with
    | zero => simp [nothing]
    | succ place => simpa using all place

theorem InOrder.cons (first : stands 0 item) (others : InOrder (fun place => stands (place + 1)) items) :
    InOrder stands (item :: items) := by
  obtain ⟨places, ordered, all, standing⟩ := others
  refine ⟨0 :: places.map (· + 1), ?_, fun place => ?_, .cons first (List.forall₂_map_left_iff.mpr standing)⟩
  · refine List.pairwise_cons.mpr ⟨by simp, List.pairwise_map.mpr (ordered.imp (Nat.succ_lt_succ ·))⟩
  · cases place with
    | zero => simpa using ⟨item, first⟩
    | succ place => simpa using all place

theorem InOrder.congr {stands' : Nat → α → Prop} (same : ∀ place item, stands place item ↔ stands' place item)
    (inOrder : InOrder stands items) : InOrder stands' items := by
  obtain rfl : stands = stands' := funext fun place => funext fun item => propext (same place item)
  exact inOrder

end Places

/-! ## Names at places -/

/-- The reference stands at the place in the tokens; `selected` says whether a point or a tick comes before them. -/
inductive StandsFrom (selected : Bool) (tokens : List PlacedToken) (place : Nat) (reference : Reference) : Prop
  | intro {before rest : List PlacedToken} {token : PlacedToken} (standing : tokens = before ++ token :: rest)
      (here : before.length = place) (ordinary : selectsLast selected before = false)
      (begins : BeginsAt token rest reference) : StandsFrom selected tokens place reference

/-- The reference stands at the place in the tokens, not behind a point or a tick. -/
abbrev StandsAt (tokens : List PlacedToken) (place : Nat) (reference : Reference) : Prop :=
  StandsFrom false tokens place reference

variable {other : Reference} {references : List Reference} {place : Nat}

theorem standsFrom_zero :
    StandsFrom selected (token :: rest) 0 reference ↔ selected = false ∧ BeginsAt token rest reference := by
  constructor
  · rintro ⟨standing, here, ordinary, begins⟩
    obtain rfl := List.eq_nil_of_length_eq_zero here
    cases standing
    exact ⟨ordinary, begins⟩
  · rintro ⟨ordinary, begins⟩
    exact .intro (List.nil_append (token :: rest)).symm rfl ordinary begins

theorem standsFrom_succ : StandsFrom selected (token :: rest) (place + 1) reference ↔
    StandsFrom (selects token.value) rest place reference := by
  constructor
  · rintro ⟨standing, here, ordinary, begins⟩
    obtain ⟨first, before, rfl⟩ := List.exists_cons_of_length_eq_add_one here
    cases standing
    exact .intro rfl (Nat.succ.inj here) ((selectsLast_cons _ _).symm.trans ordinary) begins
  · rintro ⟨rfl, rfl, ordinary, begins⟩
    exact .intro (List.cons_append ..).symm rfl ((selectsLast_cons _ _).trans ordinary) begins

/-- At most one name stands at a place. -/
theorem StandsFrom.unique (first : StandsFrom selected tokens place reference)
    (second : StandsFrom selected tokens place other) : reference = other := by
  obtain ⟨standing, here, -, begins⟩ := first
  obtain ⟨standing', here', -, begins'⟩ := second
  obtain ⟨rfl, same⟩ := List.append_inj (standing.symm.trans standing') (here.trans here'.symm)
  obtain ⟨rfl, rfl⟩ := List.cons.inj same
  obtain ⟨value, position, suffix, -⟩ := beginsAt_iff.mp begins
  obtain ⟨value', position', suffix', -⟩ := beginsAt_iff.mp begins'
  have first : reference.name.first = other.name.first := Token.identifier.inj (value.symm.trans value')
  have others : reference.name.suffix = other.name.suffix := suffix.symm.trans suffix'
  have position : reference.position = other.position := position.symm.trans position'
  obtain ⟨⟨_, _⟩, _⟩ := reference
  obtain ⟨⟨_, _⟩, _⟩ := other
  dsimp only at first others position
  rw [first, others, position]

/-- Nothing stands at the first token. -/
theorem inOrder_behind (nothing : ∀ reference, ¬(selected = false ∧ BeginsAt token rest reference))
    (inOrder : InOrder (StandsFrom (selects token.value) rest) references) :
    InOrder (StandsFrom selected (token :: rest)) references :=
  .behind (fun reference here => nothing reference (standsFrom_zero.mp here))
    (inOrder.congr fun _ _ => standsFrom_succ.symm)

/-- Nothing stands at identifiers behind points. -/
theorem Chain.inOrder_append (chained : Chain others names) (inOrder : InOrder (StandsFrom false tokens) references) :
    InOrder (StandsFrom false (others ++ tokens)) references := by
  induction chained with
  | nil => exact inOrder
  | cons isDot isName _ ih =>
    refine inOrder_behind (fun reference here => ?_) (inOrder_behind (fun reference here => ?_) ?_)
    · cases isDot.symm.trans here.2.isIdentifier
    · rw [isDot] at here
      cases here.1
    · rw [isName]
      exact ih

theorem inOrder_behind_chain {name : Identifier} (inOrder : InOrder (StandsFrom false (chain rest).2) references) :
    InOrder (StandsFrom (selects (.identifier name)) rest) references := by
  obtain ⟨others, standing, chained, -⟩ := exists_chain rest
  rw [standing]
  exact chained.inOrder_append inOrder

theorem inOrder_collectFrom : InOrder (StandsFrom selected tokens) (collectFrom selected tokens) := by
  fun_induction collectFrom selected tokens with
  | case1 =>
    refine .nil fun place reference here => ?_
    obtain ⟨standing, -, -, -⟩ := here
    simp at standing
  | case2 selected token rest name same tail formal further dropped ih =>
    refine inOrder_behind (fun reference here => ?_) (same ▸ inOrder_behind_chain ih)
    obtain ⟨rfl, begins⟩ := here
    obtain ⟨-, -, -, actual⟩ := beginsAt_iff.mp begins
    rw [Bool.false_or] at dropped
    cases actual.symm.trans dropped
  | case3 selected token rest name same tail formal further kept ih =>
    rw [Bool.or_eq_true, not_or, Bool.not_eq_true, Bool.not_eq_true] at kept
    have behind : InOrder (StandsFrom (selects token.value) rest) further := same ▸ inOrder_behind_chain ih
    refine .cons (standsFrom_zero.mpr ⟨kept.1, beginsAt_iff.mpr ⟨same, rfl, rfl, kept.2⟩⟩) ?_
    exact behind.congr fun _ _ => standsFrom_succ.symm
  | case4 selected token rest other ih =>
    exact inOrder_behind (fun reference here => other _ here.2.isIdentifier) ih

/-! ## Leading names -/

/-- The name stands at the place, and none of those in front of it is the same. -/
def FirstAt (names : List Identifier) (place : Nat) (name : Identifier) : Prop :=
  names[place]? = some name ∧ ∀ earlier ∈ names.take place, earlier.same name = false

/-- As `FirstAt`, with further names in front. -/
def FirstBehind (front names : List Identifier) (place : Nat) (name : Identifier) : Prop :=
  names[place]? = some name ∧ ∀ earlier ∈ front ++ names.take place, earlier.same name = false

theorem firstBehind_succ {front : List Identifier} {first name : Identifier} :
    FirstBehind front (first :: names) (place + 1) name ↔ FirstBehind (front ++ [first]) names place name := by
  simp [FirstBehind]

theorem inOrder_filter_distinct (front names : List Identifier) : InOrder (FirstBehind front names)
    ((distinct names).filter fun name => !front.any (·.same name)) := by
  induction names generalizing front with
  | nil => exact .nil fun place name first => by simp [FirstBehind] at first
  | cons first names ih =>
    have others : InOrder (fun place => FirstBehind front (first :: names) (place + 1))
        (((distinct names).filter fun other => !first.same other).filter fun name => !front.any (·.same name)) := by
      have same : (((distinct names).filter fun other => !first.same other).filter
            fun name => !front.any (·.same name)) =
          (distinct names).filter fun name => !(front ++ [first]).any (·.same name) := by
        rw [List.filter_filter]
        refine List.filter_congr fun name _ => ?_
        simp
      rw [same]
      exact (ih (front ++ [first])).congr fun _ _ => firstBehind_succ.symm
    rw [distinct, List.filter_cons]
    split
    next fresh =>
      refine .cons ⟨rfl, fun earlier member => ?_⟩ others
      simp_all
    next known =>
      refine .behind (fun name ⟨here, fresh⟩ => known ?_) others
      obtain rfl : first = name := by simpa using here
      simpa using fresh

/-- The first of several names that are the same is kept. -/
theorem inOrder_distinct (names : List Identifier) : InOrder (FirstAt names) (distinct names) := by
  have all : (distinct names).filter (fun name => !([] : List Identifier).any (·.same name)) = distinct names :=
    List.filter_eq_self.mpr (by simp)
  exact all ▸ inOrder_filter_distinct [] names

/-! ## Exactness -/

/-- For all tokens: the references that are collected are the names that stand in them, exactly one for each place at
which a name stands, and in order, and the mentions are the leading identifiers of the references without those that
are the same as earlier ones. -/
theorem collected_exactly (tokens : List PlacedToken) :
    (∀ place, {reference | StandsAt tokens place reference}.Subsingleton) ∧
    InOrder (StandsAt tokens) (collect tokens) ∧
    InOrder (FirstAt ((collect tokens).map fun reference => reference.name.first)) (mentions tokens) :=
  ⟨fun _ _ first _ second => StandsFrom.unique first second, inOrder_collectFrom, inOrder_distinct _⟩

end VhdlOrder.References
