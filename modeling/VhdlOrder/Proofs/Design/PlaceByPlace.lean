import VhdlOrder.Stepwise.Reading

/-! # Reading by places stays within the tokens

Every place that a loop looks at lies in the list, because the loop has compared it with the length, and a piece
that is cut out ends where the loop stands. So the readers that go by places have an answer for every list of tokens,
whether its parentheses are balanced or not, and it is the one of the readers that take the list apart.
-/

namespace VhdlOrder.Stepwise

variable {tokens : List PlacedToken}

/-! ## Cutting -/

theorem take_findIdx {α : Type} (stops : α → Bool) (items : List α) :
    items.take (items.findIdx stops) = items.takeWhile fun item => !stops item := by
  simp [List.takeWhile_eq_take_findIdx_not]

theorem drop_findIdx {α : Type} (stops : α → Bool) (items : List α) :
    items.drop (items.findIdx stops) = items.dropWhile fun item => !stops item := by
  simp [List.dropWhile_eq_drop_findIdx_not]

theorem cut?_eq (token : Token) (tokens : List PlacedToken) :
    cut? token tokens =
      some ((Interface.behind? token tokens).map fun behind => (Interface.before token tokens, behind)) := by
  have before : Interface.before token tokens =
      tokens.take (tokens.findIdx fun other => other.value == token) := (take_findIdx _ tokens).symm
  have rest : (tokens.dropWhile fun other => other.value != token) =
      tokens.drop (tokens.findIdx fun other => other.value == token) := (drop_findIdx _ tokens).symm
  rw [cut?, Interface.behind?, rest, before]
  cases found : tokens.findIdx? fun other => other.value == token with
  | none =>
    rw [List.findIdx?_eq_none_iff_findIdx_eq] at found
    rw [found, List.drop_length]
    rfl
  | some place =>
    obtain ⟨inside, same⟩ := List.findIdx?_eq_some_iff_findIdx_eq.mp found
    simp only [same, List.drop_eq_getElem_cons inside, slice?_zero (Nat.le_of_lt inside), slice?_length inside]
    rfl

/-! ## References -/

/-- Behind a chain stand the tokens that are left when its points and identifiers are taken away. -/
theorem chain_snd (tokens : List PlacedToken) :
    (References.chain tokens).2 = tokens.drop (2 * (References.chain tokens).1.length) := by
  fun_induction References.chain tokens with
  | case1 dot next rest name _ _ names tail bound ih =>
    rw [bound] at ih
    simpa [Nat.mul_add] using ih
  | case2 => rfl
  | case3 => rfl

/-- The loop along the points of a name finds the chain. -/
theorem loop_chainRound (place : Nat) (parts : List Identifier) :
    loop (chainRound tokens) (tokens.length + 1) (place, parts) =
      some (place + 2 * (References.chain (tokens.drop place)).1.length,
        parts ++ (References.chain (tokens.drop place)).1) := by
  refine loop_eq (fun _ => True) (fun state => tokens.length - state.1)
    (fun (state : Nat × List Identifier) => (state.1 + 2 * (References.chain (tokens.drop state.1)).1.length,
      state.2 ++ (References.chain (tokens.drop state.1)).1)) ?_ trivial (by dsimp only; omega)
  rintro ⟨place, parts⟩ -
  by_cases inside : place + 1 < tokens.length
  · have here : place < tokens.length := Nat.lt_of_succ_lt inside
    have split : tokens.drop place = tokens[place] :: tokens[place + 1] :: tokens.drop (place + 2) := by
      rw [List.drop_eq_getElem_cons here, List.drop_eq_getElem_cons inside]
    rw [chainRound, if_pos inside, List.getElem?_eq_getElem here, List.getElem?_eq_getElem inside]
    simp only [split]
    by_cases isDot : tokens[place].value = .delimiter .dot
    · cases next : tokens[place + 1].value with
      | identifier name =>
        refine .inr ⟨(place + 2, parts ++ [name]), by simp [isDot, Token.isDelimiter, next], trivial, ?_, ?_⟩
        · simp [References.chain, isDot, next, Nat.mul_add]
          omega
        · dsimp only
          omega
      | _ => exact .inl (by simp [isDot, Token.isDelimiter, next, References.chain])
    · exact .inl (by simp [isDot, Token.isDelimiter, References.chain])
  · have short : ∀ dot next rest, tokens.drop place ≠ dot :: next :: rest := by
      intro dot next rest split
      have length := congrArg List.length split
      simp only [List.length_drop, List.length_cons] at length
      omega
    have none : References.chain (tokens.drop place) = ([], tokens.drop place) := by
      rw [References.chain]
      exact short
    exact .inl (by simp [chainRound, inside, none])

/-- A chain ends with an identifier. -/
theorem exists_identifier_at_end {first : PlacedToken} (begins : first.value.isIdentifier = true)
    (rest : List PlacedToken) :
    ∃ token, (first :: rest)[2 * (References.chain rest).1.length]? = some token ∧ token.value.isIdentifier = true := by
  fun_induction References.chain rest generalizing first with
  | case1 dot next rest name isName isDot names tail bound ih =>
    obtain ⟨token, found, isIdentifier⟩ := @ih next (by rw [isName]; rfl)
    rw [bound] at found
    refine ⟨token, ?_, isIdentifier⟩
    simpa [Nat.mul_add] using found
  | case2 => exact ⟨first, rfl, begins⟩
  | case3 => exact ⟨first, rfl, begins⟩

theorem exists_eq_identifier {token : Token} (named : token.isIdentifier = true) :
    ∃ name, token = .identifier name := by
  cases token with
  | identifier name => exact ⟨name, rfl⟩
  | comment | decimal | based | character | string | bitString | keyword | delimiter | endOfFile => cases named

/-- Whether a point or a tick stands before a place. -/
def isSelected (tokens : List PlacedToken) (place : Nat) : Bool :=
  decide (0 < place) && (tokens[place - 1]?).any fun token => References.selects token.value

theorem isSelected?_eq {place : Nat} (inside : place < tokens.length) :
    isSelected? tokens place = some (isSelected tokens place) := by
  unfold isSelected? isSelected
  by_cases behind : 0 < place
  · have there : place - 1 < tokens.length := by omega
    have before : tokens[place - 1]? = some tokens[place - 1] := List.getElem?_eq_getElem there
    simp [behind, subtract?_of_le (Nat.succ_le_of_lt behind), before]
  · simp [behind]

theorem isSelected_of_identifier {place : Nat} {token : PlacedToken} (found : tokens[place]? = some token)
    (isIdentifier : token.value.isIdentifier = true) : isSelected tokens (place + 1) = false := by
  obtain ⟨name, value⟩ := exists_eq_identifier isIdentifier
  simp [isSelected, found, value, References.selects, Token.isDelimiter]

/-- The place behind the name that begins with the identifier at a place. -/
def behindName (tokens : List PlacedToken) (place : Nat) : Nat :=
  place + 1 + 2 * (References.chain (tokens.drop (place + 1))).1.length

theorem isSelected_behindName {place : Nat} (inside : place < tokens.length)
    (named : tokens[place].value.isIdentifier = true) : isSelected tokens (behindName tokens place) = false := by
  obtain ⟨token, found, isIdentifier⟩ := exists_identifier_at_end named (tokens.drop (place + 1))
  rw [← List.drop_eq_getElem_cons inside, List.getElem?_drop] at found
  have last : place + 2 * (References.chain (tokens.drop (place + 1))).1.length + 1 = behindName tokens place := by
    unfold behindName
    omega
  exact last ▸ isSelected_of_identifier found isIdentifier

/-- A round at an identifier goes on behind the name, and adds the reference if there is one. -/
theorem collectRound_of_identifier {place : Nat} {name : Identifier} (inside : place < tokens.length)
    (value : tokens[place].value = .identifier name) (found : List Reference) :
    ∃ more, collectRound tokens (place, found) = some (.again (behindName tokens place, found ++ more)) ∧
      References.collectFrom (isSelected tokens place) (tokens.drop place) =
        more ++ References.collectFrom false (tokens.drop (behindName tokens place)) := by
  have tail : (References.chain (tokens.drop (place + 1))).2 = tokens.drop (behindName tokens place) := by
    rw [chain_snd, List.drop_drop, behindName]
  have head : (tokens.drop (behindName tokens place)).head? = tokens[behindName tokens place]? := List.head?_drop
  rw [collectRound, if_pos inside, List.getElem?_eq_getElem inside, List.drop_eq_getElem_cons inside,
    References.collectFrom]
  simp only [value, isSelected?_eq inside, loop_chainRound, Option.bind_eq_bind, Option.bind_some, List.nil_append,
    tail, head]
  rw [← behindName]
  split
  · exact ⟨[], by rw [List.append_nil]; rfl, rfl⟩
  · exact ⟨_, rfl, rfl⟩

/-- A round at another token goes on with the next one. -/
theorem collectRound_of_other {place : Nat} (inside : place < tokens.length)
    (other : tokens[place].value.isIdentifier = false) (found : List Reference) :
    collectRound tokens (place, found) = some (.again (place + 1, found)) ∧
      References.collectFrom (isSelected tokens place) (tokens.drop place) =
        References.collectFrom (isSelected tokens (place + 1)) (tokens.drop (place + 1)) := by
  have next : isSelected tokens (place + 1) = References.selects tokens[place].value := by
    simp [isSelected, inside]
  rw [collectRound, if_pos inside, List.getElem?_eq_getElem inside, List.drop_eq_getElem_cons inside,
    References.collectFrom, next]
  simp only [Option.bind_eq_bind, Option.bind_some]
  cases value : tokens[place].value with
  | identifier name =>
    rw [value] at other
    cases other
  | comment | decimal | based | character | string | bitString | keyword | delimiter | endOfFile => exact ⟨rfl, rfl⟩

theorem collect?_eq (tokens : List PlacedToken) : collect? tokens = some (References.collect tokens) := by
  refine (loop_eq (fun _ => True) (fun state => tokens.length - state.1)
    (fun (state : Nat × List Reference) =>
      state.2 ++ References.collectFrom (isSelected tokens state.1) (tokens.drop state.1)) ?_ trivial
    (by dsimp only; omega)).trans rfl
  rintro ⟨place, found⟩ -
  by_cases inside : place < tokens.length
  · by_cases named : tokens[place].value.isIdentifier = true
    · obtain ⟨name, value⟩ := exists_eq_identifier named
      obtain ⟨more, went, same⟩ := collectRound_of_identifier inside value found
      refine .inr ⟨_, went, trivial, ?_, ?_⟩
      · rw [same, isSelected_behindName inside named, List.append_assoc]
      · simp only [behindName]
        omega
    · obtain ⟨went, same⟩ := collectRound_of_other inside (Bool.not_eq_true _ ▸ named) found
      refine .inr ⟨_, went, trivial, by rw [same], ?_⟩
      dsimp only
      omega
  · refine .inl ?_
    simp [collectRound, inside, List.drop_eq_nil_of_le (Nat.le_of_not_lt inside), References.collectFrom]

/-- The parts of a name are never none at all. -/
theorem getElem?_parts_zero (name : SelectedName) : name.parts[0]? = some name.first := rfl

/-- Behind the first part of a name are the others, if there are any. -/
theorem slice?_parts_one (name : SelectedName) : slice? name.parts 1 name.parts.length = some name.suffix :=
  slice?_length (Nat.le_add_left 1 _)

theorem mentions?_eq (tokens : List PlacedToken) : mentions? tokens = some (References.mentions tokens) := by
  rw [mentions?, collect?_eq]
  simp only [Option.bind_eq_bind, Option.bind_some]
  rw [mapM_eq_map fun reference _ => getElem?_parts_zero reference.name]
  rfl

/-! ## Statements -/

theorem objects?_eq (position : Position) (word : Keyword) (tokens : List PlacedToken) :
    objects? position word tokens = some (SimpleDeclaration.objects position word tokens) := by
  rw [objects?, SimpleDeclaration.objects, cut?_eq]
  cases found : Interface.behind? (.delimiter .colon) tokens with
  | none => rfl
  | some behind =>
    simp only [Option.map_some, Option.bind_eq_bind, Option.bind_some, collect?_eq]
    cases Interface.identifiers (Interface.before (.delimiter .colon) tokens) <;> rfl

theorem attributeValue?_eq (specification : List PlacedToken) :
    attributeValue? specification =
      some (References.collect ((Interface.behind? (.keyword .is) specification).getD [])) := by
  rw [attributeValue?, cut?_eq]
  cases Interface.behind? (.keyword .is) specification with
  | none => simp [References.collect, References.collectFrom]
  | some behind => exact collect?_eq behind

theorem recordElement?_eq (tokens : List PlacedToken) :
    recordElement? tokens =
      some (References.collect (tokens.dropWhile fun token => !token.value.isDelimiter .colon)) := by
  rw [recordElement?, ← drop_findIdx, ← List.findIdx_eq_getD_findIdx?, slice?_length List.findIdx_le_length]
  exact collect?_eq _

/-! ## Interface lists -/

theorem behind?_cons_of_ne {token : Token} {first : PlacedToken} (other : first.value ≠ token)
    (rest : List PlacedToken) : Interface.behind? token (first :: rest) = Interface.behind? token rest := by
  rw [Interface.behind?, List.dropWhile_cons_of_pos (by simpa using other)]
  rfl

theorem objectElement?_eq (first : PlacedToken) (tokens : List PlacedToken) :
    objectElement? first tokens = some (match Interface.behind? (.delimiter .colon) tokens with
      | none => .error (.expecting first.position .interfaceColon (some first.value))
      | some behind => .ok ((Interface.identifiers (Interface.before (.delimiter .colon) tokens)).map
          fun name => .withReferences name .interface (References.collect behind))) := by
  rw [objectElement?, cut?_eq]
  cases Interface.behind? (.delimiter .colon) tokens with
  | none => rfl
  | some behind =>
    simp only [Option.map_some, Option.bind_eq_bind, Option.bind_some, collect?_eq]
    rfl

theorem element?_eq (tokens : List PlacedToken) : element? tokens = some (Interface.element tokens) := by
  cases tokens with
  | nil => rfl
  | cons first rest =>
    have package (same : first.value = .keyword .package) :
        element? (first :: rest) = some (Interface.element (first :: rest)) := by
      have other : first.value ≠ .keyword .new := same ▸ nofun
      simp only [element?, Interface.element, same, cut?_eq, behind?_cons_of_ne other]
      cases Interface.behind? (.keyword .new) rest with
      | none => rfl
      | some behind =>
        simp only [Option.map_some, Option.bind_eq_bind, Option.bind_some, collect?_eq]
        rfl
    cases value : first.value with
    | keyword word =>
      cases word
      case package => exact package value
      all_goals simp only [element?, Interface.element, value, objectElement?_eq] <;> rfl
    | _ => simp only [element?, Interface.element, value, objectElement?_eq] <;> rfl

theorem parensAfter_of_ne {token : Token} (depth : Nat) (isLeft : token ≠ .delimiter .leftParen)
    (isRight : token ≠ .delimiter .rightParen) : Parser.parensAfter depth token = depth := by
  unfold Parser.parensAfter
  split
  · exact absurd rfl isLeft
  · exact absurd rfl isRight
  · rfl

/-- A parenthesis that closes the list is told from one that closes an inner parenthesis by the count, so nothing is
taken from a count of none. -/
theorem listFrom?_eq (depth : Nat) (current tokens : List PlacedToken) :
    listFrom? depth current tokens = some (Interface.parseFrom depth current tokens) := by
  induction tokens generalizing depth current with
  | nil => rfl
  | cons token rest ih =>
    rw [listFrom?, Interface.parseFrom]
    by_cases ended : token.value = .endOfFile
    · rw [if_pos ended, if_pos ended]
    rw [if_neg ended, if_neg ended]
    by_cases closes : (depth = 0 && token.value = .delimiter .rightParen) = true
    · rw [if_pos closes, if_pos closes, element?_eq]
      cases Interface.element current.reverse <;> rfl
    rw [if_neg closes, if_neg closes]
    by_cases separates : (depth = 0 && token.value = .delimiter .semicolon) = true
    · rw [if_pos separates, if_pos separates, element?_eq]
      cases Interface.element current.reverse with
      | error fault => rfl
      | ok declarations =>
        simp only [Option.bind_eq_bind, Option.bind_some, ih]
        cases Interface.parseFrom 0 [] rest <;> rfl
    rw [if_neg separates, if_neg separates]
    by_cases opens : token.value = .delimiter .leftParen
    · rw [if_pos opens, ih, opens]
      rfl
    rw [if_neg opens]
    by_cases inner : token.value = .delimiter .rightParen
    · have counted : 0 < depth := by
        rw [inner] at closes
        simpa [Nat.pos_iff_ne_zero] using closes
      rw [if_pos inner, subtract?_of_le counted, inner]
      exact ih _ _
    · rw [if_neg inner, parensAfter_of_ne depth opens inner]
      exact ih _ _

/-! ## Subprogram headers -/

theorem elements_of_error {first : List PlacedToken} {fault : SyntaxFault}
    (failed : Interface.element first = .error fault) (others : List (List PlacedToken)) : Interface.elements (first :: others) = .error fault := by
  rw [Interface.elements, failed]

theorem elements_of_ok {first : List PlacedToken} {declarations : List Declaration}
    (read : Interface.element first = .ok declarations) (others : List (List PlacedToken)) :
    Interface.elements (first :: others) = (Interface.elements others).map (declarations ++ ·) := by
  rw [Interface.elements, read]
  cases Interface.elements others <;> rfl

theorem elements_singleton (first : List PlacedToken) : Interface.elements [first] = Interface.element first := by
  cases read : Interface.element first with
  | error fault => exact elements_of_error read []
  | ok declarations =>
    rw [elements_of_ok read]
    exact congrArg Except.ok (List.append_nil _)

theorem map_append_map_append {ε : Type} (first second : List Declaration) (result : Except ε (List Declaration)) :
    (result.map (second ++ ·)).map (first ++ ·) = result.map (first ++ second ++ ·) := by
  cases result with
  | error => rfl
  | ok => exact congrArg Except.ok (List.append_assoc ..).symm

/-- The piece up to a place grows by the token there. -/
theorem drop_take_succ {first place : Nat} (ordered : first ≤ place) (inside : place < tokens.length) :
    (tokens.take (place + 1)).drop first = (tokens.take place).drop first ++ [tokens[place]] := by
  rw [List.take_succ_eq_append_getElem inside, List.drop_append_of_le_length]
  rw [List.length_take]
  omega

/-- What is left of a header between parentheses, taken apart from a place on. -/
def ParameterPlace.split (header : List PlacedToken) (state : ParameterPlace) :
    List (List PlacedToken) × List PlacedToken :=
  Interface.split state.depth ((header.take state.place).drop state.first).reverse (header.drop state.place)

/-- The loop that has begun at `start` stands at a place in the header, and what it has found is what comes before
the elements from there on. -/
structure ParameterPlace.Reads (header : List PlacedToken) (start : Nat) (state : ParameterPlace) : Prop where
  ordered : state.first ≤ state.place
  begun : start ≤ state.place
  inside : state.place ≤ header.length
  tail : (state.split header).2 = (Interface.split 0 [] (header.drop start)).2
  found : (Interface.elements (state.split header).1).map (state.found ++ ·) =
    Interface.elements (Interface.split 0 [] (header.drop start)).1

/-- The loop that has begun at `start` has read all elements but the last one, or has met the first fault. -/
def ParameterPlace.Ends (header : List PlacedToken) (start : Nat) : Except SyntaxFault ParameterPlace → Prop
  | .error fault => Interface.elements (Interface.split 0 [] (header.drop start)).1 = .error fault
  | .ok state => state.first ≤ state.place ∧ start ≤ state.place ∧ state.place ≤ header.length ∧
      (Interface.split 0 [] (header.drop start)).2 = header.drop (state.place + 1) ∧
      (Interface.element ((header.take state.place).drop state.first)).map (state.found ++ ·) =
        Interface.elements (Interface.split 0 [] (header.drop start)).1

section Parameters

variable {header : List PlacedToken} {start : Nat} {state : ParameterPlace}

theorem ParameterPlace.reads_start (inside : start ≤ header.length) :
    ParameterPlace.Reads header start ⟨start, 0, start, []⟩ := by
  have split : ParameterPlace.split header ⟨start, 0, start, []⟩ = Interface.split 0 [] (header.drop start) := by
    rw [ParameterPlace.split, List.drop_take_self]
    rfl
  refine ⟨Nat.le_refl _, Nat.le_refl _, inside, by rw [split], ?_⟩
  rw [split]
  cases Interface.elements (Interface.split 0 [] (header.drop start)).1 <;> rfl

theorem ParameterPlace.split_of_lt (inside : state.place < header.length) : state.split header =
    Interface.split state.depth ((header.take state.place).drop state.first).reverse
      (header[state.place] :: header.drop (state.place + 1)) := by
  rw [ParameterPlace.split, List.drop_eq_getElem_cons inside]

/-- A token inside an element is passed. -/
theorem ParameterPlace.Reads.pass (reads : state.Reads header start) (inside : state.place < header.length)
    (closes : ¬(state.depth = 0 && header[state.place].value = .delimiter .rightParen) = true)
    (separates : ¬(state.depth = 0 && header[state.place].value = .delimiter .semicolon) = true) :
    ParameterPlace.Reads header start ⟨state.place + 1, Parser.parensAfter state.depth header[state.place].value,
      state.first, state.found⟩ := by
  have same : ParameterPlace.split header ⟨state.place + 1,
      Parser.parensAfter state.depth header[state.place].value, state.first, state.found⟩ = state.split header := by
    rw [ParameterPlace.split_of_lt inside, Interface.split, if_neg closes, if_neg separates, ParameterPlace.split,
      drop_take_succ reads.ordered inside, List.reverse_append]
    rfl
  exact ⟨Nat.le_succ_of_le reads.ordered, Nat.le_succ_of_le reads.begun, inside, same ▸ reads.tail, same ▸ reads.found⟩

/-- An element ends at a semicolon, and the next one begins behind it. -/
theorem ParameterPlace.split_of_separates (inside : state.place < header.length)
    (separates : (state.depth = 0 && header[state.place].value = .delimiter .semicolon) = true)
    (found : List Declaration) :
    state.split header = (((header.take state.place).drop state.first) ::
      (ParameterPlace.split header ⟨state.place + 1, 0, state.place + 1, found⟩).1,
      (ParameterPlace.split header ⟨state.place + 1, 0, state.place + 1, found⟩).2) := by
  obtain ⟨none, isSemicolon⟩ : state.depth = 0 ∧ header[state.place].value = .delimiter .semicolon := by
    simpa using separates
  have closes : ¬(state.depth = 0 && header[state.place].value = .delimiter .rightParen) = true := by
    simp [isSemicolon]
  rw [ParameterPlace.split_of_lt inside, Interface.split, if_neg closes, if_pos separates, List.reverse_reverse,
    ParameterPlace.split, List.drop_take_self]
  rfl

theorem ParameterPlace.Reads.elements_of_separates (reads : state.Reads header start)
    (inside : state.place < header.length)
    (separates : (state.depth = 0 && header[state.place].value = .delimiter .semicolon) = true) :
    (∃ fault, Interface.element ((header.take state.place).drop state.first) = .error fault ∧
        ParameterPlace.Ends header start (.error fault)) ∨
      ∃ more, Interface.element ((header.take state.place).drop state.first) = .ok more ∧
        ParameterPlace.Reads header start ⟨state.place + 1, 0, state.place + 1, state.found ++ more⟩ := by
  have found := reads.found
  cases read : Interface.element ((header.take state.place).drop state.first) with
  | error fault =>
    rw [ParameterPlace.split_of_separates inside separates [], elements_of_error read] at found
    exact .inl ⟨fault, rfl, found.symm⟩
  | ok more =>
    rw [ParameterPlace.split_of_separates inside separates (state.found ++ more), elements_of_ok read,
      map_append_map_append] at found
    have tail := reads.tail
    rw [ParameterPlace.split_of_separates inside separates (state.found ++ more)] at tail
    exact .inr ⟨more, rfl, Nat.le_refl _, Nat.le_succ_of_le reads.begun, inside, tail, found⟩

/-- The last element ends at the parenthesis that closes the list, or with the header. -/
theorem ParameterPlace.Reads.ends (reads : state.Reads header start)
    (last : state.split header = ([(header.take state.place).drop state.first], header.drop (state.place + 1))) :
    ParameterPlace.Ends header start (.ok state) := by
  have found := reads.found
  have tail := reads.tail
  rw [last, elements_singleton] at found
  rw [last] at tail
  exact ⟨reads.ordered, reads.begun, reads.inside, tail.symm, found⟩

theorem ParameterPlace.Reads.round (reads : state.Reads header start) :
    (∃ answer, parameterRound header state = some (.done answer) ∧ ParameterPlace.Ends header start answer) ∨
      ∃ next, parameterRound header state = some (.again next) ∧ next.Reads header start ∧
        header.length - next.place < header.length - state.place := by
  rw [parameterRound]
  by_cases beyond : header.length ≤ state.place
  · rw [if_neg (Nat.not_lt_of_le beyond)]
    refine .inl ⟨_, rfl, reads.ends ?_⟩
    rw [ParameterPlace.split, List.drop_eq_nil_of_le beyond, List.drop_eq_nil_of_le (Nat.le_succ_of_le beyond),
      Interface.split, List.reverse_reverse]
  have inside : state.place < header.length := Nat.lt_of_not_le beyond
  have further : header.length - (state.place + 1) < header.length - state.place := by omega
  rw [if_pos inside, List.getElem?_eq_getElem inside]
  simp only [Option.bind_eq_bind, Option.bind_some]
  by_cases opens : header[state.place].value = .delimiter .leftParen
  · have passed := reads.pass inside (by simp [opens]) (by simp [opens])
    rw [opens] at passed
    exact .inr ⟨_, by rw [if_pos opens]; rfl, passed, further⟩
  rw [if_neg opens]
  by_cases isRight : header[state.place].value = .delimiter .rightParen
  · rw [if_pos isRight]
    by_cases none : state.depth = 0
    · rw [if_pos none]
      refine .inl ⟨_, rfl, reads.ends ?_⟩
      rw [ParameterPlace.split_of_lt inside, Interface.split, if_pos (by simp [none, isRight]), List.reverse_reverse]
    · have passed := reads.pass inside (by simp [none]) (by simp [none])
      rw [isRight] at passed
      refine .inr ⟨_, ?_, passed, further⟩
      rw [if_neg none, subtract?_of_le (Nat.pos_of_ne_zero none)]
      rfl
  rw [if_neg isRight]
  by_cases separates : (state.depth = 0 && header[state.place].value = .delimiter .semicolon) = true
  · have none : state.depth = 0 := by simpa using And.left (by simpa using separates)
    rw [if_pos separates, slice?_of_le reads.ordered reads.inside]
    simp only [Option.bind_some, element?_eq]
    rcases reads.elements_of_separates inside separates with ⟨fault, failed, ended⟩ | ⟨more, read, next⟩
    · exact .inl ⟨_, by rw [failed]; rfl, ended⟩
    · exact .inr ⟨_, by rw [read, none]; rfl, next, further⟩
  · rw [if_neg separates]
    have passed := reads.pass inside (by simp [isRight]) separates
    rw [parensAfter_of_ne state.depth opens isRight] at passed
    exact .inr ⟨_, rfl, passed, further⟩

/-- Between parentheses the elements are read up to the first fault, and the loop ends behind the parentheses. -/
theorem parameters?_cases (inside : start ≤ header.length) :
    (∃ fault, parameters? header start = some (.error fault) ∧
        Interface.elements (Interface.split 0 [] (header.drop start)).1 = .error fault) ∨
      ∃ more behind, parameters? header start = some (.ok (more, behind)) ∧ start < behind ∧
        Interface.elements (Interface.split 0 [] (header.drop start)).1 = .ok more ∧
        (Interface.split 0 [] (header.drop start)).2 = header.drop behind := by
  obtain ⟨answer, ran, ended⟩ := exists_loop (ParameterPlace.Reads header start)
    (fun state => header.length - state.place) (ParameterPlace.Ends header start) (fun _ reads => reads.round)
    (ParameterPlace.reads_start inside)
    (Nat.lt_succ_of_le (Nat.sub_le header.length start) : header.length - start < header.length + 1)
  rw [parameters?, ran]
  cases answer with
  | error fault => exact .inl ⟨fault, rfl, ended⟩
  | ok state =>
    obtain ⟨ordered, begun, within, tail, found⟩ := ended
    have last : min state.place header.length = state.place := Nat.min_eq_left within
    simp only [Option.bind_eq_bind, Option.bind_some, last, slice?_of_le ordered within, element?_eq]
    cases read : Interface.element ((header.take state.place).drop state.first) with
    | error fault =>
      rw [read] at found
      exact .inl ⟨fault, rfl, found.symm⟩
    | ok more =>
      rw [read] at found
      exact .inr ⟨_, _, rfl, Nat.lt_succ_of_le begun, found.symm, tail⟩

end Parameters

theorem elements_append (first second : List (List PlacedToken)) :
    Interface.elements (first ++ second) = match Interface.elements first with
      | .error fault => .error fault
      | .ok found => (Interface.elements second).map (found ++ ·) := by
  induction first with
  | nil =>
    rw [List.nil_append, Interface.elements]
    cases Interface.elements second <;> rfl
  | cons group rest ih =>
    rw [List.cons_append]
    cases read : Interface.element group with
    | error fault => rw [elements_of_error read, elements_of_error read]
    | ok declarations =>
      rw [elements_of_ok read, elements_of_ok read, ih]
      cases Interface.elements rest with
      | error => rfl
      | ok found => exact map_append_map_append ..

/-- What the header declares and refers to from a place on, behind what was found before. -/
def headerFrom (header : List PlacedToken) (state : Nat × List Declaration) :
    Except SyntaxFault (List Declaration × List Reference) :=
  (Interface.elements (Interface.headerParts (header.drop state.1)).1).map fun more =>
    (state.2 ++ more, References.collect (Interface.headerParts (header.drop state.1)).2)

theorem headerRound_cases (header : List PlacedToken) (state : Nat × List Declaration) :
    headerRound header state = some (.done (headerFrom header state)) ∨
      ∃ next, headerRound header state = some (.again next) ∧ headerFrom header next = headerFrom header state ∧
        header.length - next.1 < header.length - state.1 := by
  obtain ⟨place, parameters⟩ := state
  rw [headerRound]
  by_cases beyond : header.length ≤ place
  · rw [if_neg (Nat.not_lt_of_le beyond), headerFrom, List.drop_eq_nil_of_le beyond, Interface.headerParts]
    left
    simp [Interface.elements, References.collect, References.collectFrom, Except.map]
  have inside : place < header.length := Nat.lt_of_not_le beyond
  have split : header.drop place = header[place] :: header.drop (place + 1) := List.drop_eq_getElem_cons inside
  rw [if_pos inside, List.getElem?_eq_getElem inside, headerFrom]
  simp only [Option.bind_eq_bind, Option.bind_some, split]
  rw [Interface.headerParts]
  by_cases opens : header[place].value = .delimiter .leftParen
  · rw [if_pos opens, if_pos opens, elements_append]
    rcases parameters?_cases (Nat.succ_le_of_lt inside) with
      ⟨fault, failed, same⟩ | ⟨more, behind, read, later, same, tail⟩
    · left
      rw [failed, same]
      rfl
    · refine .inr ⟨(behind, parameters ++ more), by rw [read]; rfl, ?_, by dsimp only; omega⟩
      rw [headerFrom, same, tail]
      cases Interface.elements (Interface.headerParts (header.drop behind)).1 with
      | error => rfl
      | ok => simp [Except.map]
  rw [if_neg opens, if_neg opens]
  by_cases returns : header[place].value = .keyword .return
  · rw [if_pos returns, if_pos returns, slice?_length (Nat.succ_le_of_lt inside)]
    left
    simp [collect?_eq, Interface.elements, Except.map]
  · rw [if_neg returns, if_neg returns]
    exact .inr ⟨(place + 1, parameters), rfl, rfl, by dsimp only; omega⟩

theorem header?_eq (header : List PlacedToken) : header? header = some (Interface.header header) := by
  have ran : loop (headerRound header) (header.length + 1) (0, []) = some (headerFrom header (0, [])) := by
    refine loop_eq (fun _ => True) (fun state => header.length - state.1) (headerFrom header) (fun state _ => ?_)
      trivial (by dsimp only; omega)
    rcases headerRound_cases header state with ended | ⟨next, went, same, less⟩
    · exact .inl ended
    · exact .inr ⟨next, went, trivial, same, less⟩
  rw [header?, ran, headerFrom, List.drop_zero, Interface.header]
  obtain ⟨groups, result⟩ := Interface.headerParts header
  dsimp only
  cases Interface.elements groups <;> rfl

-- a parenthesis that nothing has opened is passed, and one that nothing closes holds no elements
example : header? ([.delimiter .rightParen, .delimiter .leftParen].map fun mark => ⟨.start, mark⟩) =
    some (.ok ([], [])) := rfl

/-! ## Pragmas -/

theorem splitBefore?_eq (stops : Char → Bool) (text : List Char) :
    splitBefore? stops text = some (text.takeWhile fun c => !stops c, text.dropWhile fun c => !stops c) := by
  rw [splitBefore?, ← List.findIdx_eq_getD_findIdx?, slice?_zero List.findIdx_le_length,
    slice?_length List.findIdx_le_length, take_findIdx, drop_findIdx]
  rfl

/-- Behind the first separator of a name is where it is cut. -/
theorem target?_eq (word : String) (text : List Char) : target? word text = some (Pragma.readTarget word text) := by
  rw [target?, Pragma.readTarget]
  by_cases blankMissing : (text.head?.any fun c => !Latin.isSeparator c) = true
  · rw [if_pos blankMissing, if_pos blankMissing]
  rw [if_neg blankMissing, if_neg blankMissing]
  generalize Text.strip Latin.isSeparator text = name
  by_cases nameMissing : name.isEmpty = true
  · rw [if_pos nameMissing, if_pos nameMissing]
  rw [if_neg nameMissing, if_neg nameMissing, ← drop_findIdx]
  cases found : name.findIdx? Latin.isSeparator with
  | none =>
    rw [List.findIdx?_eq_none_iff_findIdx_eq.mp found, List.drop_length]
    simp only [List.isEmpty_nil, Bool.not_true, Bool.false_eq_true, if_false]
    cases SelectedName.readList name <;> rfl
  | some place =>
    obtain ⟨inside, same⟩ := List.findIdx?_eq_some_iff_findIdx_eq.mp found
    have more : (!(name.drop place).isEmpty) = true := by simpa using inside
    simp only [same, slice?_length (Nat.le_of_lt inside), if_pos more]
    rfl

theorem pragma?_eq (text : String) (position : Position) (directive : String) :
    pragma? text position directive = some (Pragma.ofComment text position directive) := by
  rw [pragma?, Pragma.ofComment]
  cases text.toList.dropWhile Latin.isSeparator with
  | nil => rfl
  | cons mark rest =>
    by_cases isMark : mark = '@'
    · subst isMark
      simp only [if_true, splitBefore?_eq, Bool.not_not, Option.bind_eq_bind, Option.bind_some, target?_eq]
      generalize rest.dropWhile Latin.isSeparator = rest
      generalize String.ofList (rest.takeWhile Pragma.isDirectiveCharacter) = word
      by_cases wordMissing : word.isEmpty = true
      · rw [if_pos wordMissing, if_pos wordMissing]
        rfl
      rw [if_neg wordMissing, if_neg wordMissing]
      by_cases known : Text.equalIgnoringAsciiCase word directive = true
      · rw [if_pos known, if_pos known]
        cases Pragma.readTarget word (rest.dropWhile Pragma.isDirectiveCharacter) <;> rfl
      · rw [if_neg known, if_neg known]
        rfl
    · simp only [if_neg isMark]
      split
      · exact absurd (List.cons.inj ‹_›).1 isMark
      · rfl

theorem pragmas?_eq (tokens : List PlacedToken) (directive : String) :
    pragmas? tokens directive = some (Pragma.scan tokens directive) := by
  refine filterMap?_eq fun token _ => ?_
  cases token.value with
  | comment note =>
    cases note with
    | line text =>
      simp only [pragma?_eq, Option.bind_eq_bind, Option.bind_some]
      rcases Pragma.ofComment text token.position directive with fault | _ | pragma <;> rfl
    | delimited text => rfl
  | _ => rfl

end VhdlOrder.Stepwise
