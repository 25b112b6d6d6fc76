import Mathlib.Data.List.Forall2
import Mathlib.Logic.Function.Basic
import VhdlOrder.Proofs.Lexical.Lexing
import VhdlOrder.Proofs.Name.Respelling

/-! # Tokens spelled in another way

Tokens are the same if they are equal except for the spelling of identifiers. An identifier that is read from a
text begins with a letter or is extended, so it is never mistaken for an operator symbol or a character literal,
and there is a respelling that gives the same tokens of texts one spelling.
-/

namespace VhdlOrder

/-! ## Tokens -/

/-- The token with another spelling if it is an identifier. -/
def Token.respell (f : Respelling) : Token → Token
  | .identifier name => .identifier (f name)
  | token => token

/-- The token at its place, spelled in another way. -/
def PlacedToken.respell (f : Respelling) (token : PlacedToken) : PlacedToken := ⟨token.position, token.value.respell f⟩

section

variable (f : Respelling) (token : Token) (placed : PlacedToken)

@[simp] theorem PlacedToken.position_respell : (PlacedToken.respell f placed).position = placed.position := rfl

@[simp] theorem PlacedToken.value_respell : (PlacedToken.respell f placed).value = placed.value.respell f := rfl

theorem PlacedToken.identifier_or_ordinary :
    (∃ position name, placed = ⟨position, .identifier name⟩) ∨ ∀ name, placed.value = .identifier name → False := by
  obtain ⟨position, value⟩ := placed
  cases value with
  | identifier name => exact .inl ⟨position, name, rfl⟩
  | _ => exact .inr fun name same => by cases same

/-- A token that is no identifier has one spelling. -/
theorem PlacedToken.respell_ordinary {placed : PlacedToken}
    (ordinary : ∀ name, placed.value = .identifier name → False) :
    PlacedToken.respell f placed = placed := by
  obtain ⟨position, value⟩ := placed
  cases value with
  | identifier name => exact (ordinary name rfl).elim
  | _ => rfl

namespace Token

/-- Only identifiers are spelled in another way. -/
theorem respell_eq_iff {other : Token} (ordinary : other.isIdentifier = false) :
    token.respell f = other ↔ token = other := by
  cases token with
  | identifier name =>
    constructor <;> rintro rfl <;> cases ordinary
  | _ => rfl

@[simp] theorem respell_eq_keyword (word : Keyword) : token.respell f = .keyword word ↔ token = .keyword word :=
  respell_eq_iff f token rfl

@[simp] theorem respell_eq_delimiter (mark : Delimiter) : token.respell f = .delimiter mark ↔ token = .delimiter mark :=
  respell_eq_iff f token rfl

@[simp] theorem respell_eq_endOfFile : token.respell f = .endOfFile ↔ token = .endOfFile :=
  respell_eq_iff f token rfl

@[simp] theorem isDelimiter_respell (mark : Delimiter) :
    (token.respell f).isDelimiter mark = token.isDelimiter mark := by
  cases token <;> rfl

@[simp] theorem isKeyword_respell (word : Keyword) : (token.respell f).isKeyword word = token.isKeyword word := by
  cases token <;> rfl

@[simp] theorem keyword?_respell : (token.respell f).keyword? = token.keyword? := by
  cases token <;> rfl

@[simp] theorem identifier?_respell : (token.respell f).identifier? = token.identifier?.map f := by
  cases token <;> rfl

@[simp] theorem isIdentifier_respell : (token.respell f).isIdentifier = token.isIdentifier := by
  cases token <;> rfl

@[simp] theorem isComment_respell : (token.respell f).isComment = token.isComment := by
  cases token <;> rfl

end Token

theorem withoutComments_map (tokens : List PlacedToken) :
    withoutComments (tokens.map (PlacedToken.respell f)) = (withoutComments tokens).map (PlacedToken.respell f) := by
  simp [withoutComments, List.filter_map, Function.comp_def]

end

/-! ## Identifiers of a text -/

/-- Whether the identifier is an operator symbol or a character literal. -/
def Identifier.isQuoted : Identifier → Bool
  | .basic text => text.toList.head? == some '\x22' || text.toList.head? == some '\x27'
  | .extended _ => false

namespace Scanner

variable {ticks : Bool} {first : Char} {cursor later : Cursor} {value : Token}

theorem identifier?_of_delimiterOf {text : List Char} (scanned : delimiterOf text cursor = .ok value later) :
    value.identifier? = none := by
  obtain ⟨mark, middle, -, answered⟩ := bind_eq_ok_iff.mp scanned
  cases answered
  rfl

theorem identifier?_of_delimiter (scanned : delimiter first cursor = .ok value later) : value.identifier? = none := by
  obtain ⟨second, middle, -, scanned⟩ := bind_eq_ok_iff.mp scanned
  cases second with
  | none => exact identifier?_of_delimiterOf scanned
  | some second =>
    obtain ⟨third, middle, -, scanned⟩ := bind_eq_ok_iff.mp scanned
    cases third <;> exact identifier?_of_delimiterOf scanned

theorem identifier?_of_string (scanned : string cursor = .ok value later) : value.identifier? = none := by
  obtain ⟨text, middle, -, answered⟩ := bind_eq_ok_iff.mp scanned
  cases answered
  rfl

theorem identifier?_of_character (scanned : character cursor = .ok value later) : value.identifier? = none := by
  obtain ⟨read, middle, -, scanned⟩ := bind_eq_ok_iff.mp scanned
  cases read with
  | none => cases scanned
  | some c =>
    dsimp only at scanned
    split at scanned
    · cases scanned
    · obtain ⟨read, middle, -, scanned⟩ := bind_eq_ok_iff.mp scanned
      cases read with
      | none => cases scanned
      | some quote =>
        dsimp only at scanned
        split at scanned
        · cases scanned
          rfl
        · cases scanned

/-- A token that begins with a quote is no identifier. -/
theorem identifier?_of_quote (quote : first = '\x22' ∨ first = '\x27')
    (scanned : token ticks first cursor = .ok value later) : value.identifier? = none := by
  rcases quote with rfl | rfl
  · exact identifier?_of_string scanned
  · cases ticks with
    | false => exact identifier?_of_character scanned
    | true => exact identifier?_of_delimiter scanned

theorem isQuoted_of_token {name : Identifier} (scanned : token ticks first cursor = .ok (.identifier name) later) :
    name.isQuoted = false := by
  cases name with
  | extended text => rfl
  | basic text =>
    have online : ∃ middle, tokenOnLine ticks first cursor = .ok (.identifier (.basic text)) middle := by
      obtain same | ⟨_, middle, after, online, whole, -⟩ := Lexer.token_or_tokenOnLine ticks first cursor
      · exact ⟨later, same.symm.trans scanned⟩
      · cases whole.symm.trans scanned
        exact ⟨middle, online⟩
    obtain ⟨middle, online⟩ := online
    obtain ⟨more, spelled, -, -⟩ := reads_tokenOnLine ticks first _ _ _ online
    have begins : text.toList = first :: more := spelled.symm
    have unquoted (quote : Char) (isQuote : quote = '\x22' ∨ quote = '\x27') : first ≠ quote := by
      rintro rfl
      cases identifier?_of_quote isQuote scanned
    simp [Identifier.isQuoted, begins, unquoted '\x22' (.inl rfl), unquoted '\x27' (.inr rfl)]

end Scanner

namespace Lexer

theorem isQuoted_of_mem_itemsFrom (ticks : Bool) (cursor : Cursor) :
    ∀ item ∈ itemsFrom ticks cursor, ∀ name, item.value = .ok (.identifier name) → name.isQuoted = false := by
  fun_induction itemsFrom ticks cursor with
  | case1 => exact List.forall_mem_singleton.mpr fun name same => by cases same
  | case2 ticks cursor c rest opened longer inside separator =>
    rename_i ih
    exact ih
  | case3 ticks cursor c rest opened longer inside begins value later scanned bound =>
    rename_i ih
    refine List.forall_mem_cons.mpr ⟨fun name same => ?_, ih⟩
    cases same
    exact Scanner.isQuoted_of_token scanned
  | case4 ticks cursor c rest opened longer inside begins fault later scanned bound =>
    rename_i ih
    refine List.forall_mem_cons.mpr ⟨fun name same => ?_, ih⟩
    cases same

theorem exists_item_of_mem_untilFault {items : List Item} {token : PlacedToken} (member : token ∈ (untilFault items).1)
    (ordinary : token.value ≠ .endOfFile) : ∃ item ∈ items, item.value = .ok token.value := by
  induction items with
  | nil => exact absurd member List.not_mem_nil
  | cons item rest ih =>
    obtain ⟨position, value | value⟩ := item
    · obtain rfl := List.mem_singleton.mp member
      exact absurd rfl ordinary
    · rcases List.mem_cons.mp member with rfl | later
      · exact ⟨_, List.mem_cons_self, rfl⟩
      · obtain ⟨other, present, same⟩ := ih later
        exact ⟨other, List.mem_cons_of_mem _ present, same⟩

/-- No identifier of a text is taken for what stands between quotes. -/
theorem isQuoted_of_mem_readUntilFault {text : String} {token : PlacedToken} {name : Identifier}
    (member : token ∈ (readUntilFault text).1) (isName : token.value = .identifier name) : name.isQuoted = false := by
  have ordinary : token.value ≠ .endOfFile := by
    rw [isName]
    rintro ⟨⟩
  obtain ⟨item, present, same⟩ := exists_item_of_mem_untilFault member ordinary
  exact isQuoted_of_mem_itemsFrom _ _ item present name (isName ▸ same)

end Lexer

/-! ## The same tokens -/

/-- Whether the tokens are equal or identifiers that name the same thing. -/
def Token.same : Token → Token → Bool
  | .identifier first, .identifier second => first.same second
  | first, second => first == second

namespace Respelling

/-- One spelling for all identifiers that name the same thing. -/
noncomputable def canonical : Respelling where
  spell name := if name.isQuoted then name else Function.invFun Identifier.key name.key
  key_spell name := by
    by_cases quoted : name.isQuoted = true
    · rw [if_pos quoted]
    · rw [if_neg quoted]
      exact Function.invFun_eq ⟨name, rfl⟩
  spell_string text := if_pos (by simp [Token.render, Identifier.isQuoted])
  spell_character c := if_pos (by simp [Token.render, Identifier.isQuoted])

theorem canonical_congr {first second : Identifier} (plain : first.isQuoted = false) (plain' : second.isQuoted = false)
    (same : first.same second = true) : canonical first = canonical second := by
  change (if first.isQuoted then first else _) = if second.isQuoted then second else _
  rw [plain, plain', Identifier.same_iff.mp same]
  rfl

end Respelling

/-- Tokens that are the same have one canonical spelling, if none is taken for what stands between quotes. -/
theorem Token.respell_canonical_congr {first second : Token} (same : first.same second = true)
    (plain : ∀ name, first = .identifier name → name.isQuoted = false)
    (plain' : ∀ name, second = .identifier name → name.isQuoted = false) :
    first.respell .canonical = second.respell .canonical := by
  cases first with
  | identifier name =>
    cases second with
    | identifier other =>
      exact congrArg Token.identifier (Respelling.canonical_congr (plain name rfl) (plain' other rfl) same)
    | _ => cases eq_of_beq same
  | _ => rw [eq_of_beq same]

/-- Two tokens at one place that are the same. -/
structure PlacedToken.Same (first second : PlacedToken) : Prop where
  position : first.position = second.position
  value : first.value.same second.value = true

instance (first second : PlacedToken) : Decidable (first.Same second) :=
  decidable_of_iff (first.position = second.position ∧ first.value.same second.value = true)
    ⟨fun both => ⟨both.1, both.2⟩, fun same => ⟨same.position, same.value⟩⟩

theorem map_respell_canonical_congr {first second : List PlacedToken}
    (same : List.Forall₂ PlacedToken.Same first second)
    (plain : ∀ token ∈ first, ∀ name, token.value = .identifier name → name.isQuoted = false)
    (plain' : ∀ token ∈ second, ∀ name, token.value = .identifier name → name.isQuoted = false) :
    first.map (PlacedToken.respell .canonical) = second.map (PlacedToken.respell .canonical) := by
  induction same with
  | nil => rfl
  | @cons token other first second here _ ih =>
    obtain ⟨plainHere, plain⟩ := List.forall_mem_cons.mp plain
    obtain ⟨plainHere', plain'⟩ := List.forall_mem_cons.mp plain'
    have head : PlacedToken.respell .canonical token = PlacedToken.respell .canonical other := by
      rw [PlacedToken.respell, PlacedToken.respell, here.position,
        Token.respell_canonical_congr here.value plainHere plainHere']
    rw [List.map_cons, List.map_cons, head, ih plain plain']

/-- Tokens of two texts that are the same have one canonical spelling. -/
theorem Lexer.map_respell_canonical {first second : String}
    (same : List.Forall₂ PlacedToken.Same (readUntilFault first).1 (readUntilFault second).1) :
    (readUntilFault first).1.map (PlacedToken.respell .canonical) =
      (readUntilFault second).1.map (PlacedToken.respell .canonical) :=
  map_respell_canonical_congr same (fun _ member _ => isQuoted_of_mem_readUntilFault member)
    fun _ member _ => isQuoted_of_mem_readUntilFault member

end VhdlOrder
