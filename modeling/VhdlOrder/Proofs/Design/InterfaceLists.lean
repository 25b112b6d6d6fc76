import VhdlOrder.Proofs.Design.PlaceByPlace
import VhdlOrder.Proofs.Design.Region
import VhdlOrder.Proofs.Design.Settling

/-! # The two readers of interface lists

An interface list is taken from a stream of tokens up to its closing parenthesis, or cut into elements where the header
of a subprogram is at hand. Both count the parentheses that are open and see a separator only outside them, so the
elements are the same ones wherever the list is closed.
-/

namespace VhdlOrder.Interface

open VhdlOrder.Stepwise (parensAfter_of_ne elements_of_ok elements_of_error elements_singleton)

variable {depth : Nat} {opening closing : PlacedToken} {tokens rest body : List PlacedToken}

/-- The list is closed where `depth` inner parentheses are open in front of the tokens; `rest` is behind it. -/
inductive Closes : Nat → List PlacedToken → List PlacedToken → Prop
  | closing {token : PlacedToken} {rest : List PlacedToken} :
      token.value = .delimiter .rightParen → Closes 0 (token :: rest) rest
  | inside {depth : Nat} {token : PlacedToken} {tokens rest : List PlacedToken} :
      token.value ≠ .endOfFile → ¬(depth = 0 ∧ token.value = .delimiter .rightParen) →
        Closes (Parser.parensAfter depth token.value) tokens rest → Closes depth (token :: tokens) rest

/-- Balanced tokens in front leave as many parentheses open. -/
theorem Closes.behind {outside : Token → Bool} (balanced : Region.Balanced outside body)
    (noEnd : ∀ token ∈ body, token.value ≠ .endOfFile) (closes : Closes depth tokens rest) :
    Closes depth (body ++ tokens) rest := by
  induction balanced generalizing depth tokens with
  | nil => exact closes
  | @token outside token body notParen _ _ ih =>
    have others := ih (fun other member => noEnd other (List.mem_cons_of_mem token member)) closes
    simp only [Region.isParen, Token.isDelimiter_eq_decide, Bool.or_eq_false_iff, decide_eq_false_iff_not] at notParen
    refine .inside (noEnd token (by simp)) (fun closed => notParen.2 closed.2) ?_
    rwa [parensAfter_of_ne depth notParen.1 notParen.2]
  | @group outside opening closing inner body opens _ closed _ ihInner ih =>
    have others := ih (fun other member => noEnd other (by simp [member])) closes
    have close : Closes (depth + 1) (closing :: (body ++ tokens)) rest := by
      refine .inside (by simp [closed]) (by simp) ?_
      rwa [closed]
    have within := ihInner (fun other member => noEnd other (by simp [member])) close
    rw [List.cons_append, List.append_assoc, List.cons_append]
    refine .inside (by simp [opens]) (by simp [opens]) ?_
    rwa [opens]

/-- The declarations of the elements and the tokens behind the list, or the fault of an element. -/
def Answers (elements : Except SyntaxFault (List Declaration)) (rest : List PlacedToken) :
    EStateM.Result SyntaxFault (List PlacedToken) (List Declaration) → Prop
  | .ok declarations left => elements = .ok declarations ∧ left = rest
  | .error fault _ => elements = .error fault

/-- Where the list is closed, the stream is read as the elements that are cut out. -/
theorem Closes.answers (closes : Closes depth tokens rest) (current : List PlacedToken) :
    (split depth current tokens).2 = rest ∧
      Answers (elements (split depth current tokens).1) rest (parseFrom depth current tokens) := by
  induction closes generalizing current with
  | @closing token rest closed =>
    have ordinary : token.value ≠ .endOfFile := by simp [closed]
    rw [split, if_pos (by simp [closed]), parseFrom, if_neg ordinary, if_pos (by simp [closed]), elements_singleton]
    refine ⟨rfl, ?_⟩
    cases element current.reverse with
    | ok declarations => exact ⟨rfl, rfl⟩
    | error fault => rfl
  | @inside depth token tokens rest ordinary notClosing _ ih =>
    have goesOn : ¬(decide (depth = 0) && decide (token.value = .delimiter .rightParen)) = true := by
      simpa using notClosing
    rw [split, if_neg goesOn, parseFrom, if_neg ordinary, if_neg goesOn]
    by_cases separates : (decide (depth = 0) && decide (token.value = .delimiter .semicolon)) = true
    · obtain ⟨isZero, isSemicolon⟩ : depth = 0 ∧ token.value = .delimiter .semicolon := by simpa using separates
      rw [isZero, isSemicolon] at ih
      obtain ⟨behind, others⟩ := ih []
      rw [if_pos separates, if_pos separates]
      refine ⟨behind, ?_⟩
      cases answer : element current.reverse with
      | error fault => exact elements_of_error answer _
      | ok declarations =>
        rw [elements_of_ok answer]
        change Answers (elements (split 0 [] tokens).1) rest (parseFrom 0 [] tokens) at others
        cases read : parseFrom 0 [] tokens with
        | error fault left =>
          rw [read] at others
          exact congrArg (Except.map (declarations ++ ·)) others
        | ok more left =>
          rw [read] at others
          exact ⟨congrArg (Except.map (declarations ++ ·)) others.1, others.2⟩
    · rw [if_neg separates, if_neg separates]
      exact ih _

/-- On an interface list, that is balanced tokens between parentheses, the readers answer the same declarations or the
same fault. The first leaves nothing; the second answers the references of the declarations in order as well. -/
theorem readers_agree (opens : opening.value = .delimiter .leftParen) (closed : closing.value = .delimiter .rightParen)
    (balanced : Region.Balanced (fun _ => true) body) (noEnd : ∀ token ∈ body, token.value ≠ .endOfFile) :
    (∃ declarations, parse (opening :: (body ++ [closing])) = .ok declarations [] ∧
      header (opening :: (body ++ [closing])) = .ok (declarations, Declaration.allReferences declarations)) ∨
    ∃ fault left, parse (opening :: (body ++ [closing])) = .error fault left ∧
      header (opening :: (body ++ [closing])) = .error fault := by
  have closes : Closes 0 (body ++ [closing]) [] := .behind balanced noEnd (.closing closed)
  obtain ⟨behind, answers⟩ := closes.answers []
  have parts : headerParts (opening :: (body ++ [closing])) = ((split 0 [] (body ++ [closing])).1 ++ [], []) := by
    rw [headerParts, if_pos opens, behind, headerParts]
  have parsed : parse (opening :: (body ++ [closing])) = parseFrom 0 [] (body ++ [closing]) := by
    have next : Parser.next (.delimiter .leftParen) (opening :: (body ++ [closing])) =
        .ok opening (body ++ [closing]) := if_neg (by simp [opens])
    have taken : Parser.delimiter .leftParen (opening :: (body ++ [closing])) = .ok () (body ++ [closing]) := by
      rw [Parser.delimiter, Parser.bind_of_ok next, if_pos opens]
      rfl
    exact Parser.bind_of_ok taken
  have headed : header (opening :: (body ++ [closing])) = (elements (split 0 [] (body ++ [closing])).1).map
      fun parameters => (parameters, Declaration.allReferences parameters) := by
    have noReferences : References.collect [] = [] := by rw [References.collect, References.collectFrom]
    rw [header, parts, List.append_nil]
    cases read : elements (split 0 [] (body ++ [closing])).1 <;> simp [read, noReferences, Except.map]
  rw [parsed, headed]
  cases read : parseFrom 0 [] (body ++ [closing]) with
  | ok declarations left =>
    rw [read] at answers
    obtain ⟨whole, rfl⟩ := answers
    exact .inl ⟨declarations, rfl, by rw [whole]; rfl⟩
  | error fault left =>
    rw [read] at answers
    have failed : elements (split 0 [] (body ++ [closing])).1 = .error fault := answers
    exact .inr ⟨fault, left, rfl, by rw [failed]; rfl⟩

/-- Two elements, one of them with parentheses. -/
theorem readers_agree_ports :
    let named (name : String) : PlacedToken := ⟨.start, .identifier (.basic name)⟩
    let mark (delimiter : Delimiter) : PlacedToken := ⟨.start, .delimiter delimiter⟩
    let body := [named "a", mark .colon, named "word", mark .leftParen, named "n", mark .rightParen, mark .semicolon,
      named "b", mark .colon, named "bit"]
    Region.Balanced (fun _ => true) body ∧ ∃ declarations,
      parse (mark .leftParen :: (body ++ [mark .rightParen])) = .ok declarations [] ∧
        header (mark .leftParen :: (body ++ [mark .rightParen])) =
          .ok (declarations, Declaration.allReferences declarations) := by
  intro named mark body
  have inner : Region.Balanced (fun _ => true) [named "n"] := .token rfl rfl .nil
  have balanced : Region.Balanced (fun _ => true) body :=
    .token rfl rfl <| .token rfl rfl <| .token rfl rfl <| .group rfl inner rfl <|
      .token rfl rfl <| .token rfl rfl <| .token rfl rfl <| .token rfl rfl .nil
  have opens : (mark .leftParen).value = .delimiter .leftParen := rfl
  have closes : (mark .rightParen).value = .delimiter .rightParen := rfl
  obtain agreed | ⟨fault, left, failed, -⟩ := readers_agree opens closes balanced (by decide)
  · exact ⟨balanced, agreed⟩
  · cases failed

end VhdlOrder.Interface
