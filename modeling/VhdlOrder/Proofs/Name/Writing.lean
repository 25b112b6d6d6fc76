import Mathlib.Data.List.TakeWhile
import VhdlOrder.Name.Pragma
import VhdlOrder.Proofs.Lexical.Names
import VhdlOrder.Proofs.Lexical.Placement
import VhdlOrder.Proofs.Lexical.Rereading

/-! # Names that are written and read again

A selected name is read by splitting its text at every point, and the name of a pragma ends at the first separator,
before anything else is made of the text. So the written form of a name is read as the name exactly if none of its
identifiers holds a point, and in a pragma no separator either; an extended identifier can hold both. A name that
holds one is never read as another name. A single identifier is always read from its written form and from no other
text, and the lexer finds it alone in the same texts, reserved words apart.
-/

namespace VhdlOrder

open Identifier (IsName IsLexed)
open Scanner (doubled)

namespace SelectedName

/-! ## Pieces between points -/

/-- All pieces of a text between its points. -/
def allPieces (text : List Char) : List (List Char) := (pieces text).1 :: (pieces text).2

theorem allPieces_of_not_mem {text : List Char} (plain : '.' ∉ text) : allPieces text = [text] := by
  induction text with
  | nil => rfl
  | cons c rest ih =>
    have inner := ih (List.not_mem_of_not_mem_cons plain)
    have here : c ≠ '.' := (List.ne_of_not_mem_cons plain).symm
    simp only [allPieces, List.cons.injEq] at inner
    simp [allPieces, pieces, here, inner]

theorem allPieces_append {text : List Char} (plain : '.' ∉ text) (rest : List Char) :
    allPieces (text ++ '.' :: rest) = text :: allPieces rest := by
  induction text with
  | nil => simp [allPieces, pieces]
  | cons c text ih =>
    have inner := ih (List.not_mem_of_not_mem_cons plain)
    have here : c ≠ '.' := (List.ne_of_not_mem_cons plain).symm
    simp only [allPieces, List.cons.injEq] at inner
    simp [allPieces, pieces, here, inner]

theorem readAll_cons_ok {text : List Char} {name : Identifier} (read : Identifier.readList text = .ok name)
    (rest : List (List Char)) : readAll (text :: rest) = (readAll rest).map (name :: ·) := by
  cases found : readAll rest <;> simp [readAll, read, found, Except.map]

theorem readAll_cons_error {text : List Char} {fault : NameFault} (read : Identifier.readList text = .error fault)
    (rest : List (List Char)) : readAll (text :: rest) = .error fault := by
  simp [readAll, read]

/-- The identifiers of a name are its pieces. -/
theorem readAll_allPieces (text : List Char) : readAll (allPieces text) = (readList text).map parts := by
  unfold readList allPieces
  dsimp only
  cases first : Identifier.readList (pieces text).1 with
  | error fault => rw [readAll_cons_error first]; rfl
  | ok name =>
    rw [readAll_cons_ok first]
    cases readAll (pieces text).2 <;> rfl

/-! ## Names with and without points -/

/-- Whether there is a point inside the identifier. -/
def holdsPoint (name : Identifier) : Bool := name.render.toList.contains '.'

theorem holdsPoint_iff {name : Identifier} : holdsPoint name = true ↔ '.' ∈ name.render.toList :=
  List.contains_iff_mem

/-- In a name a point is inside an extended identifier, whose beginning up to the point is no identifier. -/
theorem exists_unclosed_piece {name : Identifier} (isName : name.IsName) (point : holdsPoint name = true) :
    ∃ piece rest, name.render.toList = piece ++ '.' :: rest ∧ '.' ∉ piece ∧
      Identifier.readList piece = .error .unclosed := by
  rw [holdsPoint_iff] at point
  cases isName with
  | @basic first text letter word free =>
    simp only [Identifier.render, String.toList_ofList] at point
    exact absurd ((word.of_letter letter).character '.' point) (by decide)
  | @extended text nonempty graphic =>
    have inside : '.' ∈ text := by simpa [Identifier.toList_render_extended] using point
    obtain ⟨before, after, rfl, plain⟩ := List.eq_append_cons_of_mem inside
    refine ⟨'\\' :: doubled '\\' before, doubled '\\' after ++ ['\\'], ?_, by simpa using plain, ?_⟩
    · rw [Identifier.toList_render_extended]
      simp [doubled]
    · exact Identifier.readList_of_not_closed fun c member => graphic c (List.mem_append_left _ member)

/-- The characters of identifiers with points between them. -/
def joined (names : List Identifier) : List Char := ['.'].intercalate (names.map fun name => name.render.toList)

theorem joined_cons_cons (name next : Identifier) (rest : List Identifier) :
    joined (name :: next :: rest) = name.render.toList ++ '.' :: joined (next :: rest) := by
  simp [joined, List.intercalate_cons_cons]

theorem joined_singleton (name : Identifier) : joined [name] = name.render.toList := List.intercalate_singleton

/-- Identifiers with points between them are read as they are, unless there are points inside them. -/
theorem readAll_joined (first : Identifier) (suffix : List Identifier)
    (names : ∀ name ∈ first :: suffix, name.IsName) :
    readAll (allPieces (joined (first :: suffix))) =
      if (first :: suffix).any holdsPoint then .error .unclosed else .ok (first :: suffix) := by
  induction suffix generalizing first with
  | nil =>
    have isName := names first List.mem_cons_self
    rw [joined_singleton, List.any_cons, List.any_nil, Bool.or_false]
    by_cases point : holdsPoint first = true
    · obtain ⟨piece, rest, shape, plain, unclosed⟩ := exists_unclosed_piece isName point
      rw [if_pos point, shape, allPieces_append plain, readAll_cons_error unclosed]
    · rw [if_neg point, allPieces_of_not_mem (holdsPoint_iff.not.mp point), readAll_cons_ok isName.readList_render]
      rfl
  | cons next rest ih =>
    obtain ⟨isName, others⟩ := List.forall_mem_cons.mp names
    rw [joined_cons_cons, List.any_cons]
    by_cases point : holdsPoint first = true
    · obtain ⟨piece, more, shape, plain, unclosed⟩ := exists_unclosed_piece isName point
      rw [point, Bool.true_or, if_pos rfl, shape, List.append_assoc, List.cons_append, allPieces_append plain,
        readAll_cons_error unclosed]
    · rw [allPieces_append (holdsPoint_iff.not.mp point), readAll_cons_ok isName.readList_render, ih next others,
        Bool.eq_false_iff.mpr point, Bool.false_or]
      cases (next :: rest).any holdsPoint <;> rfl

theorem toList_render (name : SelectedName) : name.render.toList = joined name.parts := by
  simp [render, joined, String.toList_intercalate, Function.comp_def]

theorem eq_of_map_parts_eq {first second : Except NameFault SelectedName}
    (same : first.map parts = second.map parts) : first = second := by
  cases first with
  | error fault => cases second with
    | error other => exact congrArg Except.error (Except.error.inj same)
    | ok other => cases same
  | ok name => cases second with
    | error fault => cases same
    | ok other =>
      obtain ⟨first, suffix⟩ := List.cons.inj (Except.ok.inj same)
      cases name
      cases other
      simp_all

/-- The written form of a name is read as the name, unless there are points inside its identifiers. -/
theorem readList_render {name : SelectedName} (names : ∀ part ∈ name.parts, part.IsName) :
    readList name.render.toList = if name.parts.any holdsPoint then .error .unclosed else .ok name := by
  apply eq_of_map_parts_eq
  rw [← readAll_allPieces, toList_render]
  refine (readAll_joined name.first name.suffix names).trans ?_
  change (if name.parts.any holdsPoint then _ else _) = _
  cases name.parts.any holdsPoint <;> rfl

/-! ## Ends of names -/

/-- A text that neither begins nor ends with a separator. -/
structure Trimmed (text : List Char) : Prop where
  begins : ∃ first rest, text = first :: rest ∧ Latin.isSeparator first = false
  ends : ∃ front last, text = front ++ [last] ∧ Latin.isSeparator last = false

theorem not_isSeparator_of_word {c : Char} (part : Latin.isLetterOrDigit c = true ∨ c = '_') :
    Latin.isSeparator c = false := by
  obtain accepted | rfl := part
  · exact Lexer.not_isSeparator_of rfl accepted
  · decide

theorem trimmed_render {name : Identifier} (isName : name.IsName) : Trimmed name.render.toList := by
  cases isName with
  | @basic first text letter word free =>
    have plain (c : Char) (member : c ∈ first :: text) : Latin.isSeparator c = false :=
      not_isSeparator_of_word ((word.of_letter letter).character c member)
    simp only [Identifier.render, String.toList_ofList]
    refine ⟨⟨first, text, rfl, plain first List.mem_cons_self⟩, (first :: text).dropLast,
      (first :: text).getLast (List.cons_ne_nil _ _), (List.dropLast_concat_getLast _).symm, ?_⟩
    exact plain _ (List.getLast_mem _)
  | @extended text nonempty graphic =>
    rw [Identifier.toList_render_extended]
    exact ⟨⟨'\\', _, rfl, by decide⟩, '\\' :: doubled '\\' text, '\\', rfl, by decide⟩

theorem Trimmed.append {first second : List Char} (trimmed : Trimmed first) (trimmed' : Trimmed second)
    (between : List Char) : Trimmed (first ++ between ++ second) := by
  obtain ⟨c, rest, rfl, begins⟩ := trimmed.begins
  obtain ⟨front, d, rfl, ends⟩ := trimmed'.ends
  exact ⟨⟨c, rest ++ between ++ (front ++ [d]), by simp, begins⟩, c :: rest ++ between ++ front, d, by simp, ends⟩

theorem trimmed_joined (first : Identifier) (suffix : List Identifier) (names : ∀ name ∈ first :: suffix, name.IsName) :
    Trimmed (joined (first :: suffix)) := by
  induction suffix generalizing first with
  | nil =>
    rw [joined_singleton]
    exact trimmed_render (names first List.mem_cons_self)
  | cons next rest ih =>
    obtain ⟨isName, others⟩ := List.forall_mem_cons.mp names
    rw [joined_cons_cons, List.append_cons]
    exact (trimmed_render isName).append (ih next others) ['.']

theorem strip_separators {text : List Char} (trimmed : Trimmed text) :
    Text.strip Latin.isSeparator (' ' :: text) = text := by
  have front : (' ' :: text).dropWhile Latin.isSeparator = text := by
    obtain ⟨first, rest, rfl, begins⟩ := trimmed.begins
    have blank : Latin.isSeparator ' ' = true := by decide
    simp [blank, begins]
  have back : text.reverse.dropWhile Latin.isSeparator = text.reverse := by
    obtain ⟨init, last, rfl, ends⟩ := trimmed.ends
    simp [ends]
  rw [Text.strip, front, back, List.reverse_reverse]

end SelectedName

/-! ## Pragmas -/

namespace Pragma

/-- A name behind a blank is the target if it holds no separator. -/
theorem readTarget_of_trimmed (word : String) {text : List Char} (trimmed : SelectedName.Trimmed text) :
    readTarget word (' ' :: text) =
      if text.any Latin.isSeparator then
        .error (.textAfterName (String.ofList (Text.trim (text.dropWhile fun c => !Latin.isSeparator c))))
      else
        match SelectedName.readList text with
        | .ok target => .ok target
        | .error fault => .error (.nameMalformed (String.ofList text) fault) := by
  have blank : ((' ' :: text).head?.any fun c => !Latin.isSeparator c) = false := rfl
  have nonempty : text.isEmpty = false := by
    obtain ⟨first, rest, rfl, -⟩ := trimmed.begins
    rfl
  have extra : (!(text.dropWhile fun c => !Latin.isSeparator c).isEmpty) = text.any Latin.isSeparator := by
    rw [Bool.eq_iff_iff]
    simp [List.dropWhile_eq_nil_iff]
  unfold readTarget
  rw [SelectedName.strip_separators trimmed]
  cases read : SelectedName.readList text <;>
    simp only [blank, nonempty, extra, read, Bool.false_eq_true, if_false]

/-- A comment with the directive for elaboration has the target behind the directive. -/
theorem ofComment_elab (text : String) (position : Position) :
    ofComment (" @elab " ++ text) position "elab" =
      match readTarget "elab" (' ' :: text.toList) with
      | .ok target => .ok (some ⟨"elab", some target, position⟩)
      | .error fault => .error fault := by
  have shape : (" @elab " ++ text).toList =
      ' ' :: '@' :: 'e' :: 'l' :: 'a' :: 'b' :: ' ' :: text.toList := by simp
  have opened : (" @elab " ++ text).toList.dropWhile Latin.isSeparator =
      '@' :: 'e' :: 'l' :: 'a' :: 'b' :: ' ' :: text.toList := by
    rw [shape]
    rfl
  have unblanked : ('e' :: 'l' :: 'a' :: 'b' :: ' ' :: text.toList).dropWhile Latin.isSeparator =
      'e' :: 'l' :: 'a' :: 'b' :: ' ' :: text.toList := rfl
  have directive : String.ofList (('e' :: 'l' :: 'a' :: 'b' :: ' ' :: text.toList).takeWhile isDirectiveCharacter) =
      "elab" := rfl
  have behind : ('e' :: 'l' :: 'a' :: 'b' :: ' ' :: text.toList).dropWhile isDirectiveCharacter =
      ' ' :: text.toList := rfl
  have nonempty : "elab".isEmpty = false := by decide
  have same : Text.equalIgnoringAsciiCase "elab" "elab" = true := by decide
  unfold ofComment
  rw [opened]
  cases read : readTarget "elab" (' ' :: text.toList) <;>
    simp only [unblanked, directive, behind, nonempty, same, read, Bool.false_eq_true, if_false, if_true]

end Pragma

/-! ## Names of texts -/

namespace SelectedName

/-- The written form of a name whose identifiers are tokens of texts is read as the name, unless there is a point
inside one of the identifiers; and a pragma with the written form behind the directive has the name as its target,
unless there is a point or a separator inside one. Otherwise nothing is read but a fault. -/
theorem written_and_read (name : SelectedName) (lexed : ∀ part ∈ name.parts, part.IsLexed) (position : Position) :
    read name.render = (if name.parts.any holdsPoint then .error .unclosed else .ok name) ∧
      Pragma.ofComment (" @elab " ++ name.render) position "elab" =
        if name.render.toList.any Latin.isSeparator then
          .error (.textAfterName (String.ofList
            (Text.trim (name.render.toList.dropWhile fun c => !Latin.isSeparator c))))
        else if name.parts.any holdsPoint then .error (.nameMalformed name.render .unclosed)
        else .ok (some ⟨"elab", some name, position⟩) := by
  have names (part : Identifier) (member : part ∈ name.parts) : part.IsName := (lexed part member).isName
  have trimmed : Trimmed name.render.toList := by
    rw [toList_render]
    exact trimmed_joined name.first name.suffix names
  refine ⟨readList_render names, ?_⟩
  rw [Pragma.ofComment_elab, Pragma.readTarget_of_trimmed "elab" trimmed, readList_render names, String.ofList_toList]
  cases name.render.toList.any Latin.isSeparator with
  | true => rfl
  | false => cases name.parts.any holdsPoint <;> rfl

/-- Names of one extended identifier, with a point and with a blank inside. -/
def Sample.pointed : SelectedName := .ofIdentifier (.extended "a.b")

def Sample.blanked : SelectedName := .ofIdentifier (.extended "a b")

theorem Sample.isLexed_pointed : (Identifier.extended "a.b").IsLexed :=
  ⟨"\\a.b\\", ⟨⟨1, 1⟩, .identifier (.extended "a.b")⟩, by decide +kernel, rfl⟩

theorem Sample.isLexed_blanked : (Identifier.extended "a b").IsLexed :=
  ⟨"\\a b\\", ⟨⟨1, 1⟩, .identifier (.extended "a b")⟩, by decide +kernel, rfl⟩

/-- A name with a blank inside is read as the name, but a pragma with it is none. -/
theorem written_and_read_blanked :
    (∀ part ∈ Sample.blanked.parts, part.IsLexed) ∧ read Sample.blanked.render = .ok Sample.blanked ∧
      Pragma.ofComment (" @elab " ++ Sample.blanked.render) ⟨1, 1⟩ "elab" = .error (.textAfterName "b\\") := by
  have lexed : ∀ part ∈ Sample.blanked.parts, part.IsLexed := List.forall_mem_singleton.mpr Sample.isLexed_blanked
  have point : Sample.blanked.parts.any holdsPoint = false := by decide +kernel
  have blank : Sample.blanked.render.toList.any Latin.isSeparator = true := by decide +kernel
  obtain ⟨read, pragma⟩ := written_and_read Sample.blanked lexed ⟨1, 1⟩
  rw [point] at read
  rw [blank] at pragma
  exact ⟨lexed, read, pragma⟩

/-- Not every written name is read as the name, alone and in a pragma: a point inside an extended identifier is taken
for one between two. -/
theorem exists_written_not_read :
    ¬ ∀ name : SelectedName, (∀ part ∈ name.parts, part.IsLexed) →
      read name.render = .ok name ∧
        ∀ position, Pragma.ofComment (" @elab " ++ name.render) position "elab" =
          .ok (some ⟨"elab", some name, position⟩) := by
  intro all
  obtain ⟨isRead, -⟩ := all Sample.pointed (List.forall_mem_singleton.mpr Sample.isLexed_pointed)
  have unread : read Sample.pointed.render = .error .unclosed := rfl
  cases unread.symm.trans isRead

end SelectedName

/-! ## Identifiers that are a whole text -/

namespace Identifier

theorem utf8ByteSize_doubled (text : List Char) :
    (String.ofList (doubled '\\' text)).utf8ByteSize = (String.ofList text).utf8ByteSize + text.count '\\' := by
  induction text with
  | nil => rfl
  | cons c text ih =>
    have split : doubled '\\' (c :: text) = (if c = '\\' then ['\\', '\\'] else [c]) ++ doubled '\\' text :=
      List.flatMap_cons
    rw [split, String.ofList_append, String.utf8ByteSize_append, ih, String.ofList_cons, String.utf8ByteSize_append,
      String.utf8ByteSize_singleton]
    by_cases backslash : c = '\\'
    · have two : (String.ofList ['\\', '\\']).utf8ByteSize = 2 := by decide
      have one : ('\\').utf8Size = 1 := by decide
      rw [if_pos backslash, two, backslash, one, List.count_cons_self]
      omega
    · rw [if_neg backslash, ← String.singleton_eq_ofList, String.utf8ByteSize_singleton,
        List.count_cons_of_ne backslash, Nat.add_assoc]

/-- The number of bytes of an identifier is that of its written form. -/
theorem byteLength_eq (name : Identifier) : name.byteLength = name.render.utf8ByteSize := by
  cases name with
  | basic text => rfl
  | extended text =>
    have shape : (extended text).render = "\\" ++ (String.ofList (doubled '\\' text.toList) ++ "\\") := by
      rw [← String.toList_inj]
      simp [render, doubled]
    have one : "\\".utf8ByteSize = 1 := by decide
    rw [shape, String.utf8ByteSize_append, String.utf8ByteSize_append, utf8ByteSize_doubled, String.ofList_toList, one,
      byteLength]
    omega

/-- A name on its own is one token. -/
theorem IsName.token {name : Identifier} (isName : name.IsName) :
    ∃ first rest, name.render.toList = first :: rest ∧ ∀ ticks position, ∃ place,
      Scanner.token ticks first ⟨position, rest⟩ = .ok (.identifier name) ⟨place, []⟩ := by
  cases isName with
  | @basic first text letter word free =>
    refine ⟨first, text, String.toList_ofList, fun ticks position => ⟨position.advance text, ?_⟩⟩
    have scanned : Scanner.pattern Latin.isLetterOrDigit true ⟨position, text⟩ = .ok text ⟨position.advance text, []⟩ :=
      Scanner.separated_of_word word position
    have branch : Scanner.token ticks first ⟨position, text⟩ = Scanner.word first ⟨position, text⟩ := by
      rw [Scanner.token, if_pos letter]
    rw [branch]
    simp only [Scanner.word, Scanner.wordOf, bind, EStateM.bind, scanned, free]
    rfl
  | @extended text nonempty graphic =>
    refine ⟨'\\', doubled '\\' text ++ ['\\'], toList_render_extended text, fun ticks position => ?_⟩
    obtain ⟨place, whole⟩ := Scanner.literal_doubled (by decide : Latin.isGraphic '\\' = true) graphic position
    refine ⟨place, ?_⟩
    have branch : Scanner.token ticks '\\' = Scanner.extendedIdentifier := rfl
    have kept : text.isEmpty = false := by simpa using nonempty
    rw [branch]
    simp only [Scanner.extendedIdentifier, bind, EStateM.bind, whole, Scanner.nonempty, kept]
    rfl

/-- Reserved words are written in letters, so that none is an extended identifier. -/
theorem IsName.ofText?_render {name : Identifier} (isName : name.IsName) : Keyword.ofText? name.render = none := by
  cases isName with
  | basic letter word free => exact free
  | @extended text nonempty graphic =>
    have shape : (Identifier.extended (String.ofList text)).render =
        String.ofList ('\\' :: (doubled '\\' text ++ ['\\'])) := by
      rw [← String.toList_inj, toList_render_extended, String.toList_ofList]
    rw [shape]
    cases read : Keyword.ofText? (String.ofList ('\\' :: (doubled '\\' text ++ ['\\']))) with
    | none => rfl
    | some word =>
      have spelled : ('\\' :: (doubled '\\' text ++ ['\\'])).map Char.toLower = word.spelling.toList :=
        Scanner.spelled_keyword read
      have letter := isLetter_spelling word ('\\').toLower (spelled ▸ List.mem_cons_self)
      exact absurd letter (by decide)

/-- The text is nothing but the identifier for the lexer. -/
def LexedAlone (text : String) (name : Identifier) : Prop :=
  ∃ place, Lexer.items text = [⟨⟨1, 1⟩, .ok (.identifier name)⟩, ⟨place, .ok .endOfFile⟩]

theorem IsName.lexedAlone {name : Identifier} (isName : name.IsName) : LexedAlone name.render name := by
  obtain ⟨first, rest, shape, tokens⟩ := isName.token
  obtain ⟨place, scanned⟩ := tokens false (Position.start.step first)
  have begins : Latin.isSeparator first = false := by
    obtain ⟨_, _, shape', begins⟩ := (SelectedName.trimmed_render isName).begins
    obtain ⟨rfl, -⟩ := List.cons.inj (shape.symm.trans shape')
    exact begins
  have noFeed : first ≠ '\n' := by
    rintro rfl
    cases begins
  refine ⟨place.nextColumn, ?_⟩
  rw [Lexer.items, Cursor.ofText, shape, Lexer.itemsFrom_token begins scanned, Lexer.itemsFrom_nil,
    Position.step_of_ne _ noFeed]
  rfl

/-- Behind the only token of a trimmed text there is nothing, and nothing is in front of it. -/
theorem eq_render_of_placed {text : List Char} {name : Identifier} {place place' : Position}
    (placed : Lexer.Placed [] text [⟨place, .identifier name⟩, ⟨place', .endOfFile⟩])
    (trimmed : SelectedName.Trimmed text) : name.render.toList = text := by
  cases placed with
  | @token _ gap spelling rest first _ _ separators begins spelled behind =>
    have inFront : gap = [] := by
      cases gap with
      | nil => rfl
      | cons c gap =>
        obtain ⟨_, _, shape, plain⟩ := trimmed.begins
        obtain ⟨rfl, -⟩ := List.cons.inj shape
        cases (separators c List.mem_cons_self).symm.trans plain
    have atEnd : rest = [] := by
      cases behind with
      | ends separators =>
        obtain ⟨_, last, shape, plain⟩ := trimmed.ends
        cases rest using List.reverseRecOn with
        | nil => rfl
        | append_singleton rest c =>
          rw [← List.append_assoc] at shape
          obtain ⟨-, same⟩ := List.append_inj' shape rfl
          obtain rfl : c = last := List.singleton_inj.mp same
          cases (separators c (by simp)).symm.trans plain
      | token _ _ marker => exact absurd marker (Lexer.not_spelled_endOfFile _ _)
    subst inFront atEnd
    rw [List.nil_append, List.append_nil]
    exact spelled.symm

theorem LexedAlone.isName {text : String} {name : Identifier} (alone : LexedAlone text name) : name.IsName := by
  obtain ⟨place, items⟩ := alone
  have member : (⟨⟨1, 1⟩, .ok (.identifier name)⟩ : Lexer.Item) ∈ Lexer.items text := items ▸ List.mem_cons_self
  exact Lexer.namesOnly_of_mem_itemsFrom false (.ofText text) _ member _ rfl name rfl

theorem LexedAlone.render_eq {text : String} {name : Identifier} (alone : LexedAlone text name)
    (trimmed : SelectedName.Trimmed text.toList) : name.render = text := by
  obtain ⟨place, items⟩ := alone
  have read : Lexer.read text = .ok [⟨⟨1, 1⟩, .identifier name⟩, ⟨place, .endOfFile⟩] := by
    rw [Lexer.read, Lexer.readUntilFault, items]
    rfl
  have placed : Lexer.Placed [] text.toList _ := Lexer.placed_of_lexes (Lexer.read_eq_ok_iff.mp read) rfl
  exact String.toList_inj.mp (eq_render_of_placed placed trimmed)

/-- A text that is read as an identifier is its written form, and has as many bytes as the identifier says. The
identifiers that the lexer finds in texts, also behind faults, are read from their written forms, and so is everything
graphic between backslashes. The lexer and the reader agree on the texts that are one identifier, reserved words
apart. -/
theorem read_agrees_with_lexer :
    (∀ text name, read text = .ok name → name.render = text ∧ name.byteLength = text.utf8ByteSize) ∧
      (∀ text name, (∃ position, ⟨position, .ok (.identifier name)⟩ ∈ Lexer.items text) →
        read name.render = .ok name) ∧
      (∀ text : List Char, text ≠ [] → (∀ c ∈ text, Latin.isGraphic c = true) →
        read (extended (String.ofList text)).render = .ok (extended (String.ofList text))) ∧
      ∀ text name, LexedAlone text name ∧ SelectedName.Trimmed text.toList ↔
        read text = .ok name ∧ Keyword.ofText? text = none := by
  refine ⟨fun text name read => ?_, fun text name lexed => ?_, fun text nonempty graphic => ?_, fun text name => ?_⟩
  · obtain rfl := String.toList_inj.mp (readList_eq_ok_iff.mp read).2
    exact ⟨rfl, byteLength_eq name⟩
  · obtain ⟨position, member⟩ := lexed
    exact (Lexer.namesOnly_of_mem_itemsFrom false (.ofText text) _ member _ rfl name rfl).readList_render
  · exact (IsText.extended nonempty graphic).readList_render
  constructor
  · rintro ⟨alone, trimmed⟩
    obtain rfl := alone.render_eq trimmed
    exact ⟨alone.isName.readList_render, alone.isName.ofText?_render⟩
  · rintro ⟨read, free⟩
    obtain ⟨isText, same⟩ := readList_eq_ok_iff.mp read
    obtain rfl := String.toList_inj.mp same
    have isName := isText.isName free
    exact ⟨isName.lexedAlone, SelectedName.trimmed_render isName⟩

/-- A backslash inside an extended identifier is written twice, and counted so. -/
theorem read_agrees_with_lexer_backslash :
    read "\\a\\\\b\\" = .ok (.extended "a\\b") ∧ (extended "a\\b").render = "\\a\\\\b\\" ∧
      (extended "a\\b").byteLength = 6 ∧ LexedAlone "\\a\\\\b\\" (.extended "a\\b") := by
  have isRead : read "\\a\\\\b\\" = .ok (.extended "a\\b") := by decide +kernel
  have free : Keyword.ofText? "\\a\\\\b\\" = none := by decide +kernel
  have six : "\\a\\\\b\\".utf8ByteSize = 6 := by decide
  obtain ⟨same, -, -, agrees⟩ := read_agrees_with_lexer
  obtain ⟨render, bytes⟩ := same _ _ isRead
  exact ⟨isRead, render, bytes.trans six, ((agrees _ _).mpr ⟨isRead, free⟩).1⟩

end Identifier

end VhdlOrder
