import Mathlib.Data.List.TakeWhile
import VhdlOrder.Name.Pragma
import VhdlOrder.Proofs.Lexical.Lexing
import VhdlOrder.Proofs.Text.AsciiCase

/-! # The grammar of pragmas

A comment is a pragma with a target if it is the sign `@`, the directive and the name of a design unit, with separators
around the sign, one at least before the name, and some at the end. Another word behind the sign is a pragma without
target, and a comment that does not begin with the sign is none. Everything else is a fault. The grammar says this of
the text as a whole; the reader trims, searches and splits it, and both agree on every text.
-/

namespace VhdlOrder

/-! ## Texts without the characters at their ends -/

namespace Text

variable {drops : Char → Bool} {text gap : List Char}

theorem head?_dropWhile : ∀ c ∈ (text.dropWhile drops).head?, drops c = false := by
  intro c first
  have stops := List.head?_dropWhile_not drops text
  rw [Option.mem_def.mp first] at stops
  exact stops

theorem dropWhile_of_head? (kept : ∀ c ∈ text.head?, drops c = false) : text.dropWhile drops = text := by
  cases text with
  | nil => rfl
  | cons c rest => exact List.dropWhile_cons_of_neg (Bool.eq_false_iff.mp (kept c rfl))

theorem takeWhile_of_head? (kept : ∀ c ∈ text.head?, drops c = false) : text.takeWhile drops = [] := by
  cases text with
  | nil => rfl
  | cons c rest => exact List.takeWhile_cons_of_neg (Bool.eq_false_iff.mp (kept c rfl))

theorem strip_eq_self (kept : ∀ c ∈ text, drops c = false) : strip drops text = text := by
  have front : text.dropWhile drops = text := dropWhile_of_head? fun c first => kept c (List.mem_of_head? first)
  have back : text.reverse.dropWhile drops = text.reverse :=
    dropWhile_of_head? fun c first => kept c (List.mem_reverse.mp (List.mem_of_head? first))
  rw [strip, front, back, List.reverse_reverse]

theorem strip_append_left (dropped : ∀ c ∈ gap, drops c = true) : strip drops (gap ++ text) = strip drops text := by
  rw [strip, List.dropWhile_append_of_pos dropped, strip]

theorem strip_append_right (dropped : ∀ c ∈ gap, drops c = true) :
    strip drops (text ++ gap) = strip drops text := by
  rw [strip, strip, List.dropWhile_append]
  split
  case isTrue empty =>
    rw [List.isEmpty_iff.mp empty, List.dropWhile_eq_nil_iff.mpr dropped]
  case isFalse =>
    rw [List.reverse_append, List.dropWhile_append_of_pos fun c member => dropped c (List.mem_reverse.mp member)]

/-- What is dropped stands before and behind what is left. -/
theorem exists_append_strip (drops : Char → Bool) (text : List Char) :
    ∃ after, text = text.takeWhile drops ++ strip drops text ++ after ∧ ∀ c ∈ after, drops c = true := by
  refine ⟨((text.dropWhile drops).reverse.takeWhile drops).reverse, ?_, fun c member => ?_⟩
  · rw [strip, List.append_assoc, ← List.reverse_append, List.takeWhile_append_dropWhile, List.reverse_reverse,
      List.takeWhile_append_dropWhile]
  · exact List.mem_takeWhile_imp (List.mem_reverse.mp member)

end Text

namespace Pragma

variable {text gap word behind : List Char} {target : SelectedName} {position : Position} {directive : String}

/-! ## The grammar -/

/-- A text of separators, perhaps none. -/
def IsGap (text : List Char) : Prop := ∀ c ∈ text, Latin.isSeparator c = true

instance (text : List Char) : Decidable (IsGap text) :=
  inferInstanceAs (Decidable (∀ c ∈ text, Latin.isSeparator c = true))

/-- Two words are equal up to the case of the letters from `A` to `Z`. -/
def SameWord (first second : List Char) : Prop := first.map Char.toLower = second.map Char.toLower

instance (first second : List Char) : Decidable (SameWord first second) :=
  inferInstanceAs (Decidable (first.map Char.toLower = second.map Char.toLower))

/-- The sign `@` with separators around it, and behind them two parts of the text. -/
inductive Signed (word behind : List Char) : List Char → Prop
  | sign {before between : List Char} (leading : IsGap before) (inner : IsGap between) :
      Signed word behind (before ++ '@' :: (between ++ word ++ behind))

/-- The name of a design unit behind a separator or more, with separators at the end. -/
inductive Named (target : SelectedName) : List Char → Prop
  | name {gap name after : List Char} (separated : IsGap gap) (nonempty : gap ≠ [])
      (plain : ∀ c ∈ name, Latin.isSeparator c = false) (read : SelectedName.readList name = .ok target)
      (trailing : IsGap after) : Named target (gap ++ name ++ after)

/-- A text that asks for the elaboration of `target`. -/
def Asks (directive : String) (target : SelectedName) (text : List Char) : Prop :=
  ∃ word behind, Signed word behind text ∧ SameWord word directive.toList ∧ Named target behind

/-- A text whose longest word behind the sign is another one than the directive. -/
def HasOtherWord (directive : String) (text : List Char) : Prop :=
  ∃ word behind, Signed word behind text ∧ word ≠ [] ∧ (∀ c ∈ word, isDirectiveCharacter c = true) ∧
    (∀ c ∈ behind.head?, isDirectiveCharacter c = false) ∧ ¬SameWord word directive.toList

/-- A text whose first character, separators apart, is not the sign. -/
def IsOrdinary (text : List Char) : Prop := (text.find? fun c => !Latin.isSeparator c) ≠ some '@'

/-- Texts that differ in the separators at one place: at the beginning, behind the sign, at the end, or anywhere behind
the first other character of an ordinary comment. -/
inductive Respaced : List Char → List Char → Prop
  | before {gap gap' rest : List Char} (first : IsGap gap) (second : IsGap gap') :
      Respaced (gap ++ rest) (gap' ++ rest)
  | between {before gap gap' rest : List Char} (leading : IsGap before) (first : IsGap gap) (second : IsGap gap') :
      Respaced (before ++ '@' :: (gap ++ rest)) (before ++ '@' :: (gap' ++ rest))
  | after {text gap gap' : List Char} (first : IsGap gap) (second : IsGap gap') :
      Respaced (text ++ gap) (text ++ gap')
  | inside {before gap gap' rest : List Char} {mark : Char}
      (begins : (before.find? fun c => !Latin.isSeparator c) = some mark) (ordinary : mark ≠ '@')
      (first : IsGap gap) (second : IsGap gap') : Respaced (before ++ gap ++ rest) (before ++ gap' ++ rest)

/-! ## Characters of words and separators -/

theorem not_isSeparator_of_directive {c : Char} (part : isDirectiveCharacter c = true) : Latin.isSeparator c = false :=
  Lexer.not_isSeparator_of (by decide) part

theorem not_directive_of_isSeparator {c : Char} (separator : Latin.isSeparator c = true) :
    isDirectiveCharacter c = false := by
  rw [Bool.eq_false_iff]
  intro part
  rw [not_isSeparator_of_directive part] at separator
  cases separator

theorem IsGap.append (first : IsGap gap) (second : IsGap text) : IsGap (gap ++ text) :=
  List.forall_mem_append.mpr ⟨first, second⟩

theorem isDirectiveCharacter_toLower (c : Char) : isDirectiveCharacter c.toLower = isDirectiveCharacter c := by
  by_cases capital : 'A' ≤ c ∧ c ≤ 'Z'
  · have letter : Latin.isLetter c = true := by simp [Latin.isLetter, Latin.isUpper, capital]
    simp [isDirectiveCharacter, Latin.isLetterOrDigit, Text.isLetter_toLower, letter]
  · rw [Text.toLower_eq_self capital]

theorem SameWord.letters (same : SameWord word behind) (letters : ∀ c ∈ behind, isDirectiveCharacter c = true) :
    ∀ c ∈ word, isDirectiveCharacter c = true := by
  intro c member
  have small : c.toLower ∈ behind.map Char.toLower := same ▸ List.mem_map_of_mem member
  obtain ⟨d, inside, lower⟩ := List.mem_map.mp small
  rw [← isDirectiveCharacter_toLower, ← lower, isDirectiveCharacter_toLower]
  exact letters d inside

/-! ## The name behind the directive -/

theorem name_ne_nil {name : List Char} (read : SelectedName.readList name = .ok target) : name ≠ [] := by
  rintro rfl
  cases read

/-- A separator that is first makes the beginning a gap. -/
theorem takeWhile_ne_nil (nonempty : text ≠ []) (begins : (text.head?.any fun c => !Latin.isSeparator c) = false) :
    text.takeWhile Latin.isSeparator ≠ [] := by
  cases text with
  | nil => exact absurd rfl nonempty
  | cons c rest =>
    have separator : Latin.isSeparator c = true := by simpa using begins
    rw [List.takeWhile_cons_of_pos separator]
    exact List.cons_ne_nil _ _

theorem named_of_readTarget {word : String} (read : readTarget word text = .ok target) : Named target text := by
  rw [readTarget] at read
  by_cases glued : (text.head?.any fun c => !Latin.isSeparator c) = true
  · rw [if_pos glued] at read
    cases read
  obtain ⟨after, shape, trailing⟩ := Text.exists_append_strip Latin.isSeparator text
  rw [if_neg glued] at read
  generalize Text.strip Latin.isSeparator text = name at read shape
  by_cases missing : name.isEmpty = true
  · simp only [if_pos missing] at read
    cases read
  by_cases more : (!(name.dropWhile fun c => !Latin.isSeparator c).isEmpty) = true
  · simp only [if_neg missing, if_pos more] at read
    cases read
  simp only [if_neg missing, if_neg more] at read
  have plain : ∀ c ∈ name, Latin.isSeparator c = false := by
    have whole : name.dropWhile (fun c => !Latin.isSeparator c) = [] := by simpa using more
    intro c member
    simpa using List.dropWhile_eq_nil_iff.mp whole c member
  cases found : SelectedName.readList name with
  | error fault =>
    rw [found] at read
    cases read
  | ok other =>
    rw [found] at read
    cases read
    have nonempty : text ≠ [] := by
      intro empty
      obtain ⟨front, -⟩ := List.append_eq_nil_iff.mp (shape.symm.trans empty)
      exact name_ne_nil found (List.append_eq_nil_iff.mp front).2
    rw [shape]
    exact .name (fun c => List.mem_takeWhile_imp) (takeWhile_ne_nil nonempty (Bool.eq_false_iff.mpr glued)) plain found
      trailing

theorem Named.readTarget_eq (named : Named target text) (word : String) : readTarget word text = .ok target := by
  obtain ⟨separated, nonempty, plain, read, trailing⟩ := named
  rename_i gap name after
  have begins : ((gap ++ name ++ after).head?.any fun c => !Latin.isSeparator c) = false := by
    obtain ⟨c, rest, rfl⟩ := List.exists_cons_of_ne_nil nonempty
    simp [separated c List.mem_cons_self]
  have stripped : Text.strip Latin.isSeparator (gap ++ name ++ after) = name := by
    rw [Text.strip_append_right trailing, Text.strip_append_left separated, Text.strip_eq_self plain]
  have present : name.isEmpty = false := List.isEmpty_eq_false_iff.mpr (name_ne_nil read)
  have whole : name.dropWhile (fun c => !Latin.isSeparator c) = [] :=
    List.dropWhile_eq_nil_iff.mpr fun c member => by simp [plain c member]
  simp only [readTarget, begins, stripped, present, whole, read, List.isEmpty_nil, Bool.not_true, Bool.false_eq_true,
    if_false]

/-- Separators at the end make no difference to the name. -/
theorem readTarget_append_gap (word : String) (trailing : IsGap gap) :
    readTarget word (text ++ gap) = .ok target ↔ readTarget word text = .ok target := by
  cases text with
  | nil =>
    refine ⟨fun read => ?_, nofun⟩
    rw [List.nil_append] at read
    obtain ⟨-, -, plain, name, -⟩ := named_of_readTarget read
    obtain ⟨c, member⟩ := List.exists_mem_of_ne_nil _ (name_ne_nil name)
    have separator := trailing c (by simp [member])
    rw [plain c member] at separator
    cases separator
  | cons c rest =>
    unfold readTarget
    rw [Text.strip_append_right trailing, List.cons_append, List.head?_cons, List.head?_cons]
    by_cases glued : ((some c).any fun c => !Latin.isSeparator c) = true
    · rw [if_pos glued, if_pos glued]
      exact ⟨nofun, nofun⟩
    · rw [if_neg glued, if_neg glued]

/-! ## The word behind the sign -/

/-- What the reader makes of the text behind the sign and the separators that follow it. -/
def behindSign (text : List Char) (position : Position) (directive : String) : Except PragmaFault (Option Pragma) :=
  let word := String.ofList (text.takeWhile isDirectiveCharacter)
  let behind := text.dropWhile isDirectiveCharacter
  if word.isEmpty then .error (.directiveMissing (String.ofList (Text.trim behind)))
  else if Text.equalIgnoringAsciiCase word directive then
    match readTarget word behind with
    | .ok target => .ok (some ⟨word, some target, position⟩)
    | .error fault => .error fault
  else .ok (some ⟨word, none, position⟩)

theorem ofComment_of_sign {comment : String} {before rest : List Char} (leading : IsGap before)
    (shape : comment.toList = before ++ '@' :: rest) (position : Position) (directive : String) :
    ofComment comment position directive = behindSign (rest.dropWhile Latin.isSeparator) position directive := by
  have opened : comment.toList.dropWhile Latin.isSeparator = '@' :: rest := by
    rw [shape, List.dropWhile_append_of_pos leading]
    rfl
  unfold ofComment
  rw [opened]
  rfl

theorem ofComment_of_ordinary {comment : String} (ordinary : IsOrdinary comment.toList) (position : Position)
    (directive : String) : ofComment comment position directive = .ok none := by
  unfold ofComment
  split
  case h_1 rest opened =>
    rw [IsOrdinary, List.find?_not_eq_head?_dropWhile, opened] at ordinary
    exact absurd rfl ordinary
  case h_2 => rfl

/-- The longest word behind the sign, perhaps the empty one, and the text that follows it, with all separators between
the sign and the word. -/
structure Opened (word behind text : List Char) : Prop where
  signed : Signed word behind text
  letters : ∀ c ∈ word, isDirectiveCharacter c = true
  longest : ∀ c ∈ behind.head?, isDirectiveCharacter c = false
  begins : ∀ c ∈ (word ++ behind).head?, Latin.isSeparator c = false

theorem exists_sign (notOrdinary : ¬IsOrdinary text) :
    ∃ before rest, text = before ++ '@' :: rest ∧ IsGap before := by
  obtain ⟨-, before, rest, shape, leading⟩ := List.find?_eq_some_iff_append.mp (not_not.mp notOrdinary)
  exact ⟨before, rest, shape, fun c member => by simpa using leading c member⟩

theorem opened_of_sign {before : List Char} (leading : IsGap before) (rest : List Char) :
    Opened ((rest.dropWhile Latin.isSeparator).takeWhile isDirectiveCharacter)
      ((rest.dropWhile Latin.isSeparator).dropWhile isDirectiveCharacter) (before ++ '@' :: rest) where
  signed := by
    have parts : before ++ '@' :: rest =
        before ++ '@' :: (rest.takeWhile Latin.isSeparator ++
          (rest.dropWhile Latin.isSeparator).takeWhile isDirectiveCharacter ++
          (rest.dropWhile Latin.isSeparator).dropWhile isDirectiveCharacter) := by
      rw [List.append_assoc, List.takeWhile_append_dropWhile, List.takeWhile_append_dropWhile]
    rw [parts]
    exact .sign leading fun c => List.mem_takeWhile_imp
  letters := fun c => List.mem_takeWhile_imp
  longest := Text.head?_dropWhile
  begins := by
    rw [List.takeWhile_append_dropWhile]
    exact Text.head?_dropWhile

theorem exists_opened (notOrdinary : ¬IsOrdinary text) : ∃ word behind, Opened word behind text := by
  obtain ⟨before, rest, rfl, leading⟩ := exists_sign notOrdinary
  exact ⟨_, _, opened_of_sign leading rest⟩

/-- The word decides what a comment with the sign is, and for the directive the name behind it. -/
theorem Opened.ofComment_eq {comment : String} (opened : Opened word behind comment.toList) (position : Position)
    (directive : String) :
    ofComment comment position directive =
      if word = [] then .error (.directiveMissing (String.ofList (Text.trim behind)))
      else if SameWord word directive.toList then
        match readTarget (String.ofList word) behind with
        | .ok target => .ok (some ⟨String.ofList word, some target, position⟩)
        | .error fault => .error fault
      else .ok (some ⟨String.ofList word, none, position⟩) := by
  obtain ⟨signed, letters, longest, begins⟩ := opened
  generalize shape : comment.toList = text at signed
  obtain ⟨leading, inner⟩ := signed
  rename_i before between
  have rest : (between ++ word ++ behind).dropWhile Latin.isSeparator = word ++ behind := by
    rw [List.append_assoc, List.dropWhile_append_of_pos inner, Text.dropWhile_of_head? begins]
  have front : (word ++ behind).takeWhile isDirectiveCharacter = word := by
    rw [List.takeWhile_append_of_pos letters, Text.takeWhile_of_head? longest, List.append_nil]
  have back : (word ++ behind).dropWhile isDirectiveCharacter = behind := by
    rw [List.dropWhile_append_of_pos letters, Text.dropWhile_of_head? longest]
  have empty : (String.ofList word).isEmpty = true ↔ word = [] := by simp [String.isEmpty_iff]
  have known :
      Text.equalIgnoringAsciiCase (String.ofList word) directive = true ↔ SameWord word directive.toList := by
    rw [Text.equalIgnoringAsciiCase_iff, String.toList_ofList, SameWord]
  rw [ofComment_of_sign leading shape, rest, behindSign, front, back]
  simp only [empty, known]

theorem opened_of_word (signed : Signed word behind text) (nonempty : word ≠ [])
    (letters : ∀ c ∈ word, isDirectiveCharacter c = true)
    (longest : ∀ c ∈ behind.head?, isDirectiveCharacter c = false) : Opened word behind text := by
  refine ⟨signed, letters, longest, fun c first => ?_⟩
  obtain ⟨d, rest, rfl⟩ := List.exists_cons_of_ne_nil nonempty
  obtain rfl : d = c := by simpa using first
  exact not_isSeparator_of_directive (letters d List.mem_cons_self)

theorem Named.head? (named : Named target behind) : ∀ c ∈ behind.head?, isDirectiveCharacter c = false := by
  obtain ⟨separated, nonempty, -, -, -⟩ := named
  rename_i gap name after
  obtain ⟨d, rest, rfl⟩ := List.exists_cons_of_ne_nil nonempty
  intro c first
  obtain rfl : d = c := by simpa using first
  exact not_directive_of_isSeparator (separated d List.mem_cons_self)

theorem SameWord.ne_nil (same : SameWord word directive.toList) (nonempty : directive ≠ "") : word ≠ [] := by
  rintro rfl
  have empty : directive.toList = [] := List.map_eq_nil_iff.mp same.symm
  exact nonempty (String.toList_eq_nil_iff.mp empty)

/-! ## What each comment is -/

variable {comment : String}

theorem Opened.ofComment_ne_none (opened : Opened word behind comment.toList) (position : Position)
    (directive : String) : ofComment comment position directive ≠ .ok none := by
  rw [opened.ofComment_eq]
  split_ifs
  · exact nofun
  · cases readTarget (String.ofList word) behind <;> exact nofun
  · exact nofun

theorem ofComment_eq_none_iff (comment : String) (position : Position) (directive : String) :
    ofComment comment position directive = .ok none ↔ IsOrdinary comment.toList := by
  refine ⟨fun read => ?_, fun ordinary => ofComment_of_ordinary ordinary position directive⟩
  by_contra notOrdinary
  obtain ⟨word, behind, opened⟩ := exists_opened notOrdinary
  exact opened.ofComment_ne_none position directive read

/-- Where a pragma is read there is a word behind the sign, which decides whether the pragma has a target. -/
theorem exists_word_of_some {pragma : Pragma} (read : ofComment comment position directive = .ok (some pragma)) :
    ∃ word behind, Opened word behind comment.toList ∧ word ≠ [] ∧
      ((SameWord word directive.toList ∧
          ∃ target, Named target behind ∧ pragma = ⟨String.ofList word, some target, position⟩) ∨
        (¬SameWord word directive.toList ∧ pragma = ⟨String.ofList word, none, position⟩)) := by
  have notOrdinary : ¬IsOrdinary comment.toList := by
    intro ordinary
    rw [ofComment_of_ordinary ordinary] at read
    cases read
  obtain ⟨word, behind, opened⟩ := exists_opened notOrdinary
  rw [opened.ofComment_eq] at read
  by_cases missing : word = []
  · rw [if_pos missing] at read
    cases read
  refine ⟨word, behind, opened, missing, ?_⟩
  rw [if_neg missing] at read
  by_cases same : SameWord word directive.toList
  · rw [if_pos same] at read
    cases found : readTarget (String.ofList word) behind with
    | error fault =>
      rw [found] at read
      cases read
    | ok target =>
      rw [found] at read
      cases read
      exact .inl ⟨same, target, named_of_readTarget found, rfl⟩
  · rw [if_neg same] at read
    cases read
    exact .inr ⟨same, rfl⟩

theorem target_eq_some_iff (position : Position) (nonempty : directive ≠ "")
    (letters : ∀ c ∈ directive.toList, isDirectiveCharacter c = true) (target : SelectedName) :
    (∃ pragma, ofComment comment position directive = .ok (some pragma) ∧ pragma.target = some target) ↔
      Asks directive target comment.toList := by
  constructor
  · rintro ⟨pragma, read, aimed⟩
    obtain ⟨word, behind, opened, -, ⟨same, other, named, rfl⟩ | ⟨-, rfl⟩⟩ := exists_word_of_some read
    · cases aimed
      exact ⟨word, behind, opened.signed, same, named⟩
    · cases aimed
  · rintro ⟨word, behind, signed, same, named⟩
    have present := same.ne_nil nonempty
    have opened := opened_of_word signed present (same.letters letters) named.head?
    refine ⟨⟨String.ofList word, some target, position⟩, ?_, rfl⟩
    rw [opened.ofComment_eq, if_neg present, if_pos same, named.readTarget_eq]

theorem target_eq_none_iff (comment : String) (position : Position) (directive : String) :
    (∃ pragma, ofComment comment position directive = .ok (some pragma) ∧ pragma.target = none) ↔
      HasOtherWord directive comment.toList := by
  constructor
  · rintro ⟨pragma, read, aimed⟩
    obtain ⟨word, behind, opened, present, ⟨-, target, -, rfl⟩ | ⟨differs, -⟩⟩ := exists_word_of_some read
    · cases aimed
    · exact ⟨word, behind, opened.signed, present, opened.letters, opened.longest, differs⟩
  · rintro ⟨word, behind, signed, present, letters, longest, differs⟩
    have opened := opened_of_word signed present letters longest
    refine ⟨⟨String.ofList word, none, position⟩, ?_, rfl⟩
    rw [opened.ofComment_eq, if_neg present, if_neg differs]

/-! ## Separators at one place -/

variable {answer : Option Pragma} {other : String}

theorem IsGap.find?_eq_none (isGap : IsGap gap) : (gap.find? fun c => !Latin.isSeparator c) = none :=
  List.find?_eq_none.mpr fun c member => by simp [isGap c member]

/-- Separators at the end are behind the word, or behind the sign if there is nothing else. -/
theorem Opened.append_gap (opened : Opened word behind text) (isGap : IsGap gap) :
    ∃ behind', Opened word behind' (text ++ gap) ∧ (behind' = behind ++ gap ∨ word = []) := by
  obtain ⟨⟨leading, inner⟩, letters, longest, begins⟩ := opened
  rename_i before between
  by_cases nothing : word ++ behind = []
  · obtain ⟨rfl, rfl⟩ := List.append_eq_nil_iff.mp nothing
    have shape : before ++ '@' :: (between ++ [] ++ []) ++ gap = before ++ '@' :: (between ++ gap ++ [] ++ []) := by
      simp
    refine ⟨[], ⟨?_, letters, longest, begins⟩, .inr rfl⟩
    rw [shape]
    exact .sign leading (inner.append isGap)
  · have shape : before ++ '@' :: (between ++ word ++ behind) ++ gap =
        before ++ '@' :: (between ++ word ++ (behind ++ gap)) := by simp
    refine ⟨behind ++ gap, ⟨?_, letters, ?_, ?_⟩, .inl rfl⟩
    · rw [shape]
      exact .sign leading inner
    · cases behind with
      | nil => exact fun c first => not_directive_of_isSeparator (isGap c (List.mem_of_head? first))
      | cons d rest => exact longest
    · rw [← List.append_assoc]
      obtain ⟨d, rest, same⟩ := List.exists_cons_of_ne_nil nothing
      rw [same] at begins ⊢
      exact begins

theorem ofComment_append_gap (isGap : IsGap gap) (shape : other.toList = comment.toList ++ gap) :
    ofComment other position directive = .ok answer ↔ ofComment comment position directive = .ok answer := by
  by_cases ordinary : IsOrdinary comment.toList
  · have ordinary' : IsOrdinary other.toList := by
      rw [shape, IsOrdinary, List.find?_append, isGap.find?_eq_none, Option.or_none]
      exact ordinary
    rw [ofComment_of_ordinary ordinary, ofComment_of_ordinary ordinary']
  · obtain ⟨word, behind, opened⟩ := exists_opened ordinary
    obtain ⟨behind', opened', same⟩ := opened.append_gap isGap
    rw [← shape] at opened'
    rw [opened.ofComment_eq, opened'.ofComment_eq]
    by_cases missing : word = []
    · rw [if_pos missing, if_pos missing]
      exact ⟨nofun, nofun⟩
    obtain rfl := same.resolve_right missing
    rw [if_neg missing, if_neg missing]
    by_cases known : SameWord word directive.toList
    · rw [if_pos known, if_pos known]
      cases found : readTarget (String.ofList word) (behind ++ gap) with
      | ok target => rw [(readTarget_append_gap _ isGap).mp found]
      | error fault =>
        cases found' : readTarget (String.ofList word) behind with
        | ok target =>
          rw [(readTarget_append_gap _ isGap).mpr found'] at found
          cases found
        | error fault' => exact ⟨nofun, nofun⟩
    · rw [if_neg known, if_neg known]

/-- Separators at one place more or less make no difference to what a comment is. -/
theorem Respaced.ofComment_eq (respaced : Respaced comment.toList other.toList) :
    ofComment other position directive = .ok answer ↔ ofComment comment position directive = .ok answer := by
  generalize shape : comment.toList = text, shape' : other.toList = text' at respaced
  cases respaced with
  | before first second =>
    rw [ofComment, ofComment, shape, shape', List.dropWhile_append_of_pos first, List.dropWhile_append_of_pos second]
  | between leading first second =>
    rw [ofComment_of_sign leading shape, ofComment_of_sign leading shape', List.dropWhile_append_of_pos first,
      List.dropWhile_append_of_pos second]
  | @after text gap gap' first second =>
    have behind : comment.toList = (String.ofList text).toList ++ gap := by rw [String.toList_ofList, shape]
    have behind' : other.toList = (String.ofList text).toList ++ gap' := by rw [String.toList_ofList, shape']
    rw [ofComment_append_gap first behind, ofComment_append_gap second behind']
  | inside begins ordinary first second =>
    have isOrdinary : IsOrdinary comment.toList := by simp [shape, IsOrdinary, List.find?_append, begins, ordinary]
    have isOrdinary' : IsOrdinary other.toList := by simp [shape', IsOrdinary, List.find?_append, begins, ordinary]
    rw [ofComment_of_ordinary isOrdinary, ofComment_of_ordinary isOrdinary']

/-- For a directive that is a word every comment is a pragma with a target, an ordinary comment, a pragma with another
word or a fault, as the grammar says, and separators more or less change neither this nor the target. -/
theorem read_by_grammar (directive : String) (nonempty : directive ≠ "")
    (letters : ∀ c ∈ directive.toList, isDirectiveCharacter c = true) (comment : String) (position : Position) :
    (∀ target,
      (∃ pragma, ofComment comment position directive = .ok (some pragma) ∧ pragma.target = some target) ↔
        Asks directive target comment.toList) ∧
    (ofComment comment position directive = .ok none ↔ IsOrdinary comment.toList) ∧
    ((∃ pragma, ofComment comment position directive = .ok (some pragma) ∧ pragma.target = none) ↔
      HasOtherWord directive comment.toList) ∧
    ((∃ fault, ofComment comment position directive = .error fault) ↔
      (∀ target, ¬Asks directive target comment.toList) ∧ ¬IsOrdinary comment.toList ∧
        ¬HasOtherWord directive comment.toList) ∧
    ∀ other : String, Respaced comment.toList other.toList → ∀ answer,
      ofComment other position directive = .ok answer ↔ ofComment comment position directive = .ok answer := by
  refine ⟨target_eq_some_iff position nonempty letters, ofComment_eq_none_iff comment position directive,
    target_eq_none_iff comment position directive, ?_, fun other respaced answer => respaced.ofComment_eq⟩
  simp only [← target_eq_some_iff position nonempty letters, ← ofComment_eq_none_iff comment position directive,
    ← target_eq_none_iff comment position directive]
  rcases ofComment comment position directive with fault | _ | ⟨word, _ | target, place⟩ <;> simp

/-- A no-break space behind the sign and letters of the other case do not hide what is asked for. -/
theorem read_by_grammar_respaced :
    "elab" ≠ "" ∧ (∀ c ∈ "elab".toList, isDirectiveCharacter c = true) ∧
      Asks "elab" ⟨.basic "work", [.basic "pkg_a"]⟩ "@ELAB work.pkg_a ".toList ∧
      ∃ pragma, ofComment "@\u00a0ELAB work.pkg_a " ⟨1, 1⟩ "elab" = .ok (some pragma) ∧
        pragma.target = some ⟨.basic "work", [.basic "pkg_a"]⟩ := by
  have nonempty : "elab" ≠ "" := by decide
  have letters : ∀ c ∈ "elab".toList, isDirectiveCharacter c = true := List.all_eq_true.mp rfl
  have none : IsGap [] := List.forall_mem_nil _
  have blank : IsGap [' '] := List.all_eq_true.mp rfl
  have noBreak : IsGap ['\u00a0'] := List.all_eq_true.mp rfl
  have plain : ∀ c ∈ "work.pkg_a".toList, (!Latin.isSeparator c) = true := List.all_eq_true.mp rfl
  have name : Named ⟨.basic "work", [.basic "pkg_a"]⟩ " work.pkg_a ".toList :=
    @Named.name _ [' '] "work.pkg_a".toList [' '] blank (List.cons_ne_nil _ _)
      (fun c member => by simpa using plain c member) (by decide +kernel) blank
  have asks : Asks "elab" ⟨.basic "work", [.basic "pkg_a"]⟩ "@ELAB work.pkg_a ".toList :=
    ⟨"ELAB".toList, " work.pkg_a ".toList, @Signed.sign _ _ [] [] none none, rfl, name⟩
  have spaced : Respaced "@ELAB work.pkg_a ".toList "@\u00a0ELAB work.pkg_a ".toList :=
    @Respaced.between [] [] ['\u00a0'] "ELAB work.pkg_a ".toList none none noBreak
  obtain ⟨asked, -, -, -, respaced⟩ := read_by_grammar "elab" nonempty letters "@ELAB work.pkg_a " ⟨1, 1⟩
  obtain ⟨pragma, read, aimed⟩ := (asked _).mpr asks
  exact ⟨nonempty, letters, asks, pragma, (respaced _ spaced _).mpr read, aimed⟩

end Pragma

end VhdlOrder
