import VhdlOrder.Proofs.Lexical.Spelling

/-! # Delimiters are as long as possible

A delimiter is scanned with one character of look-ahead: it is read on as long as the characters spell a delimiter.
Every beginning of a longer delimiter is a delimiter itself, `?/` excepted, which is only the beginning of `?/=`. So the
longest delimiter that the text begins with is what is scanned, but where `?/` is followed by another character the
scan has read the slash already and finds no delimiter, although the question mark alone is one.
-/

namespace VhdlOrder

namespace Delimiter

/-- The characters `spelling` write the delimiter `mark` and begin `text`, and no longer beginning of `text` writes a
delimiter. -/
structure Longest (mark : Delimiter) (spelling text : List Char) : Prop where
  spelled : (Token.delimiter mark).Spelled spelling
  begins : spelling <+: text
  longest : ∀ other longer, (Token.delimiter other).Spelled longer → longer <+: text → longer.length ≤ spelling.length

/-- A text writes a delimiter if and only if it is read as the delimiter. -/
theorem ofText?_eq_some_iff {text : List Char} {mark : Delimiter} :
    ofText? (String.ofList text) = some mark ↔ (Token.delimiter mark).Spelled text := by
  refine ⟨Scanner.spelled_delimiter, fun spelled => ?_⟩
  by_cases bar : mark = .bar
  · subst bar
    obtain rfl | rfl := spelled <;> rfl
  · have same : text = mark.spelling.toList := by cases mark <;> first | exact spelled | exact absurd rfl bar
    rw [same, String.ofList_toList]
    cases mark <;> rfl

/-- Delimiters have at most three characters, and the first two of three are a delimiter or `?/`. -/
theorem spelled_cases {text : List Char} {mark : Delimiter} (spelled : (Token.delimiter mark).Spelled text) :
    (∃ a, text = [a]) ∨ (∃ a b, text = [a, b]) ∨
      ∃ a b c, text = [a, b, c] ∧ Scanner.extendsDelimiter [a, b] = true := by
  obtain same | ⟨rfl, same⟩ := Scanner.spelling_of_ofText? (ofText?_eq_some_iff.mpr spelled)
  · subst same
    cases mark <;> first
      | exact .inl ⟨_, rfl⟩
      | exact .inr (.inl ⟨_, _, rfl⟩)
      | exact .inr (.inr ⟨_, _, _, rfl, rfl⟩)
  · exact .inl ⟨_, same⟩

/-- `text` begins with a delimiter of at most `bound` characters if with any. -/
def Within (bound : Nat) (text : List Char) : Prop :=
  ∀ mark spelling, (Token.delimiter mark).Spelled spelling → spelling <+: text → spelling.length ≤ bound

theorem within_three (text : List Char) : Within 3 text := by
  intro mark spelling spelled _
  obtain ⟨a, rfl⟩ | ⟨a, b, rfl⟩ | ⟨a, b, c, rfl, -⟩ := spelled_cases spelled
  all_goals simp

/-- No delimiter of three characters begins the text if the third character does not complete one. -/
theorem within_two {first second : Char} {rest : List Char}
    (incomplete : ∀ third, rest.head? = some third → ofText? (String.ofList [first, second, third]) = none) :
    Within 2 (first :: second :: rest) := by
  intro mark spelling spelled begins
  obtain ⟨a, rfl⟩ | ⟨a, b, rfl⟩ | ⟨a, b, c, rfl, -⟩ := spelled_cases spelled
  · simp
  · simp
  · obtain ⟨more, shape⟩ := begins
    obtain ⟨rfl, rfl, rfl⟩ : a = first ∧ b = second ∧ rest = c :: more := by simpa [eq_comm] using shape
    cases (incomplete c rfl).symm.trans (ofText?_eq_some_iff.mpr spelled)

/-- No longer delimiter begins the text if the second character goes on with none. -/
theorem within_one {first : Char} {rest : List Char}
    (alone : ∀ second, rest.head? = some second → Scanner.extendsDelimiter [first, second] = false) :
    Within 1 (first :: rest) := by
  intro mark spelling spelled begins
  obtain ⟨a, rfl⟩ | ⟨a, b, rfl⟩ | ⟨a, b, c, rfl, extended⟩ := spelled_cases spelled
  · simp
  · obtain ⟨more, shape⟩ := begins
    obtain ⟨rfl, rfl⟩ : a = first ∧ rest = b :: more := by simpa [eq_comm] using shape
    have extended : Scanner.extendsDelimiter [a, b] = true := by
      simp only [Scanner.extendsDelimiter, ofText?_eq_some_iff.mpr spelled]
      rfl
    cases (alone b rfl).symm.trans extended
  · obtain ⟨more, shape⟩ := begins
    obtain ⟨rfl, rfl⟩ : a = first ∧ rest = b :: c :: more := by simpa [eq_comm] using shape
    cases (alone b rfl).symm.trans extended

theorem longest_of_within {mark : Delimiter} {spelling text : List Char}
    (read : ofText? (String.ofList spelling) = some mark) (begins : spelling <+: text)
    (within : Within spelling.length text) : Longest mark spelling text where
  spelled := ofText?_eq_some_iff.mp read
  begins := begins
  longest other longer := within other longer

end Delimiter

namespace Scanner

open Delimiter (Longest Within ofText?_eq_some_iff)

theorem delimiterOf_some {text : List Char} {mark : Delimiter}
    (read : Delimiter.ofText? (String.ofList text) = some mark) (cursor : Cursor) :
    delimiterOf text cursor = .ok (.delimiter mark) cursor := by
  simp only [delimiterOf, read]
  rfl

theorem delimiterOf_none {text : List Char} (unread : Delimiter.ofText? (String.ofList text) = none)
    (cursor : Cursor) : delimiterOf text cursor = .error (.delimiterText (String.ofList text)) cursor := by
  simp only [delimiterOf, unread]
  rfl

/-- A question mark and a slash that no equality sign follows. -/
def StraySlash (first : Char) (rest : List Char) : Prop :=
  first = '?' ∧ rest.head? = some '/' ∧ rest.tail.head? ≠ some '='

/-- What is scanned behind `first` is the longest delimiter that the text begins with. -/
def Munches (first : Char) (cursor : Cursor) : Prop :=
  ∃ mark spelling later, delimiter first cursor = .ok (.delimiter mark) later ∧
    Longest mark (first :: spelling) (first :: cursor.rest) ∧ cursor.Reaches spelling later

/-- No beginning of the text writes a delimiter, and nothing is read. -/
def Refuses (first : Char) (cursor : Cursor) : Prop :=
  delimiter first cursor = .error (.delimiterText (String.ofList [first])) cursor ∧
    ∀ mark spelling, (Token.delimiter mark).Spelled spelling → ¬ spelling <+: first :: cursor.rest

section

variable {first second third : Char} {position : Position} {rest : List Char}

theorem delimiter_of_alone
    (alone : ∀ second, rest.head? = some second → extendsDelimiter [first, second] = false) :
    delimiter first ⟨position, rest⟩ = delimiterOf [first] ⟨position, rest⟩ := by
  have refused : accept? (fun second => extendsDelimiter [first, second]) ⟨position, rest⟩ =
      .ok none ⟨position, rest⟩ := by
    cases rest with
    | nil => rfl
    | cons second rest => simp [accept?, alone second rfl]
  simp only [delimiter, bind, EStateM.bind, refused]

theorem delimiter_of_pair (extended : extendsDelimiter [first, second] = true)
    (incomplete : ∀ third, rest.head? = some third → Delimiter.ofText? (String.ofList [first, second, third]) = none) :
    delimiter first ⟨position, second :: rest⟩ = delimiterOf [first, second] ⟨position.step second, rest⟩ := by
  have refused : accept? (fun third => (Delimiter.ofText? (String.ofList [first, second, third])).isSome)
      ⟨position.step second, rest⟩ = .ok none ⟨position.step second, rest⟩ := by
    cases rest with
    | nil => rfl
    | cons third rest => simp only [accept?, incomplete third rfl, Option.isSome_none, Bool.false_eq_true, if_false]
  have accepted : accept? (fun second => extendsDelimiter [first, second]) ⟨position, second :: rest⟩ =
      .ok (some second) ⟨position.step second, rest⟩ := if_pos extended
  simp only [delimiter, bind, EStateM.bind, accepted, refused]

theorem delimiter_of_triple (extended : extendsDelimiter [first, second] = true)
    (complete : (Delimiter.ofText? (String.ofList [first, second, third])).isSome = true) :
    delimiter first ⟨position, second :: third :: rest⟩ =
      delimiterOf [first, second, third] ⟨(position.step second).step third, rest⟩ := by
  simp only [delimiter, bind, EStateM.bind, accept?, extended, complete, if_true]

theorem munches_of_read {mark : Delimiter} {spelling : List Char}
    (read : Delimiter.ofText? (String.ofList (first :: spelling)) = some mark)
    (scanned : delimiter first ⟨position, spelling ++ rest⟩ =
      delimiterOf (first :: spelling) ⟨position.advance spelling, rest⟩)
    (within : Within (first :: spelling).length (first :: spelling ++ rest)) :
    Munches first ⟨position, spelling ++ rest⟩ :=
  ⟨mark, spelling, _, scanned.trans (delimiterOf_some read _),
    Delimiter.longest_of_within read (List.prefix_append _ rest) within, rfl, rfl⟩

theorem not_straySlash_of_triple (complete : (Delimiter.ofText? (String.ofList [first, second, third])).isSome = true) :
    ¬ StraySlash first (second :: third :: rest) := by
  rintro ⟨rfl, slash, noEqual⟩
  obtain rfl : second = '/' := Option.some.inj slash
  obtain ⟨mark, read⟩ := Option.isSome_iff_exists.mp complete
  refine noEqual (congrArg some ?_)
  obtain same | ⟨-, same⟩ := spelling_of_ofText? read
  · cases mark <;> cases same
    rfl
  · cases same

/-- If the second character goes on with no delimiter, the first one is a delimiter or no beginning of the text is. -/
theorem munches_or_refuses_of_alone
    (alone : ∀ second, rest.head? = some second → extendsDelimiter [first, second] = false) :
    Munches first ⟨position, rest⟩ ∨ Refuses first ⟨position, rest⟩ := by
  have scanned : delimiter first ⟨position, rest⟩ = delimiterOf [first] ⟨position, rest⟩ := delimiter_of_alone alone
  have within := Delimiter.within_one alone
  cases read : Delimiter.ofText? (String.ofList [first]) with
  | some mark => exact .inl (munches_of_read read scanned within)
  | none =>
    refine .inr ⟨scanned.trans (delimiterOf_none read _), fun mark spelling spelled begins => ?_⟩
    have short := within mark spelling spelled begins
    obtain ⟨a, rfl⟩ | ⟨a, b, rfl⟩ | ⟨a, b, c, rfl, -⟩ := Delimiter.spelled_cases spelled
    · obtain rfl : a = first := by simpa using begins
      cases read.symm.trans (ofText?_eq_some_iff.mpr spelled)
    · simp at short
    · simp at short

/-- A delimiter is scanned if the text begins with one, and the longest that it begins with; otherwise nothing is read.
Only where a question mark and a slash are no beginning of `?/=`, the slash is read and no delimiter is found. -/
theorem delimiter_munches (first : Char) (position : Position) (rest : List Char) :
    (StraySlash first rest ∧
        delimiter first ⟨position, rest⟩ = .error (.delimiterText "?/") ⟨position.step '/', rest.tail⟩) ∨
      ¬ StraySlash first rest ∧ (Munches first ⟨position, rest⟩ ∨ Refuses first ⟨position, rest⟩) := by
  by_cases alone : ∀ second, rest.head? = some second → extendsDelimiter [first, second] = false
  · refine .inr ⟨?_, munches_or_refuses_of_alone alone⟩
    rintro ⟨rfl, slash, -⟩
    exact absurd (alone '/' slash) (by decide)
  obtain ⟨second, head, extended⟩ : ∃ second, rest.head? = some second ∧ extendsDelimiter [first, second] = true := by
    simpa using alone
  obtain ⟨more, rfl⟩ := List.head?_eq_some_iff.mp head
  by_cases incomplete : ∀ third, more.head? = some third →
      Delimiter.ofText? (String.ofList [first, second, third]) = none
  · have scanned : delimiter first ⟨position, second :: more⟩ =
        delimiterOf [first, second] ⟨position.step second, more⟩ := delimiter_of_pair extended incomplete
    cases read : Delimiter.ofText? (String.ofList [first, second]) with
    | some mark =>
      refine .inr ⟨?_, .inl (munches_of_read read scanned (Delimiter.within_two incomplete))⟩
      rintro ⟨rfl, slash, -⟩
      obtain rfl : second = '/' := Option.some.inj slash
      cases read
    | none =>
      -- what goes on without being a delimiter is `?/`
      obtain ⟨rfl, rfl⟩ : first = '?' ∧ second = '/' := by
        simpa only [extendsDelimiter, read, Option.isSome_none, Bool.false_or, beq_iff_eq, List.cons.injEq,
          and_true] using extended
      refine .inl ⟨⟨rfl, rfl, fun equal => ?_⟩, scanned.trans (delimiterOf_none read _)⟩
      cases incomplete '=' equal
  · obtain ⟨third, ahead, complete⟩ : ∃ third, more.head? = some third ∧
        Delimiter.ofText? (String.ofList [first, second, third]) ≠ none := by
      simpa using incomplete
    obtain ⟨tail, rfl⟩ := List.head?_eq_some_iff.mp ahead
    obtain ⟨mark, read⟩ := Option.ne_none_iff_exists'.mp complete
    have isSome : (Delimiter.ofText? (String.ofList [first, second, third])).isSome = true := by
      rw [read]
      rfl
    exact .inr ⟨not_straySlash_of_triple isSome,
      .inl (munches_of_read read (delimiter_of_triple extended isSome) (Delimiter.within_three _))⟩

/-- The question mark alone is a delimiter that begins the text, and yet no delimiter is scanned. -/
theorem exists_delimiter_not_scanned :
    ¬ ∀ (first : Char) (cursor : Cursor), Munches first cursor ∨ Refuses first cursor := by
  intro all
  have failed : delimiter '?' ⟨⟨1, 1⟩, ['/', 'x']⟩ = .error (.delimiterText "?/") ⟨⟨1, 2⟩, ['x']⟩ := rfl
  obtain ⟨mark, spelling, later, scanned, -⟩ | ⟨-, none⟩ := all '?' ⟨⟨1, 1⟩, ['/', 'x']⟩
  · cases failed.symm.trans scanned
  · exact none .question ['?'] rfl ⟨['/', 'x'], rfl⟩

end

end Scanner

end VhdlOrder
