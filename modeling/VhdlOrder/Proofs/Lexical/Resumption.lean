import Mathlib.Data.List.TakeWhile
import VhdlOrder.Proofs.Lexical.Delimiters
import VhdlOrder.Proofs.Lexical.Lexing

/-! # Where reading goes on after a fault

After a fault the text is skipped up to the next separator or semicolon. The search for it begins behind the last
character that the failing scan has read. Most faults are found in a character that stays unread, and the scan has read
none that reading resumes at; then nothing is lost. But a few scans read the character that they fail at, and those of
literals and comments read separators and semicolons as part of them. If the last character read is a separator or a
semicolon, it is passed over together with everything up to the next one.
-/

namespace VhdlOrder

/-- Whether a scan with this fault stops before the first separator or semicolon that it comes to. -/
def LexicalFault.stopsShort : LexicalFault → Bool
  | .digitAfterUnderline | .exponentStart | .bitStringClosing | .characterNotGraphic | .closingMissing _
  | .closingMismatch _ _ | .literalNotGraphic | .literalUnclosed | .commentUnclosed => false
  | _ => true

namespace Scanner

open Lexer (resumesAt)

variable {α β : Type}

/-- Success, or a fault that stops short. -/
def StopsShort : EStateM.Result LexicalFault Cursor α → Prop
  | .ok _ _ => True
  | .error fault _ => fault.stopsShort = true

/-- If the scan from `cursor` succeeds or stops short, reading does not resume at the character read last. -/
def Spares (scan : Scanner α) (cursor : Cursor) : Prop :=
  StopsShort (scan cursor) → ∃ text, cursor.Reaches text (stop (scan cursor)) ∧
    ∀ c, text.getLast? = some c → resumesAt c = false

/-- No fault of the scan stops short. -/
def Swallows (scan : Scanner α) : Prop :=
  ∀ cursor fault later, scan cursor = .error fault later → fault.stopsShort = false

theorem Swallows.pure (value : α) : Swallows (pure value : Scanner α) := by
  rintro cursor fault later ⟨⟩

theorem Swallows.throw {fault : LexicalFault} (long : fault.stopsShort = false) :
    Swallows (throw fault : Scanner α) := by
  rintro cursor _ _ ⟨⟩
  exact long

theorem Swallows.bind {first : Scanner α} {second : α → Scanner β} (left : Swallows first)
    (right : ∀ value, Swallows (second value)) : Swallows (first >>= second) := by
  intro cursor fault later failed
  change EStateM.bind first second cursor = _ at failed
  unfold EStateM.bind at failed
  cases answer : first cursor with
  | error found middle =>
    rw [answer] at failed
    cases failed
    exact left cursor fault later answer
  | ok value middle =>
    rw [answer] at failed
    exact right value middle fault later failed

theorem Swallows.ite {condition : Prop} [Decidable condition] {yes no : Scanner α} (left : Swallows yes)
    (right : Swallows no) : Swallows (if condition then yes else no) := by
  split <;> assumption

variable {cursor : Cursor}

theorem cons_eq_error_iff {c : Char} {result : EStateM.Result LexicalFault Cursor (List Char)} {fault : LexicalFault}
    {later : Cursor} : cons c result = .error fault later ↔ result = .error fault later := by
  cases result <;> simp [cons]

/-- A scan that succeeds at a closing character and has no fault that stops short. -/
theorem Swallows.spares {scan : Scanner α} (swallows : Swallows scan) {close : Char}
    (plain : resumesAt close = false) (reads : Reads (fun _ text => text.getLast? = some close) scan) :
    Spares scan cursor := by
  intro short
  cases scanned : scan cursor with
  | error fault later =>
    rw [scanned] at short
    cases (swallows cursor fault later scanned).symm.trans short
  | ok value later =>
    obtain ⟨text, last, reach, -⟩ := reads cursor value later scanned
    exact ⟨text, reach, fun c ending => by rw [← Option.some.inj (last.symm.trans ending), plain]⟩

theorem Spares.of_unmoved {scan : Scanner α} (unmoved : stop (scan cursor) = cursor) : Spares scan cursor :=
  fun _ => ⟨[], by rw [unmoved]; exact .refl cursor, by simp⟩

theorem Spares.pure (value : α) : Spares (pure value : Scanner α) cursor := .of_unmoved rfl

theorem Spares.throw (fault : LexicalFault) : Spares (throw fault : Scanner α) cursor := .of_unmoved rfl

theorem Spares.bind {first : Scanner α} {second : α → Scanner β} (left : Spares first cursor)
    (right : ∀ value later, first cursor = .ok value later → Spares (second value) later) :
    Spares (first >>= second) cursor := by
  intro short
  change StopsShort (EStateM.bind first second cursor) at short
  change ∃ text, cursor.Reaches text (stop (EStateM.bind first second cursor)) ∧ _
  unfold EStateM.bind at short ⊢
  cases answer : first cursor with
  | error fault later =>
    rw [answer] at short
    simpa only [answer, stop] using left (by rwa [answer])
  | ok value later =>
    rw [answer] at short
    obtain ⟨one, reachOne, lastOne⟩ := left (by rw [answer]; trivial)
    obtain ⟨two, reachTwo, lastTwo⟩ := right value later answer short
    rw [answer] at reachOne
    refine ⟨one ++ two, reachOne.trans reachTwo, fun c last => ?_⟩
    rw [List.getLast?_append] at last
    cases ending : two.getLast? with
    | none => exact lastOne c (by simpa [ending] using last)
    | some d => exact lastTwo c (by rw [ending]; simpa [ending] using last)

theorem Spares.ite {condition : Prop} [Decidable condition] {yes no : Scanner α}
    (left : condition → Spares yes cursor) (right : ¬ condition → Spares no cursor) :
    Spares (if condition then yes else no) cursor := by
  split
  · exact left ‹_›
  · exact right ‹_›

theorem Spares.demand {found : Option α} {fault : LexicalFault} {second : α → Scanner β}
    (right : ∀ value, found = some value → Spares (second value) cursor) :
    Spares (demand found fault >>= second) cursor := by
  cases found with
  | none => exact .of_unmoved rfl
  | some value => exact right value rfl

/-- What follows is looked at and stays unread. -/
theorem Spares.peek {second : Option Char → Scanner α} (right : Spares (second cursor.peek?) cursor) :
    Spares (peek? >>= second) cursor := right

theorem Spares.peekIs {accepts : Char → Bool} {second : Bool → Scanner α}
    (right : Spares (second (cursor.peekIs accepts)) cursor) : Spares (peekIs accepts >>= second) cursor := right

theorem spares_nonempty (text : List Char) (fault : LexicalFault) : Spares (nonempty text fault) cursor :=
  .ite (fun _ => .throw fault) fun _ => .pure text

theorem spares_accept? {accepts : Char → Bool} (plain : ∀ c, accepts c = true → resumesAt c = false) :
    Spares (accept? accepts) cursor := by
  obtain ⟨position, _ | ⟨c, rest⟩⟩ := cursor
  · exact .of_unmoved rfl
  cases accepted : accepts c with
  | false => exact .of_unmoved (by simp [accept?, accepted, stop])
  | true =>
    intro short
    refine ⟨[c], ?_, by simpa using plain c accepted⟩
    simp only [accept?, accepted, if_true]
    exact Cursor.reaches_cons position c rest

theorem spares_accept {c : Char} (plain : resumesAt c = false) : Spares (accept c) cursor :=
  (spares_accept? fun d same => by rw [beq_iff_eq.mp same, plain]).bind fun _ _ _ => .pure _

/-- The next character is read, and where reading resumes at it the scan fails with a fault that does not stop short. -/
theorem spares_next {second : Option Char → Scanner α} (none : Spares (second none) cursor)
    (some : ∀ c later, resumesAt c = false → Spares (second (some c)) later)
    (fails : ∀ c, resumesAt c = true → ∃ fault, fault.stopsShort = false ∧ second (.some c) = throw fault) :
    Spares (next? >>= second) cursor := by
  obtain ⟨position, _ | ⟨c, rest⟩⟩ := cursor
  · exact none
  cases resumes : resumesAt c with
  | false =>
    intro short
    obtain ⟨text, reach, last⟩ := some c ⟨position.step c, rest⟩ resumes short
    refine ⟨c :: text, (Cursor.reaches_cons position c rest).trans reach, fun d ending => ?_⟩
    cases text with
    | nil => simpa [← Option.some.inj ending] using resumes
    | cons e text => exact last d (by simpa using ending)
  | true =>
    intro short
    obtain ⟨fault, long, same⟩ := fails c resumes
    have failed : (next? >>= second) ⟨position, c :: rest⟩ = .error fault ⟨position.step c, rest⟩ :=
      congrFun same _
    rw [failed] at short
    cases long.symm.trans short

theorem stopsShort_of_cons {c : Char} {result : EStateM.Result LexicalFault Cursor (List Char)}
    (short : StopsShort (cons c result)) : StopsShort result := by
  cases result <;> exact short

theorem spares_pattern {accepts : Char → Bool} (plain : ∀ c, accepts c = true → resumesAt c = false)
    (started : Bool) : Spares (pattern accepts started) cursor := by
  suffices spared : ∀ (position : Position) (text : List Char),
      StopsShort (separated accepts started position text) →
        ∃ read, Cursor.Reaches ⟨position, text⟩ read (stop (separated accepts started position text)) ∧
          ∀ c ∈ read, resumesAt c = false by
    intro short
    obtain ⟨read, reach, all⟩ := spared cursor.position cursor.rest short
    exact ⟨read, reach, fun c last => all c (List.mem_of_getLast? last)⟩
  intro position text short
  fun_induction separated accepts started position text with
  | case1 => exact ⟨[], .refl _, by simp⟩
  | case2 started position c rest accepted ih =>
    obtain ⟨read, reach, all⟩ := ih (stopsShort_of_cons short)
    rw [stop_cons]
    exact ⟨c :: read, (Cursor.reaches_cons position c rest).trans reach,
      List.forall_mem_cons.mpr ⟨plain c accepted, all⟩⟩
  | case3 => exact ⟨[], .refl _, by simp⟩
  | case4 => exact ⟨[], .refl _, by simp⟩
  | case5 started position c refused underline =>
    obtain rfl : c = '_' := by simpa using underline
    exact ⟨['_'], Cursor.reaches_cons position '_' [], List.forall_mem_cons.mpr ⟨by decide, List.forall_mem_nil _⟩⟩
  | case6 started position c refused underline wasStarted d rest accepted ih =>
    obtain rfl : c = '_' := by simpa using underline
    obtain ⟨read, reach, all⟩ := ih (stopsShort_of_cons (stopsShort_of_cons short))
    rw [stop_cons, stop_cons]
    refine ⟨'_' :: d :: read,
      (Cursor.reaches_cons position '_' _).trans ((Cursor.reaches_cons _ d rest).trans reach), ?_⟩
    exact List.forall_mem_cons.mpr ⟨by decide, List.forall_mem_cons.mpr ⟨plain d accepted, all⟩⟩
  | case7 => cases short

/-! ## Literals -/

/-- A kind of characters that no separator and no semicolon is of. -/
theorem not_resumesAt_of {accepts : Char → Bool}
    (none : [' ', '\u00a0', '\t', '\x0b', '\r', '\n'].any accepts = false) (semicolon : accepts ';' = false) (c : Char)
    (accepted : accepts c = true) : resumesAt c = false := by
  have plain := Lexer.not_isSeparator_of none accepted
  have other : c ≠ ';' := by
    rintro rfl
    cases accepted.symm.trans semicolon
  simp [resumesAt, plain, other]

theorem plain_digit : ∀ c, Latin.isDigit c = true → resumesAt c = false := not_resumesAt_of rfl rfl

theorem plain_baseDigit (base : Nat) : ∀ c, Latin.isBaseDigit base c = true → resumesAt c = false :=
  not_resumesAt_of rfl rfl

theorem spares_fraction {accepts : Char → Bool} (plain : ∀ c, accepts c = true → resumesAt c = false)
    (fault : LexicalFault) : Spares (fraction accepts fault) cursor :=
  (spares_accept (by decide)).bind fun _ _ _ => .ite
    (fun _ => (spares_pattern plain false).bind fun _ _ _ => (spares_nonempty _ _).bind fun _ _ _ => .pure _)
    fun _ => .pure _

theorem spares_exponentDigits : Spares exponentDigits cursor := by
  refine spares_next (.throw _) (fun c later plain => ?_) fun c resumes => ?_
  · exact .ite (fun _ => (spares_pattern plain_digit true).bind fun _ _ _ => .pure _) fun _ =>
      .ite (fun _ => (spares_pattern plain_digit false).bind fun _ _ _ => (spares_nonempty _ _).bind fun _ _ _ =>
        .pure _) fun _ => .throw _
  · have neither : Latin.isDigit c = false ∧ (c == '+' || c == '-') = false := by
      constructor <;> rw [Bool.eq_false_iff] <;> intro accepted
      · cases resumes.symm.trans (plain_digit c accepted)
      · obtain rfl | rfl : c = '+' ∨ c = '-' := by simpa using accepted
        all_goals cases resumes
    exact ⟨.exponentStart, rfl, by simp only [neither, Bool.false_eq_true, if_false]⟩

theorem spares_exponent : Spares exponent cursor := by
  refine (spares_accept? (not_resumesAt_of rfl rfl)).bind fun found later _ => ?_
  cases found with
  | none => exact .pure _
  | some c => exact spares_exponentDigits.bind fun _ _ _ => .pure _

theorem spares_basedDigits (base : Nat) {delimiter : Char} (plain : resumesAt delimiter = false) :
    Spares (basedDigits base delimiter) cursor := by
  refine (spares_pattern (plain_baseDigit base) false).bind fun _ _ _ => (spares_nonempty _ _).bind fun _ _ _ =>
    (spares_fraction (plain_baseDigit base) _).bind fun _ _ _ => ?_
  refine spares_next (.throw _) (fun c later _ => .ite (fun _ => .pure _) fun _ => .throw _) fun c resumes => ?_
  have other : (c == delimiter) = false := by
    rw [beq_eq_false_iff_ne]
    rintro rfl
    cases resumes.symm.trans plain
  exact ⟨.closingMismatch delimiter c, rfl, by simp only [other, Bool.false_eq_true, if_false]⟩

theorem spares_ahead {c : Char} (ahead : cursor.peek? = some c) (plain : resumesAt c = false) :
    Spares next? cursor := by
  obtain ⟨position, rest⟩ := cursor
  obtain ⟨more, rfl⟩ := List.head?_eq_some_iff.mp ahead
  exact fun _ => ⟨[c], Cursor.reaches_cons position c more, by simpa using plain⟩

theorem spares_basedLiteral (number : List Char) {delimiter : Char} (ahead : cursor.peek? = some delimiter)
    (plain : resumesAt delimiter = false) : Spares (basedLiteral number delimiter) cursor := by
  refine .demand fun base _ => .ite (fun _ => .throw _) fun _ => ?_
  exact (spares_ahead ahead plain).bind fun _ _ _ => (spares_basedDigits base plain).bind fun _ _ _ =>
    spares_exponent.bind fun _ _ _ => .pure _

/-- The underline is a graphic character itself, so that no scan of graphic characters fails at it. -/
theorem swallows_graphic (started : Bool) : Swallows (pattern Latin.isGraphicNotQuote started) := by
  suffices long : ∀ position text fault later,
      separated Latin.isGraphicNotQuote started position text = .error fault later → fault.stopsShort = false from
    fun cursor fault later failed => long _ _ fault later failed
  intro position text fault later failed
  fun_induction separated Latin.isGraphicNotQuote started position text with
  | case1 | case3 => cases failed
  | case2 started position c rest accepted ih => exact ih (cons_eq_error_iff.mp failed)
  | case4 _ _ c _ refused underline | case5 _ _ c refused underline | case6 _ _ c refused underline
  | case7 _ _ c refused underline =>
    obtain rfl : c = '_' := by simpa using underline
    exact absurd (by decide) refused

theorem swallows_accept (c : Char) : Swallows (accept c) := by
  refine Swallows.bind ?_ fun _ => .pure _
  rintro ⟨position, _ | ⟨d, rest⟩⟩ fault later failed
  · cases failed
  · simp only [accept?] at failed
    split at failed <;> cases failed

theorem spares_bitString (lead : List Char) : Spares (bitString lead) cursor := by
  have swallows : Swallows (bitString lead) :=
    (swallows_graphic false).bind fun _ => (swallows_accept _).bind fun _ => .ite (.pure _) (.throw rfl)
  have plain : resumesAt '\x22' = false := by decide
  refine swallows.spares plain ?_
  refine (reads_pattern (by decide) false).bind fun bits text _ =>
    (reads_accept (by decide)).bind fun closes more read => .ite (fun closed => .pure ?_) fun _ => .throw _
  subst read
  simp [closed]

theorem spares_sizedBitString (number : List Char) : Spares (sizedBitString number) cursor :=
  (spares_pattern (not_resumesAt_of rfl rfl) false).bind fun _ _ _ => .demand fun _ _ =>
    (spares_accept (by decide)).bind fun _ _ _ => .ite (fun _ => spares_bitString _) fun _ => .throw _

theorem spares_numeric (first : Char) : Spares (numeric first) cursor := by
  refine (spares_pattern plain_digit true).bind fun digits later _ => .peek ?_
  cases next : later.peek? with
  | none => exact .pure _
  | some c =>
    refine .ite (fun _ => ?_) fun _ => .ite (fun delimits => ?_) fun _ =>
      .ite (fun _ => spares_sizedBitString _) fun _ => spares_exponent.bind fun _ _ _ => .pure _
    · exact (spares_fraction plain_digit _).bind fun _ _ _ => spares_exponent.bind fun _ _ _ => .pure _
    · obtain rfl | rfl : c = '#' ∨ c = ':' := by simpa using delimits
      all_goals exact spares_basedLiteral _ next (by decide)

/-! ## Words and quoted texts -/

theorem spares_word (first : Char) : Spares (word first) cursor := by
  refine (spares_pattern (not_resumesAt_of rfl rfl) true).bind fun letters later _ => ?_
  unfold wordOf
  split
  · exact .pure _
  refine .peekIs (.ite (fun opens => ?_) fun _ => .pure _)
  obtain ⟨c, next, same⟩ := (Option.any_eq_true _ _).mp opens
  obtain rfl := beq_iff_eq.mp same
  exact .demand fun _ _ => (spares_ahead next (by decide)).bind fun _ _ _ => spares_bitString _

theorem swallows_literal (close : Char) : Swallows (literal close) := by
  suffices long : ∀ position text fault later, enclosed close position text = .error fault later →
      fault.stopsShort = false from fun cursor fault later failed => long _ _ fault later failed
  intro position text fault later failed
  fun_induction enclosed close position text with
  | case1 | case2 =>
    cases failed
    rfl
  | case3 position c rest _ _ ih => exact ih (cons_eq_error_iff.mp failed)
  | case4 | case6 => cases failed
  | case5 position c _ _ d tail _ ih => exact ih (cons_eq_error_iff.mp failed)

theorem spares_literal {close : Char} (plain : resumesAt close = false) : Spares (literal close) cursor := by
  have noFeed : close ≠ '\n' := by
    rintro rfl
    cases plain
  refine (swallows_literal close).spares plain ((reads_literal noFeed).mono fun value text same => ?_)
  simp [same, closed]

theorem spares_extendedIdentifier : Spares extendedIdentifier cursor :=
  (spares_literal (by decide)).bind fun _ _ _ => (spares_nonempty _ _).bind fun _ _ _ => .pure _

theorem swallows_string : Swallows string := (swallows_literal _).bind fun _ => .pure _

theorem swallows_next? : Swallows next? := by
  rintro ⟨position, _ | ⟨c, rest⟩⟩ fault later failed <;> cases failed

theorem swallows_character : Swallows character := by
  refine swallows_next?.bind fun read => ?_
  cases read with
  | none => exact .throw rfl
  | some c =>
    refine .ite (.throw rfl) (swallows_next?.bind fun read => ?_)
    cases read with
    | none => exact .throw rfl
    | some quote => exact .ite (.pure _) (.throw rfl)

theorem swallows_delimitedComment : Swallows delimitedComment := by
  refine swallows_next?.bind fun _ => Swallows.bind ?_ fun _ => .pure _
  suffices long : ∀ position text fault later, delimitedText position text = .error fault later →
      fault.stopsShort = false from fun cursor fault later failed => long _ _ fault later failed
  intro position text fault later failed
  fun_induction delimitedText position text with
  | case1 =>
    cases failed
    rfl
  | case2 => cases failed
  | case3 position c rest _ ih => exact ih (cons_eq_error_iff.mp failed)

theorem swallows_lineComment : Swallows lineComment := by
  refine swallows_next?.bind fun _ => Swallows.bind ?_ fun _ => swallows_next?.bind fun _ => .pure _
  rintro cursor fault later ⟨⟩

/-! ## Delimiters -/

/-- The semicolon is a delimiter of its own and begins no other. -/
theorem plain_delimiter {text : List Char} {mark : Delimiter}
    (read : Delimiter.ofText? (String.ofList text) = some mark) (other : text ≠ [';']) :
    text.any resumesAt = false := by
  obtain rfl | ⟨-, rfl⟩ := spelling_of_ofText? read
  · cases mark <;> first | exact absurd rfl other | rfl
  · rfl

theorem plain_extends {first second : Char} (extended : extendsDelimiter [first, second] = true) :
    [first, second].any resumesAt = false := by
  rw [extendsDelimiter, Bool.or_eq_true, Option.isSome_iff_exists, beq_iff_eq] at extended
  obtain ⟨mark, read⟩ | same := extended
  · exact plain_delimiter read (by simp)
  · rw [same]
    rfl

theorem spares_delimiterOf (text : List Char) : Spares (delimiterOf text) cursor :=
  .demand fun _ _ => .pure _

theorem spares_delimiter (first : Char) : Spares (delimiter first) cursor := by
  refine (spares_accept? fun second extended => ?_).bind fun found later _ => ?_
  · simpa using List.any_eq_false.mp (plain_extends extended) second (by simp)
  cases found with
  | none => exact spares_delimiterOf _
  | some second =>
    refine (spares_accept? fun third complete => ?_).bind fun found later _ => ?_
    · obtain ⟨mark, read⟩ := Option.isSome_iff_exists.mp complete
      simpa using List.any_eq_false.mp (plain_delimiter read (by simp)) third (by simp)
    cases found with
    | none => exact spares_delimiterOf _
    | some third => exact spares_delimiterOf _

/-- The semicolon is a token wherever it stands. -/
theorem token_semicolon (ticks : Bool) (cursor : Cursor) :
    token ticks ';' cursor = .ok (.delimiter .semicolon) cursor := by
  have alone (second : Char) : extendsDelimiter [';', second] = false := by
    rw [Bool.eq_false_iff]
    intro extended
    cases plain_extends extended
  exact (delimiter_of_alone fun second _ => alone second).trans (delimiterOf_some (by rfl) cursor)

theorem resumesAt_of_token_error {ticks : Bool} {first : Char} {fault : LexicalFault} {later : Cursor}
    (begins : Latin.isSeparator first = false) (failed : token ticks first cursor = .error fault later) :
    resumesAt first = false := by
  rw [Bool.eq_false_iff]
  intro resumes
  obtain rfl : first = ';' := by simpa [resumesAt, begins] using resumes
  cases failed.symm.trans (token_semicolon ticks cursor)

/-- A token that fails with a fault that stops short has read no character last that reading resumes at. -/
theorem token_spares {ticks : Bool} {first : Char} {fault : LexicalFault} {later : Cursor}
    (failed : token ticks first cursor = .error fault later) (short : fault.stopsShort = true) :
    ∃ text, cursor.Reaches text later ∧ ∀ c, text.getLast? = some c → resumesAt c = false := by
  have spared {scan : Scanner Token} (spares : Spares scan cursor) (failed : scan cursor = .error fault later) :
      ∃ text, cursor.Reaches text later ∧ ∀ c, text.getLast? = some c → resumesAt c = false := by
    rw [Spares, failed] at spares
    exact spares short
  have excluded {scan : Scanner Token} (swallows : Swallows scan) : scan cursor ≠ .error fault later := by
    intro failed
    cases (swallows cursor fault later failed).symm.trans short
  unfold token at failed
  split at failed
  · exact spared (spares_word first) failed
  split at failed
  · exact spared spares_extendedIdentifier failed
  split at failed
  · exact absurd failed (excluded swallows_string)
  split at failed
  · exact absurd failed (excluded swallows_character)
  split at failed
  · exact spared (spares_numeric first) failed
  change (if first == '-' && cursor.peek? == some '-' then lineComment
    else if first == '/' && cursor.peek? == some '*' then delimitedComment else delimiter first) cursor = _ at failed
  split at failed
  · exact absurd failed (excluded swallows_lineComment)
  split at failed
  · exact absurd failed (excluded swallows_delimitedComment)
  · exact spared (spares_delimiter first) failed

end Scanner

/-! ## Items behind a fault -/

namespace Lexer

/-- The cursor before the character at `index`. -/
def cursorAt (text : List Char) (index : Nat) : Cursor :=
  ⟨Position.start.advance (text.take index), text.drop index⟩

/-- Whether a single quote behind `front` is an attribute tick. -/
def ticksBehind (front : List Item) : Bool :=
  front.foldl (fun ticks item => match item.value with
    | .ok token => ticksAfter ticks token
    | .error _ => false) false

/-- Behind the items `front` the text is read on from `index`. -/
def Reached (text : String) (front : List Item) (index : Nat) : Prop :=
  index ≤ text.toList.length ∧ items text = front ++ itemsFrom (ticksBehind front) (cursorAt text.toList index)

/-- Behind the items `front` a scan begins at the index `opening`, and it fails with `fault`; `last` is the index of the
last character that it reads. -/
structure FailsAt (text : String) (front : List Item) (opening last : Nat) (fault : LexicalFault) : Prop where
  reached : Reached text front opening
  le_last : opening ≤ last
  last_lt : last < text.toList.length
  fails : ∃ first, text.toList[opening]? = some first ∧ Latin.isSeparator first = false ∧
    Scanner.token (ticksBehind front) first (cursorAt text.toList (opening + 1)) =
      .error fault (cursorAt text.toList (last + 1))

/-- `place` is the first index from `start` on where a separator or a semicolon stands, or the end of the text. -/
structure Resumes (text : List Char) (start place : Nat) : Prop where
  le : start ≤ place
  passed : ∀ index c, start ≤ index → index < place → text[index]? = some c → resumesAt c = false
  here : place = text.length ∨ ∃ c, text[place]? = some c ∧ resumesAt c = true

section

variable {text : List Char} {start index : Nat} {c : Char}

theorem cursorAt_of_getElem? (read : text[index]? = some c) :
    cursorAt text index = ⟨(cursorAt text index).position, c :: text.drop (index + 1)⟩ ∧
      cursorAt text (index + 1) = ⟨(cursorAt text index).position.step c, text.drop (index + 1)⟩ := by
  obtain ⟨bound, rfl⟩ := List.getElem?_eq_some_iff.mp read
  constructor
  · simp only [cursorAt, List.drop_eq_getElem_cons bound]
  · simp only [cursorAt, List.take_add_one, List.getElem?_eq_getElem bound, Option.toList_some,
      Position.advance_append, Position.advance_cons, Position.advance_nil]

theorem cursorAt_of_rest {rest : List Char} (opened : (cursorAt text index).rest = c :: rest) :
    text[index]? = some c ∧ cursorAt text (index + 1) = ⟨(cursorAt text index).position.step c, rest⟩ := by
  have read : text[index]? = some c := by
    rw [← List.head?_drop, show text.drop index = _ from opened, List.head?_cons]
  obtain ⟨here, inside⟩ := cursorAt_of_getElem? read
  obtain ⟨-, rfl⟩ := List.cons.inj (opened.symm.trans (congrArg Cursor.rest here))
  exact ⟨read, inside⟩

/-- A place of the text that is reached by reading is where the characters read end. -/
theorem eq_cursorAt_of_reaches (bound : start ≤ text.length) {read : List Char} {later : Cursor}
    (reach : (cursorAt text start).Reaches read later) :
    later = cursorAt text (start + read.length) ∧ start + read.length ≤ text.length := by
  obtain ⟨left, there⟩ := reach
  have split : text.drop start = read ++ later.rest := left
  have behind : text.drop (start + read.length) = later.rest := by
    rw [← List.drop_drop, split, List.drop_left]
  have before : text.take (start + read.length) = text.take start ++ read := by
    rw [List.take_add, split, List.take_left]
  have lengths := congrArg List.length split
  rw [List.length_drop, List.length_append] at lengths
  refine ⟨?_, by omega⟩
  obtain ⟨position, rest⟩ := later
  simp only [cursorAt, behind, before, Position.advance_append, Cursor.mk.injEq, and_true]
  exact there

/-- The search after a fault ends where reading resumes. -/
theorem resumes_skipUntil (bound : start ≤ text.length) :
    ∃ place, (cursorAt text start).skipUntil resumesAt = cursorAt text place ∧ place ≤ text.length ∧
      Resumes text start place := by
  obtain ⟨same, inside⟩ := eq_cursorAt_of_reaches bound (Cursor.reaches_skipUntil _ resumesAt)
  refine ⟨_, same, inside, Nat.le_add_right _ _, fun index c low high read => ?_, ?_⟩
  · obtain ⟨ahead, rfl⟩ := Nat.exists_eq_add_of_le low
    have short : ahead < ((text.drop start).takeWhile fun c => !resumesAt c).length := Nat.lt_of_add_lt_add_left high
    rw [← List.getElem?_drop, ← List.takeWhile_append_dropWhile (p := fun c => !resumesAt c) (l := text.drop start),
      List.getElem?_append_left short] at read
    simpa using List.mem_takeWhile_imp (List.mem_of_getElem? read)
  · have behind := congrArg Cursor.rest same
    have head := List.head?_dropWhile_not (fun c => !resumesAt c) (text.drop start)
    rw [show (text.drop start).dropWhile _ = _ from behind] at head
    obtain ended | further := Nat.eq_or_lt_of_le inside
    · exact .inl ended
    · refine .inr ⟨_, List.getElem?_eq_getElem further, ?_⟩
      have first : (cursorAt text (start + _)).rest.head? = some _ :=
        (List.head?_drop ..).trans (List.getElem?_eq_getElem further)
      rw [first] at head
      simpa using head

/-- Whether the search begins at a character or behind it makes no difference just if it does not end at that
character. -/
theorem Resumes.of_succ_iff {last place : Nat} (resumes : Resumes text (last + 1) place) :
    Resumes text last place ↔ ∀ c, text[last]? = some c → resumesAt c = false := by
  constructor
  · intro earlier c read
    exact earlier.passed last c (Nat.le_refl _) resumes.le read
  · intro plain
    refine ⟨Nat.le_of_succ_le resumes.le, fun index c low high read => ?_, resumes.here⟩
    obtain rfl | further := Nat.eq_or_lt_of_le low
    · exact plain c read
    · exact resumes.passed index c further high read

end

/-! ## Steps of reading -/

section

variable {text : String} {front : List Item} {index : Nat} {c : Char}

theorem ticksBehind_append (front : List Item) (position : Position) (read : Except LexicalFault Token) :
    ticksBehind (front ++ [⟨position, read⟩]) = match read with
      | .ok token => ticksAfter (ticksBehind front) token
      | .error _ => false := by
  rw [ticksBehind, List.foldl_append]
  rfl

theorem reached_nil (text : String) : Reached text [] 0 := ⟨Nat.zero_le _, rfl⟩

theorem Reached.gap (reached : Reached text front index) (read : text.toList[index]? = some c)
    (separator : Latin.isSeparator c = true) : Reached text front (index + 1) := by
  obtain ⟨bound, before⟩ := reached
  obtain ⟨here, inside⟩ := cursorAt_of_getElem? read
  refine ⟨(List.getElem?_eq_some_iff.mp read).1, ?_⟩
  rw [before, here, itemsFrom_gap separator, inside]

theorem Reached.token (reached : Reached text front index) (read : text.toList[index]? = some c)
    (begins : Latin.isSeparator c = false) {value : Token} {later : Cursor}
    (scanned : Scanner.token (ticksBehind front) c (cursorAt text.toList (index + 1)) = .ok value later) :
    ∃ next, later = cursorAt text.toList next ∧
      Reached text (front ++ [⟨(cursorAt text.toList (index + 1)).position, .ok value⟩]) next := by
  obtain ⟨bound, before⟩ := reached
  obtain ⟨here, inside⟩ := cursorAt_of_getElem? read
  obtain ⟨more, reach⟩ := Scanner.forward_token (ticksBehind front) c (cursorAt text.toList (index + 1))
  rw [scanned] at reach
  obtain ⟨rfl, behind⟩ := eq_cursorAt_of_reaches (List.getElem?_eq_some_iff.mp read).1 reach
  refine ⟨_, rfl, behind, ?_⟩
  rw [inside] at scanned
  rw [before, here, itemsFrom_token begins scanned, inside, ticksBehind_append, List.append_assoc]
  rfl

theorem Reached.fault (reached : Reached text front index) (read : text.toList[index]? = some c)
    (begins : Latin.isSeparator c = false) {fault : LexicalFault} {later : Cursor}
    (scanned : Scanner.token (ticksBehind front) c (cursorAt text.toList (index + 1)) = .error fault later) :
    ∃ last place, later = cursorAt text.toList (last + 1) ∧ FailsAt text front index last fault ∧
      Resumes text.toList (last + 1) place ∧ later.skipUntil resumesAt = cursorAt text.toList place ∧
      Reached text (front ++ [⟨later.position, .error fault⟩]) place := by
  obtain ⟨bound, before⟩ := reached
  obtain ⟨here, inside⟩ := cursorAt_of_getElem? read
  have opened : index + 1 ≤ text.toList.length := (List.getElem?_eq_some_iff.mp read).1
  obtain ⟨more, reach⟩ := Scanner.forward_token (ticksBehind front) c (cursorAt text.toList (index + 1))
  rw [scanned] at reach
  obtain ⟨rfl, behind⟩ := eq_cursorAt_of_reaches opened reach
  rw [Nat.add_right_comm] at scanned behind ⊢
  obtain ⟨place, skipped, within, resumes⟩ := resumes_skipUntil behind
  refine ⟨index + more.length, place, rfl, ⟨⟨bound, before⟩, Nat.le_add_right _ _, behind, c, read, begins, scanned⟩,
    resumes, skipped, within, ?_⟩
  rw [inside] at scanned
  rw [before, here, itemsFrom_fault begins scanned, skipped, ticksBehind_append, List.append_assoc]
  rfl

end

/-- What a fault among the items is and what follows it, by induction on the items that are read behind `before`. -/
theorem Reached.exists_failsAt {text : String} {ticks : Bool} {cursor : Cursor} {front following : List Item}
    {position : Position} {fault : LexicalFault}
    (shape : itemsFrom ticks cursor = front ++ ⟨position, .error fault⟩ :: following)
    {before : List Item} {index : Nat} (reached : Reached text before index) (sameTicks : ticksBehind before = ticks)
    (sameCursor : cursorAt text.toList index = cursor) :
    ∃ opening last place, FailsAt text (before ++ front) opening last fault ∧
      position = (cursorAt text.toList (last + 1)).position ∧ Resumes text.toList (last + 1) place ∧
      following = itemsFrom false (cursorAt text.toList place) := by
  fun_induction itemsFrom ticks cursor generalizing before front index with
  | case1 ticks cursor nothing =>
    -- the end-of-file marker is no fault
    cases front <;> simp at shape
  | case2 ticks cursor c rest opened longer inside separator =>
    rename_i ih
    subst sameTicks sameCursor
    obtain ⟨read, next⟩ := cursorAt_of_rest opened
    exact ih shape (reached.gap read separator) rfl next
  | case3 ticks cursor c rest opened longer inside begins value later scanned bound =>
    rename_i ih
    subst sameTicks sameCursor
    obtain ⟨read, next⟩ := cursorAt_of_rest opened
    have begins : Latin.isSeparator c = false := by simpa using begins
    rw [show inside = _ from next.symm] at scanned shape
    obtain ⟨index, rfl, reached⟩ := reached.token read begins scanned
    cases front with
    | nil => cases (List.cons.inj shape).1
    | cons item front =>
      obtain ⟨rfl, behind⟩ := List.cons.inj shape
      simpa using ih behind reached (ticksBehind_append ..) rfl
  | case4 ticks cursor c rest opened longer inside begins found later scanned bound =>
    rename_i ih
    subst sameTicks sameCursor
    obtain ⟨read, next⟩ := cursorAt_of_rest opened
    have begins : Latin.isSeparator c = false := by simpa using begins
    rw [show inside = _ from next.symm] at scanned
    obtain ⟨last, place, rfl, fails, resumes, skipped, reached⟩ := reached.fault read begins scanned
    cases front with
    | nil =>
      obtain ⟨item, rfl⟩ := List.cons.inj shape
      cases item
      exact ⟨_, last, place, by simpa using fails, rfl, resumes, by rw [skipped]⟩
    | cons item front =>
      obtain ⟨rfl, behind⟩ := List.cons.inj shape
      simpa using ih behind reached (ticksBehind_append ..) skipped.symm

/-- The last character that a scan with a fault that stops short has read is no separator and no semicolon. -/
theorem FailsAt.spares {text : String} {front : List Item} {opening last : Nat} {fault : LexicalFault}
    (fails : FailsAt text front opening last fault) (short : fault.stopsShort = true) :
    ∀ c, text.toList[last]? = some c → resumesAt c = false := by
  obtain ⟨first, read, begins, failed⟩ := fails.fails
  obtain ⟨more, reach, plain⟩ := Scanner.token_spares failed short
  have shape : text.toList.drop (opening + 1) = more ++ text.toList.drop (last + 1) := reach.1
  have count : last = opening + more.length := by
    have lengths := congrArg List.length shape
    have lt := fails.last_lt
    have le := fails.le_last
    rw [List.length_append, List.length_drop, List.length_drop] at lengths
    omega
  intro c final
  cases ending : more.getLast? with
  | none =>
    -- the first character is the only one
    obtain rfl := List.getLast?_eq_none_iff.mp ending
    obtain rfl : last = opening := count
    obtain rfl : first = c := Option.some.inj (read.symm.trans final)
    exact Scanner.resumesAt_of_token_error begins failed
  | some d =>
    refine plain c (ending.trans ?_)
    have positive : 0 < more.length := List.length_pos_iff.mpr (by rintro rfl; cases ending)
    rw [List.getLast?_eq_getElem?] at ending
    have last : text.toList[last]? = some d := by
      rw [count, show opening + more.length = opening + 1 + (more.length - 1) by omega, ← List.getElem?_drop, shape,
        List.getElem?_append_left (by omega), ending]
    exact last.symm.trans final

/-- Behind each fault reading goes on at the first separator or semicolon behind the last character that the failing
scan has read. The search includes that character itself just if it is none of these, and this is so for every fault
that stops short. -/
theorem resumes_behind_fault {text : String} {front following : List Item} {position : Position} {fault : LexicalFault}
    (shape : items text = front ++ ⟨position, .error fault⟩ :: following) :
    ∃ opening last place, FailsAt text front opening last fault ∧
      position = (cursorAt text.toList (last + 1)).position ∧ Resumes text.toList (last + 1) place ∧
      following = itemsFrom false (cursorAt text.toList place) ∧
      (Resumes text.toList last place ↔ ∀ c, text.toList[last]? = some c → resumesAt c = false) ∧
      (fault.stopsShort = true → Resumes text.toList last place) := by
  obtain ⟨opening, last, place, fails, there, resumes, behind⟩ := (reached_nil text).exists_failsAt shape rfl rfl
  exact ⟨opening, last, place, fails, there, resumes, behind, resumes.of_succ_iff,
    fun short => resumes.of_succ_iff.mpr (fails.spares short)⟩

/-- The semicolon at which digits are missing is read as a token. -/
theorem resumes_behind_fault_missing_digit :
    ∃ following, items "16#;" = [] ++ ⟨⟨1, 3⟩, .error (.basedDigitMissing 16 '#')⟩ :: following ∧
      ∃ opening last place, FailsAt "16#;" [] opening last (.basedDigitMissing 16 '#') ∧
        Resumes "16#;".toList last place ∧ following = itemsFrom false (cursorAt "16#;".toList place) := by
  have shape : items "16#;" = [] ++ ⟨⟨1, 3⟩, .error (.basedDigitMissing 16 '#')⟩ ::
      [⟨⟨1, 4⟩, .ok (.delimiter .semicolon)⟩, ⟨⟨1, 5⟩, .ok .endOfFile⟩] := by decide +kernel
  obtain ⟨opening, last, place, fails, -, -, behind, -, spared⟩ := resumes_behind_fault shape
  exact ⟨_, shape, opening, last, place, fails, spared rfl, behind⟩

/-- A semicolon that stands where a literal should be closed is lost. -/
theorem exists_swallowed_semicolon :
    ¬ ∀ (text : String) (front following : List Item) (position : Position) (fault : LexicalFault)
        (opening last place : Nat),
      items text = front ++ ⟨position, .error fault⟩ :: following → FailsAt text front opening last fault →
        Resumes text.toList last place → following = itemsFrom false (cursorAt text.toList place) := by
  intro all
  have shape : items "16#F;" = [] ++ ⟨⟨1, 5⟩, .error (.closingMismatch '#' ';')⟩ :: [⟨⟨1, 6⟩, .ok .endOfFile⟩] := by
    decide +kernel
  have fails : FailsAt "16#F;" [] 0 4 (.closingMismatch '#' ';') :=
    ⟨reached_nil _, by decide, by decide, '1', rfl, rfl, rfl⟩
  have resumes : Resumes "16#F;".toList 4 4 :=
    ⟨Nat.le_refl _, fun index c low high _ => absurd low (Nat.not_le_of_lt high), .inr ⟨';', rfl, rfl⟩⟩
  exact absurd (all _ _ _ _ _ _ _ _ shape fails resumes) (by decide +kernel)

end Lexer

end VhdlOrder
