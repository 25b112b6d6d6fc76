import VhdlOrder.Proofs.Lexical.Reading

/-! # Characters with underlines between them

Words and digits are characters of one kind with single underlines between two of them. `Run` says so of a text, and
`Tail` of what follows its first character. A pattern that is scanned is a run, and a run is scanned to its end where
nothing follows that could belong to it. What is scanned is the longest beginning of the text that is a pattern, and
the scan fails exactly where an underline follows this beginning.
-/

namespace VhdlOrder.Scanner

variable {accepts : Char → Bool} {text rest value : List Char}

/-- Characters that satisfy `accepts`, behind such a character, with single underlines between two of them. -/
inductive Tail (accepts : Char → Bool) : List Char → Prop
  | nil : Tail accepts []
  | plain {c : Char} {rest : List Char} (accepted : accepts c = true) (tail : Tail accepts rest) :
      Tail accepts (c :: rest)
  | underline {c : Char} {rest : List Char} (accepted : accepts c = true) (tail : Tail accepts rest) :
      Tail accepts ('_' :: c :: rest)

/-- One character that satisfies `accepts` or more, with single underlines between two of them. -/
inductive Run (accepts : Char → Bool) : List Char → Prop
  | first {c : Char} {rest : List Char} (accepted : accepts c = true) (tail : Tail accepts rest) :
      Run accepts (c :: rest)

theorem Tail.character (tail : Tail accepts text) : ∀ c ∈ text, accepts c = true ∨ c = '_' := by
  induction tail with
  | nil => exact List.forall_mem_nil _
  | plain accepted tail ih => exact List.forall_mem_cons.mpr ⟨.inl accepted, ih⟩
  | underline accepted tail ih =>
    exact List.forall_mem_cons.mpr ⟨.inr rfl, List.forall_mem_cons.mpr ⟨.inl accepted, ih⟩⟩

theorem Run.tail (run : Run accepts text) : Tail accepts text := by
  obtain ⟨accepted, tail⟩ := run
  exact .plain accepted tail

/-- Without underlines these are just characters. -/
theorem tail_of_forall (accepted : ∀ c ∈ text, accepts c = true) : Tail accepts text := by
  induction text with
  | nil => exact .nil
  | cons c rest ih =>
    obtain ⟨here, others⟩ := List.forall_mem_cons.mp accepted
    exact .plain here (ih others)

/-! ## What is scanned -/

theorem tail_of_separated {started : Bool} {position : Position} {later : Cursor}
    (scanned : separated accepts started position text = .ok value later) : Tail accepts value := by
  fun_induction separated accepts started position text generalizing value with
  | case1 =>
    cases scanned
    exact .nil
  | case2 started position c rest accepted ih =>
    obtain ⟨more, rfl, inner⟩ := cons_eq_ok_iff.mp scanned
    exact .plain accepted (ih inner)
  | case3 =>
    cases scanned
    exact .nil
  | case4 => cases scanned
  | case5 => cases scanned
  | case6 started position c refused underline wasStarted d rest accepted ih =>
    obtain ⟨tail, rfl, inner⟩ := cons_eq_ok_iff.mp scanned
    obtain ⟨more, rfl, inmost⟩ := cons_eq_ok_iff.mp inner
    obtain rfl : c = '_' := by simpa using underline
    exact .underline accepted (ih inmost)
  | case7 => cases scanned

/-- Where no character comes before, an underline is not the first one. -/
theorem run_of_separated {position : Position} {later : Cursor}
    (scanned : separated accepts false position text = .ok value later) (nonempty : value ≠ []) :
    Run accepts value := by
  cases text with
  | nil =>
    cases scanned
    exact absurd rfl nonempty
  | cons c rest =>
    rw [separated.eq_def] at scanned
    dsimp only at scanned
    split at scanned
    · rename_i accepted
      obtain ⟨more, rfl, inner⟩ := cons_eq_ok_iff.mp scanned
      exact .first accepted (tail_of_separated inner)
    · split at scanned
      · cases scanned
        exact absurd rfl nonempty
      · cases scanned

/-! ## What is scanned to its end -/

/-- Nothing at the beginning of `rest` belongs to a pattern. -/
def Bounds (accepts : Char → Bool) (rest : List Char) : Prop :=
  ∀ c, rest.head? = some c → accepts c = false ∧ c ≠ '_'

theorem separated_cons {c : Char} (accepted : accepts c = true) (started : Bool) (position : Position)
    (text : List Char) :
    separated accepts started position (c :: text) = cons c (separated accepts true (position.step c) text) := by
  rw [separated.eq_def]
  exact if_pos accepted

theorem separated_of_tail (tail : Tail accepts text) (bounds : Bounds accepts rest) (position : Position) :
    separated accepts true position (text ++ rest) = .ok text ⟨position.advance text, rest⟩ := by
  induction tail generalizing position with
  | nil => exact separated_of_head bounds true position
  | @plain c more accepted tail ih =>
    rw [List.cons_append, separated_cons accepted, ih]
    rfl
  | @underline c more accepted tail ih =>
    cases both : accepts '_' with
    | true =>
      -- an underline that is one of the characters is read as such
      rw [List.cons_append, List.cons_append, separated_cons both, separated_cons accepted, ih]
      rfl
    | false =>
      rw [List.cons_append, List.cons_append, separated.eq_def]
      simp only [both, accepted, bne_self_eq_false, Bool.not_true, Bool.false_eq_true, if_true, if_false, ih]
      rfl

/-- A run is scanned whether a character comes before or not. -/
theorem separated_of_run (run : Run accepts text) (bounds : Bounds accepts rest) (started : Bool)
    (position : Position) :
    separated accepts started position (text ++ rest) = .ok text ⟨position.advance text, rest⟩ := by
  obtain ⟨accepted, tail⟩ := run
  rw [List.cons_append, separated_cons accepted, separated_of_tail tail bounds]
  rfl

/-- A pattern runs over all characters that it accepts. -/
theorem separated_append (accepted : ∀ c ∈ text, accepts c = true) (bounds : Bounds accepts rest) (started : Bool)
    (position : Position) :
    separated accepts started position (text ++ rest) = .ok text ⟨position.advance text, rest⟩ := by
  cases text with
  | nil => exact separated_of_head bounds started position
  | cons c more =>
    obtain ⟨here, others⟩ := List.forall_mem_cons.mp accepted
    exact separated_of_run (.first here (tail_of_forall others)) bounds started position

/-! ## Patterns are as long as possible -/

/-- Nothing, or a run. -/
def IsPattern (accepts : Char → Bool) (text : List Char) : Prop := text = [] ∨ Run accepts text

/-- All characters are accepted, underlines apart that are not. -/
theorem IsPattern.character (isPattern : IsPattern accepts text) :
    ∀ c ∈ text, accepts c = true ∨ accepts '_' = false ∧ c = '_' := by
  intro c member
  obtain rfl | run := isPattern
  · cases member
  obtain accepted | rfl := run.tail.character c member
  · exact .inl accepted
  · cases underline : accepts '_' with
    | true => exact .inl rfl
    | false => exact .inr ⟨rfl, rfl⟩

/-- `value` has a shape, and no longer beginning of `text` has. -/
structure LongestBeginning (shape : List Char → Prop) (value text : List Char) : Prop where
  fits : shape value
  begins : value <+: text
  longest : ∀ other, shape other → other <+: text → other.length ≤ value.length

section

variable {shape shape' : List Char → Prop} {c : Char}

theorem LongestBeginning.unique {other : List Char} (first : LongestBeginning shape value text)
    (second : LongestBeginning shape other text) : value = other := by
  have shorter : value.length ≤ other.length := second.longest value first.fits first.begins
  have longer : other.length ≤ value.length := first.longest other second.fits second.begins
  have inside := List.prefix_of_prefix_length_le first.begins second.begins shorter
  exact inside.eq_of_length (Nat.le_antisymm shorter longer)

theorem LongestBeginning.nil (fits : shape []) (stuck : ∀ c rest, c :: rest <+: text → ¬ shape (c :: rest)) :
    LongestBeginning shape [] text := by
  refine ⟨fits, List.nil_prefix, fun other fits begins => ?_⟩
  cases other with
  | nil => exact Nat.le_refl _
  | cons c rest => exact absurd fits (stuck c rest begins)

/-- A character in front belongs to the longest beginning if what follows it has to be of the shape before. -/
theorem LongestBeginning.cons (inner : LongestBeginning shape value text) (fits : shape' (c :: value))
    (follows : ∀ rest, shape' (c :: rest) → shape rest) : LongestBeginning shape' (c :: value) (c :: text) := by
  refine ⟨fits, (List.prefix_cons_inj c).mpr inner.begins, fun other otherFits begins => ?_⟩
  cases other with
  | nil => exact Nat.zero_le _
  | cons first rest =>
    obtain ⟨rfl, within⟩ := List.cons_prefix_cons.mp begins
    exact Nat.succ_le_succ (inner.longest rest (follows rest otherFits) within)

/-- Behind an accepted character everything goes on in the same way. -/
theorem Tail.of_cons (tail : Tail accepts (c :: text)) (accepted : accepts c = true) : Tail accepts text := by
  cases tail with
  | plain _ tail => exact tail
  | underline next tail => exact .plain next tail

theorem Run.underline (run : Run accepts text) : Tail accepts ('_' :: text) := by
  obtain ⟨accepted, tail⟩ := run
  exact .underline accepted tail

theorem Run.of_underline (tail : Tail accepts ('_' :: text)) (refused : accepts '_' = false) : Run accepts text := by
  cases tail with
  | plain accepted _ => cases refused.symm.trans accepted
  | underline accepted tail => exact .first accepted tail

theorem LongestBeginning.run (inner : LongestBeginning (Tail accepts) value text) (accepted : accepts c = true) :
    LongestBeginning (Run accepts) (c :: value) (c :: text) :=
  inner.cons (.first accepted inner.fits) fun _ run => run.tail.of_cons accepted

/-- What comes of scanning `text`: a value that is the longest possible, with nothing behind it that could belong to it,
or a fault if an underline follows this value. -/
inductive Outcome (accepts : Char → Bool) (longest : List Char → Prop) (position : Position) (text : List Char) :
    EStateM.Result LexicalFault Cursor (List Char) → Prop
  | read {value rest : List Char} (isLongest : longest value) (whole : text = value ++ rest)
      (bounds : Bounds accepts rest) : Outcome accepts longest position text (.ok value ⟨position.advance value, rest⟩)
  | refused {value rest : List Char} {fault : LexicalFault} {later : Cursor} (isLongest : longest value)
      (whole : text = value ++ '_' :: rest) : Outcome accepts longest position text (.error fault later)

variable {longest longest' : List Char → Prop} {position : Position}
  {result : EStateM.Result LexicalFault Cursor (List Char)}

theorem Outcome.mono (outcome : Outcome accepts longest position text result)
    (weaken : ∀ value, longest value → longest' value) : Outcome accepts longest' position text result := by
  cases outcome with
  | read isLongest whole bounds => exact .read (weaken _ isLongest) whole bounds
  | refused isLongest whole => exact .refused (weaken _ isLongest) whole

theorem Outcome.cons (outcome : Outcome accepts longest (position.step c) text result)
    (extend : ∀ value, longest value → longest' (c :: value)) :
    Outcome accepts longest' position (c :: text) (cons c result) := by
  cases outcome with
  | read isLongest whole bounds => exact .read (extend _ isLongest) (congrArg (c :: ·) whole) bounds
  | refused isLongest whole => exact .refused (extend _ isLongest) (congrArg (c :: ·) whole)

/-- Behind an accepted character the scan goes on as far as it can. -/
theorem outcome_separated (position : Position) (text : List Char) :
    Outcome accepts (LongestBeginning (Tail accepts) · text) position text
      (separated accepts true position text) := by
  generalize begun : true = started
  fun_induction separated accepts started position text with
  | case1 => exact .read (.nil .nil (by simp)) rfl (by simp [Bounds])
  | case2 started position c rest accepted ih =>
    exact (ih rfl).cons fun _ longest => longest.cons (.plain accepted longest.fits) fun _ tail => tail.of_cons accepted
  | case3 started position c rest refused noUnderline =>
    refine .read (.nil .nil ?_) rfl ?_
    · intro first more begins tail
      obtain ⟨rfl, -⟩ := List.cons_prefix_cons.mp begins
      simpa [refused, bne_iff_ne.mp noUnderline] using tail.character first List.mem_cons_self
    · rintro _ ⟨⟩
      exact ⟨Bool.eq_false_iff.mpr refused, bne_iff_ne.mp noUnderline⟩
  | case4 started position c rest refused underline unbegun => simp [← begun] at unbegun
  | case5 started position c refused underline =>
    obtain rfl : c = '_' := by simpa using underline
    refine .refused (.nil .nil ?_) rfl
    intro first more begins tail
    obtain ⟨rfl, short⟩ := List.cons_prefix_cons.mp begins
    obtain rfl := List.prefix_nil.mp short
    cases Run.of_underline tail (Bool.eq_false_iff.mpr refused)
  | case6 started position c refused underline wasBegun d rest accepted ih =>
    obtain rfl : c = '_' := by simpa using underline
    have run : Outcome accepts (LongestBeginning (Run accepts) · (d :: rest)) _ _ _ :=
      (ih rfl).cons fun _ longest => longest.run accepted
    exact run.cons fun _ longest => longest.cons longest.fits.underline fun _ tail =>
      .of_underline tail (Bool.eq_false_iff.mpr refused)
  | case7 started position c refused underline wasBegun d rest unaccepted =>
    obtain rfl : c = '_' := by simpa using underline
    refine .refused (.nil .nil ?_) rfl
    intro first more begins tail
    obtain ⟨rfl, within⟩ := List.cons_prefix_cons.mp begins
    obtain ⟨accepted, -⟩ := Run.of_underline tail (Bool.eq_false_iff.mpr refused)
    obtain ⟨rfl, -⟩ := List.cons_prefix_cons.mp within
    exact unaccepted accepted

theorem LongestBeginning.pattern (inner : LongestBeginning (Tail accepts) value text) (accepted : accepts c = true) :
    LongestBeginning (IsPattern accepts) (c :: value) (c :: text) :=
  inner.cons (.inr (.first accepted inner.fits)) fun _ isPattern => match isPattern with
    | .inr (.first _ tail) => tail

theorem longestBeginning_pattern_nil (unaccepted : ∀ c, text.head? = some c → accepts c = false) :
    LongestBeginning (IsPattern accepts) [] text := by
  refine .nil (.inl rfl) fun c rest begins isPattern => ?_
  obtain ⟨more, rfl⟩ := begins
  obtain ⟨accepted, -⟩ : Run accepts (c :: rest) := isPattern.resolve_left (List.cons_ne_nil _ _)
  cases (unaccepted c rfl).symm.trans accepted

/-- What comes of scanning a pattern whose first character has been read before, or has not. -/
theorem outcome_pattern {first : Option Char} (accepted : ∀ c ∈ first, accepts c = true) (position : Position)
    (text : List Char) :
    Outcome accepts (fun value => LongestBeginning (IsPattern accepts) (first.toList ++ value) (first.toList ++ text))
      position text (pattern accepts first.isSome ⟨position, text⟩) := by
  change Outcome accepts _ position text (separated accepts first.isSome position text)
  cases first with
  | some c => exact (outcome_separated position text).mono fun _ longest => longest.pattern (accepted c rfl)
  | none =>
    cases text with
    | nil => exact .read (longestBeginning_pattern_nil (by simp)) rfl (by simp [Bounds])
    | cons c rest =>
      by_cases here : accepts c = true
      · rw [separated_cons here]
        exact (outcome_separated _ rest).cons fun _ longest => longest.pattern here
      have nothing : LongestBeginning (IsPattern accepts) [] (c :: rest) :=
        longestBeginning_pattern_nil fun _ head => Option.some.inj head ▸ Bool.eq_false_iff.mpr here
      by_cases underline : c = '_'
      · subst underline
        have refused : separated accepts false position ('_' :: rest) =
            .error .digitBeforeUnderline ⟨position, '_' :: rest⟩ := by
          rw [separated.eq_def]
          simp [here]
        exact refused ▸ .refused nothing rfl
      · have bounds : Bounds accepts (c :: rest) := by
          rintro _ ⟨⟩
          exact ⟨Bool.eq_false_iff.mpr here, underline⟩
        exact separated_of_head bounds false position ▸ .read nothing rfl bounds

end

/-- A pattern is read as far as it goes: what has been read, behind the first character if that was read before, is the
longest beginning of the text that is a pattern, and neither a character of the pattern nor an underline follows it. The
scan fails exactly if an underline follows the longest beginning that is a pattern. -/
theorem pattern_reads_longest {first : Option Char} (accepted : ∀ c ∈ first, accepts c = true) (cursor : Cursor) :
    (∀ value later, pattern accepts first.isSome cursor = .ok value later →
      cursor.Reaches value later ∧ Bounds accepts later.rest ∧
        (∀ c ∈ first.toList ++ value, accepts c = true ∨ accepts '_' = false ∧ c = '_') ∧
        LongestBeginning (IsPattern accepts) (first.toList ++ value) (first.toList ++ cursor.rest)) ∧
      ((∃ fault later, pattern accepts first.isSome cursor = .error fault later) ↔
        ∃ value rest, LongestBeginning (IsPattern accepts) value (first.toList ++ cursor.rest) ∧
          first.toList ++ cursor.rest = value ++ '_' :: rest) := by
  have outcome := outcome_pattern accepted cursor.position cursor.rest
  refine ⟨fun value later scanned => ?_, ?_, ?_⟩
  · rw [scanned] at outcome
    cases outcome with
    | read longest whole bounds => exact ⟨⟨whole, rfl⟩, bounds, longest.fits.character, longest⟩
  · rintro ⟨fault, later, failed⟩
    rw [failed] at outcome
    cases outcome with
    | refused longest whole => exact ⟨_, _, longest, by rw [whole, List.append_assoc]⟩
  · rintro ⟨value, rest, longest, whole⟩
    cases scanned : pattern accepts first.isSome cursor with
    | error fault later => exact ⟨fault, later, rfl⟩
    | ok read later =>
      rw [scanned] at outcome
      cases outcome with
      | @read _ behind isLongest split bounds =>
        -- there is one longest beginning, so that an underline follows what was read
        obtain rfl := longest.unique isLongest
        obtain rfl : behind = '_' :: rest := by simpa [split] using whole
        exact absurd rfl (bounds '_' rfl).2

/-- Behind a digit, a pattern that a semicolon ends and one that two underlines end. -/
theorem pattern_reads_longest_digits :
    (∀ c ∈ some '1', Latin.isDigit c = true) ∧
      (pattern Latin.isDigit true ⟨⟨1, 1⟩, ['_', '2', ';']⟩ = .ok ['_', '2'] ⟨⟨1, 3⟩, [';']⟩ ∧
        LongestBeginning (IsPattern Latin.isDigit) ['1', '_', '2'] ['1', '_', '2', ';']) ∧
      pattern Latin.isDigit true ⟨⟨1, 1⟩, ['_', '2', '_', '_', '3']⟩ = .error .digitAfterUnderline ⟨⟨1, 5⟩, ['3']⟩ ∧
      ∃ value rest, LongestBeginning (IsPattern Latin.isDigit) value ['1', '_', '2', '_', '_', '3'] ∧
        ['1', '_', '2', '_', '_', '3'] = value ++ '_' :: rest := by
  have accepted : ∀ c ∈ some '1', Latin.isDigit c = true := by
    intro c first
    cases first
    rfl
  have scanned : pattern Latin.isDigit true ⟨⟨1, 1⟩, ['_', '2', ';']⟩ = .ok ['_', '2'] ⟨⟨1, 3⟩, [';']⟩ := rfl
  have failed : pattern Latin.isDigit true ⟨⟨1, 1⟩, ['_', '2', '_', '_', '3']⟩ =
      .error .digitAfterUnderline ⟨⟨1, 5⟩, ['3']⟩ := rfl
  obtain ⟨reads, -⟩ := pattern_reads_longest accepted ⟨⟨1, 1⟩, ['_', '2', ';']⟩
  obtain ⟨-, fails⟩ := pattern_reads_longest accepted ⟨⟨1, 1⟩, ['_', '2', '_', '_', '3']⟩
  exact ⟨accepted, ⟨scanned, (reads _ _ scanned).2.2.2⟩, failed, fails.mp ⟨_, _, failed⟩⟩

end VhdlOrder.Scanner
