import VhdlOrder.Lexical.Literal

/-! # What a scan reads

A scan that succeeds depends on the characters that it reads and on the first one behind them only, and a
line feed behind them is as good as what was there. So the same characters are read to the same value
wherever they stand, if a line feed follows or the character that followed before. `Scanner.Reads` says
so, together with how the value and the characters belong together. It holds of single steps and is kept
by sequencing.
-/

namespace VhdlOrder.Scanner

/-- A scan that stopped before `rest` also stops before `other`. -/
def StopsAlike (rest other : List Char) : Prop := other.head? = rest.head? ∨ other.head? = some '\n'

theorem StopsAlike.append {rest other : List Char} (alike : StopsAlike rest other) (text : List Char) :
    StopsAlike (text ++ rest) (text ++ other) := by
  cases text with
  | nil => exact alike
  | cons c text => exact .inl rfl

variable {α β : Type}

/-- What a scan reads spells its value, and is read to this value at every other place that it may stop at
as well. -/
def Reads (spells : α → List Char → Prop) (scan : Scanner α) : Prop :=
  ∀ cursor value later, scan cursor = .ok value later →
    ∃ text, spells value text ∧ cursor.Reaches text later ∧
      ∀ position rest, StopsAlike later.rest rest →
        scan ⟨position, text ++ rest⟩ = .ok value ⟨position.advance text, rest⟩

/-- `Reads` where the next character is `c`; the scan reads this character. -/
def ReadsAt (c : Char) (spells : α → List Char → Prop) (scan : Scanner α) : Prop :=
  ∀ position rest value later, scan ⟨position, c :: rest⟩ = .ok value later →
    ∃ text, spells value (c :: text) ∧ Cursor.Reaches ⟨position, c :: rest⟩ (c :: text) later ∧
      ∀ position rest, StopsAlike later.rest rest →
        scan ⟨position, c :: text ++ rest⟩ = .ok value ⟨position.advance (c :: text), rest⟩

variable {spells : α → List Char → Prop} {scan : Scanner α} {c : Char}

theorem Reads.pure {value : α} (spelled : spells value []) : Reads spells (pure value : Scanner α) := by
  rintro cursor _ _ ⟨⟩
  exact ⟨[], spelled, .refl cursor, fun position rest _ => rfl⟩

theorem Reads.throw (fault : LexicalFault) : Reads spells (throw fault : Scanner α) := by
  rintro cursor _ _ ⟨⟩

theorem Reads.ite {condition : Prop} [Decidable condition] {yes no : Scanner α}
    (left : condition → Reads spells yes) (right : ¬ condition → Reads spells no) :
    Reads spells (if condition then yes else no) := by
  split
  · exact left ‹_›
  · exact right ‹_›

theorem bind_eq_ok_iff {first : Scanner α} {second : α → Scanner β} {cursor later : Cursor} {value : β} :
    (first >>= second) cursor = .ok value later ↔
      ∃ found middle, first cursor = .ok found middle ∧ second found middle = .ok value later := by
  change EStateM.bind first second cursor = _ ↔ _
  unfold EStateM.bind
  cases first cursor with
  | error fault middle => simp
  | ok found middle =>
    constructor
    · intro scanned
      exact ⟨found, middle, rfl, scanned⟩
    · rintro ⟨_, _, ⟨⟩, scanned⟩
      exact scanned

theorem Reads.bind {first : Scanner α} {second : α → Scanner β} {one : α → List Char → Prop}
    {two : β → List Char → Prop} (left : Reads one first)
    (right : ∀ value text, one value text → Reads (fun value more => two value (text ++ more)) (second value)) :
    Reads two (first >>= second) := by
  intro cursor value later scanned
  obtain ⟨found, middle, scannedFirst, scannedSecond⟩ := bind_eq_ok_iff.mp scanned
  obtain ⟨text, spelled, reach, again⟩ := left _ _ _ scannedFirst
  obtain ⟨more, spelledMore, reachMore, againMore⟩ := right _ _ spelled _ _ _ scannedSecond
  refine ⟨text ++ more, spelledMore, reach.trans reachMore, fun position rest alike => ?_⟩
  have alikeFirst : StopsAlike middle.rest (more ++ rest) := reachMore.1 ▸ alike.append more
  refine bind_eq_ok_iff.mpr ⟨found, ⟨position.advance text, more ++ rest⟩, ?_, ?_⟩
  · rw [List.append_assoc]
    exact again position _ alikeFirst
  · rw [Position.advance_append]
    exact againMore _ rest alike

theorem Reads.mono {other : α → List Char → Prop} (reads : Reads spells scan)
    (weaker : ∀ value text, spells value text → other value text) : Reads other scan := by
  intro cursor value later scanned
  obtain ⟨text, spelled, rest⟩ := reads cursor value later scanned
  exact ⟨text, weaker _ _ spelled, rest⟩

/-! ## Looking ahead -/

theorem ReadsAt.of_reads (reads : Reads (fun value text => text ≠ [] ∧ spells value text) scan) :
    ReadsAt c spells scan := by
  intro position rest value later scanned
  obtain ⟨text, ⟨nonempty, spelled⟩, reach, again⟩ := reads _ _ _ scanned
  cases text with
  | nil => exact absurd rfl nonempty
  | cons d text =>
    obtain ⟨rfl, -⟩ := List.cons.inj reach.1
    exact ⟨text, spelled, reach, again⟩

theorem ReadsAt.mono {other : α → List Char → Prop} (reads : ReadsAt c spells scan)
    (weaker : ∀ value text, spells value text → other value text) : ReadsAt c other scan := by
  intro position rest value later scanned
  obtain ⟨text, spelled, remainder⟩ := reads position rest value later scanned
  exact ⟨text, weaker _ _ spelled, remainder⟩

theorem ReadsAt.congr {other : Scanner α} (reads : ReadsAt c spells other)
    (same : ∀ position rest, scan ⟨position, c :: rest⟩ = other ⟨position, c :: rest⟩) :
    ReadsAt c spells scan := by
  intro position rest value later scanned
  rw [same] at scanned
  obtain ⟨text, spelled, reach, again⟩ := reads _ _ _ _ scanned
  refine ⟨text, spelled, reach, fun position rest alike => ?_⟩
  rw [List.cons_append, same]
  exact again position rest alike

theorem ReadsAt.demand {found : Option β} {fault : LexicalFault} {second : β → Scanner α}
    (right : ∀ value, found = some value → ReadsAt c spells (second value)) :
    ReadsAt c spells (demand found fault >>= second) := by
  cases found with
  | none => rintro position rest value later ⟨⟩
  | some value => exact right value rfl

theorem ReadsAt.ite_throw {condition : Prop} [Decidable condition] {fault : LexicalFault}
    (right : ReadsAt c spells scan) : ReadsAt c spells (if condition then throw fault else scan) := by
  split
  · rintro position rest value later ⟨⟩
  · exact right

theorem ReadsAt.next {second : Option Char → Scanner α}
    (right : Reads (fun value text => spells value (c :: text)) (second (some c))) :
    ReadsAt c spells (next? >>= second) := by
  intro position rest value later scanned
  obtain ⟨text, spelled, reach, again⟩ := right ⟨position.step c, rest⟩ value later scanned
  exact ⟨text, spelled, (Cursor.reaches_cons position c rest).trans reach,
    fun position rest alike => again (position.step c) rest alike⟩

/-- A scan that reads on where certain characters follow, and is another scan elsewhere. -/
theorem Reads.branch (stay : Scanner α) (special : Char → Bool) (stops : special '\n' = false)
    (reads : ∀ c, special c = true → ReadsAt c spells scan) (stays : Reads spells stay)
    (same : ∀ cursor : Cursor, cursor.peekIs special = false → scan cursor = stay cursor) :
    Reads spells scan := by
  intro cursor value later scanned
  cases ahead : cursor.peekIs special with
  | true =>
    obtain ⟨position, rest⟩ := cursor
    cases rest with
    | nil => cases ahead
    | cons c rest =>
      obtain ⟨text, spelled, reach, again⟩ := reads c ahead position rest value later scanned
      exact ⟨c :: text, spelled, reach, again⟩
  | false =>
    rw [same cursor ahead] at scanned
    obtain ⟨text, spelled, reach, again⟩ := stays _ _ _ scanned
    refine ⟨text, spelled, reach, fun position rest alike => ?_⟩
    rw [same, again position rest alike]
    have alikeAll : StopsAlike cursor.rest (text ++ rest) := reach.1 ▸ alike.append text
    rcases alikeAll with same | feed
    · rw [← ahead]
      exact congrArg (Option.any special) same
    · exact (congrArg (Option.any special) feed).trans stops

theorem Reads.next {second : Option Char → Scanner α}
    (right : ∀ c, Reads (fun value text => spells value (c :: text)) (second (some c)))
    (fails : ∀ cursor value later, second none cursor ≠ .ok value later) :
    Reads spells (next? >>= second) := by
  rintro ⟨position, _ | ⟨c, rest⟩⟩ value later scanned
  · exact absurd scanned (fails _ _ _)
  · obtain ⟨text, spelled, reach, again⟩ := ReadsAt.next (right c) position rest value later scanned
    exact ⟨c :: text, spelled, reach, again⟩

/-! ## Single steps -/

theorem reads_demand (found : Option α) (fault : LexicalFault) :
    Reads (fun value text => found = some value ∧ text = []) (demand found fault) := by
  cases found with
  | none => exact .throw fault
  | some value => exact .pure ⟨rfl, rfl⟩

theorem reads_nonempty (text : List Char) (fault : LexicalFault) :
    Reads (fun value more => value = text ∧ more = []) (nonempty text fault) :=
  .ite (fun _ => .throw fault) fun _ => .pure ⟨rfl, rfl⟩

theorem reads_accept? {accepts : Char → Bool} (stops : accepts '\n' = false) :
    Reads (fun found text => text = found.toList ∧ ∀ c, found = some c → accepts c = true)
      (accept? accepts) := by
  apply Reads.branch (pure none) accepts stops
  · intro c accepted position rest value later scanned
    simp only [accept?, accepted, if_true, EStateM.Result.ok.injEq] at scanned
    obtain ⟨rfl, rfl⟩ := scanned
    exact ⟨[], ⟨rfl, by simpa using accepted⟩, Cursor.reaches_cons position c rest,
      fun position rest _ => by simp [accept?, accepted]⟩
  · exact .pure ⟨rfl, by simp⟩
  · rintro ⟨position, _ | ⟨c, rest⟩⟩ ahead
    · rfl
    · have refused : accepts c = false := ahead
      simp [accept?, refused]
      rfl

theorem reads_accept (noFeed : c ≠ '\n') :
    Reads (fun found text => text = if found then [c] else []) (accept c) := by
  have stops : ('\n' == c) = false := beq_false_of_ne noFeed.symm
  refine (reads_accept? stops).bind fun found text read => .pure ?_
  obtain ⟨rfl, accepted⟩ := read
  cases found with
  | none => rfl
  | some d => simpa using accepted d rfl

/-! ## Recursive scans -/

theorem cons_eq_ok_iff {result : EStateM.Result LexicalFault Cursor (List Char)} {text : List Char}
    {later : Cursor} :
    cons c result = .ok text later ↔ ∃ rest, text = c :: rest ∧ result = .ok rest later := by
  cases result with
  | error fault middle => simp [cons]
  | ok rest middle =>
    constructor
    · rintro ⟨⟩
      exact ⟨rest, rfl, rfl⟩
    · rintro ⟨_, rfl, ⟨⟩⟩
      rfl

/-- A pattern ends before a character that is neither in it nor an underline. -/
theorem separated_of_head {accepts : Char → Bool} {rest : List Char}
    (head : ∀ c, rest.head? = some c → accepts c = false ∧ c ≠ '_') (started : Bool) (position : Position) :
    separated accepts started position rest = .ok [] ⟨position, rest⟩ := by
  cases rest with
  | nil => rfl
  | cons c rest =>
    obtain ⟨refused, noUnderline⟩ := head c rfl
    rw [separated.eq_def]
    simp [refused, noUnderline]

theorem reads_separated {accepts : Char → Bool} (stops : accepts '\n' = false) {started : Bool}
    {position : Position} {text value : List Char} {later : Cursor}
    (scanned : separated accepts started position text = .ok value later) :
    Cursor.Reaches ⟨position, text⟩ value later ∧
      ∀ position rest, StopsAlike later.rest rest →
        separated accepts started position (value ++ rest) = .ok value ⟨position.advance value, rest⟩ := by
  have endsBefore {rest other : List Char} (alike : StopsAlike rest other)
      (head : ∀ c, rest.head? = some c → accepts c = false ∧ c ≠ '_') (c : Char)
      (first : other.head? = some c) : accepts c = false ∧ c ≠ '_' := by
    rcases alike with same | feed
    · exact head c (same ▸ first)
    · cases feed.symm.trans first
      exact ⟨stops, by decide⟩
  fun_induction separated accepts started position text generalizing value with
  | case1 started position =>
    cases scanned
    exact ⟨.refl _, fun position rest alike => separated_of_head (endsBefore alike (by simp)) started position⟩
  | case2 started position c rest accepted ih =>
    obtain ⟨more, rfl, inner⟩ := cons_eq_ok_iff.mp scanned
    obtain ⟨reach, again⟩ := ih inner
    refine ⟨(Cursor.reaches_cons position c rest).trans reach, fun position rest alike => ?_⟩
    rw [List.cons_append, separated.eq_def]
    simp only [accepted, if_true, again (position.step c) rest alike]
    rfl
  | case3 started position c rest refused noUnderline =>
    cases scanned
    have head (d : Char) (first : (c :: rest).head? = some d) : accepts d = false ∧ d ≠ '_' := by
      cases first
      exact ⟨by simpa using refused, by simpa using noUnderline⟩
    exact ⟨.refl _, fun position rest alike => separated_of_head (endsBefore alike head) started position⟩
  | case4 => cases scanned
  | case5 => cases scanned
  | case6 started position c refused underline wasStarted d rest accepted ih =>
    obtain ⟨tail, rfl, inner⟩ := cons_eq_ok_iff.mp scanned
    obtain ⟨more, rfl, inmost⟩ := cons_eq_ok_iff.mp inner
    obtain ⟨reach, again⟩ := ih inmost
    refine ⟨(Cursor.reaches_cons position c _).trans ((Cursor.reaches_cons _ d rest).trans reach),
      fun position rest alike => ?_⟩
    rw [List.cons_append, List.cons_append, separated.eq_def]
    simp only [refused, underline, wasStarted, accepted, again _ rest alike]
    rfl
  | case7 => cases scanned

theorem reads_pattern {accepts : Char → Bool} (stops : accepts '\n' = false) (started : Bool) :
    Reads (fun value text => value = text) (pattern accepts started) := by
  intro cursor value later scanned
  obtain ⟨reach, again⟩ := reads_separated stops scanned
  exact ⟨value, rfl, reach, again⟩

/-- The characters `text` between two characters `close`, the first of which is left out: within them
`close` is written twice. -/
def closed (close : Char) (text : List Char) : List Char :=
  text.flatMap (fun c => if c = close then [close, close] else [c]) ++ [close]

/-- A character `close` that is not written twice closes the literal. -/
theorem enclosed_close {close : Char} (graphic : Latin.isGraphic close = true) {rest : List Char}
    (single : rest.head? ≠ some close) (position : Position) :
    enclosed close position (close :: rest) = .ok [] ⟨position.step close, rest⟩ := by
  rw [enclosed.eq_def]
  cases rest with
  | nil => simp [graphic]
  | cons c rest =>
    have different : c ≠ close := fun same => single (congrArg some same)
    simp [graphic, different]

theorem reads_enclosed {close : Char} (noFeed : close ≠ '\n') {position : Position}
    {text value : List Char} {later : Cursor} (scanned : enclosed close position text = .ok value later) :
    Cursor.Reaches ⟨position, text⟩ (closed close value) later ∧
      ∀ position rest, StopsAlike later.rest rest →
        enclosed close position (closed close value ++ rest) =
          .ok value ⟨position.advance (closed close value), rest⟩ := by
  have endsBefore {rest other : List Char} (alike : StopsAlike rest other)
      (single : rest.head? ≠ some close) : other.head? ≠ some close := by
    rcases alike with same | feed
    · exact same ▸ single
    · rw [feed]
      exact fun same => noFeed (Option.some.inj same).symm
  fun_induction enclosed close position text generalizing value with
  | case1 => cases scanned
  | case2 => cases scanned
  | case3 position c rest graphic other ih =>
    obtain ⟨more, rfl, inner⟩ := cons_eq_ok_iff.mp scanned
    obtain ⟨reach, again⟩ := ih inner
    have spelled : closed close (c :: more) = c :: closed close more := by
      simp [closed, show c ≠ close by simpa using other]
    rw [spelled]
    refine ⟨(Cursor.reaches_cons position c rest).trans reach, fun position rest alike => ?_⟩
    rw [List.cons_append, enclosed.eq_def]
    simp only [graphic, other, again _ rest alike]
    rfl
  | case4 position c graphic isClose =>
    cases scanned
    have same : c = close := by simpa using isClose
    subst same
    refine ⟨Cursor.reaches_cons position c [], fun position rest alike =>
      enclosed_close (by simpa using graphic) (endsBefore alike (by simp)) position⟩
  | case5 position c graphic isClose d tail twice ih =>
    obtain ⟨more, rfl, inner⟩ := cons_eq_ok_iff.mp scanned
    obtain ⟨reach, again⟩ := ih inner
    have same : c = close ∧ d = close := ⟨by simpa using isClose, by simpa using twice⟩
    obtain ⟨rfl, rfl⟩ := same
    have spelled : closed d (d :: more) = d :: d :: closed d more := by simp [closed]
    rw [spelled]
    refine ⟨(Cursor.reaches_cons position d _).trans ((Cursor.reaches_cons _ d tail).trans reach),
      fun position rest alike => ?_⟩
    rw [List.cons_append, List.cons_append, enclosed.eq_def]
    simp only [graphic, isClose, beq_self_eq_true, again _ rest alike]
    rfl
  | case6 position c graphic isClose d tail different =>
    cases scanned
    have same : c = close := by simpa using isClose
    subst same
    have single : (d :: tail).head? ≠ some c := by simpa using different
    exact ⟨Cursor.reaches_cons position c _, fun position rest alike =>
      enclosed_close (by simpa using graphic) (endsBefore alike single) position⟩

theorem reads_literal {close : Char} (noFeed : close ≠ '\n') :
    Reads (fun value text => text = closed close value) (literal close) := by
  intro cursor value later scanned
  obtain ⟨reach, again⟩ := reads_enclosed noFeed scanned
  exact ⟨_, rfl, reach, again⟩

end VhdlOrder.Scanner
