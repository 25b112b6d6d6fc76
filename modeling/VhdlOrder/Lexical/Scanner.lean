import VhdlOrder.Lexical.Fault
import VhdlOrder.Text.Cursor
import VhdlOrder.Text.Latin

/-! # Scanners

A scanner reads some characters from a cursor and then either answers a value or reports a fault; in
both cases the cursor stays where reading stopped. Scanners never move backwards: `Scanner.Forward`
says that the cursor afterwards is reached from the cursor before, and every scanner has it because
the steps below have it and sequencing keeps it.
-/

namespace VhdlOrder

/-- Reads characters and answers a value or a fault. -/
abbrev Scanner := EStateM LexicalFault Cursor

namespace Scanner

variable {α β : Type}

/-- Where the cursor stands after a scan. -/
def stop : EStateM.Result LexicalFault Cursor α → Cursor
  | .ok _ cursor => cursor
  | .error _ cursor => cursor

/-- Reads the next character, if there is one. -/
def next? : Scanner (Option Char) := fun cursor =>
  match cursor.next? with
  | some (c, later) => .ok (some c) later
  | none => .ok none cursor

/-- The next character, which stays unread. -/
def peek? : Scanner (Option Char) := fun cursor => .ok cursor.peek? cursor

/-- Whether there is a next character that satisfies `accepts`; it stays unread. -/
def peekIs (accepts : Char → Bool) : Scanner Bool := fun cursor => .ok (cursor.peekIs accepts) cursor

/-- Reads the next character if it satisfies `accepts`. -/
def accept? (accepts : Char → Bool) : Scanner (Option Char) := fun cursor =>
  match cursor with
  | ⟨_, []⟩ => .ok none cursor
  | ⟨position, c :: rest⟩ =>
      if accepts c then .ok (some c) ⟨position.step c, rest⟩ else .ok none cursor

/-- Whether the next character is `c`; it is read if it is. -/
def accept (c : Char) : Scanner Bool := do return (← accept? (· == c)).isSome

/-- Puts characters in front of the answer of a scan. -/
def cons (c : Char) : EStateM.Result LexicalFault Cursor (List Char) →
    EStateM.Result LexicalFault Cursor (List Char)
  | .ok text cursor => .ok (c :: text) cursor
  | .error fault cursor => .error fault cursor

/-- Reads characters that satisfy `accepts`, with single underlines between two of them; `started`
says whether such a character comes before. -/
def separated (accepts : Char → Bool) (started : Bool) (position : Position) :
    List Char → EStateM.Result LexicalFault Cursor (List Char)
  | [] => .ok [] ⟨position, []⟩
  | c :: rest =>
      if accepts c then cons c (separated accepts true (position.step c) rest)
      else if c != '_' then .ok [] ⟨position, c :: rest⟩
      else if !started then .error .digitBeforeUnderline ⟨position, c :: rest⟩
      else
        match rest with
        | [] => .error .digitAtEnd ⟨position.step c, []⟩
        | d :: rest =>
            if accepts d then
              cons c (cons d (separated accepts true ((position.step c).step d) rest))
            else .error .digitAfterUnderline ⟨(position.step c).step d, rest⟩

/-- The pattern `A [_] A [_] A …` for the characters `A` that satisfy `accepts`. When `started` is
set, the first of them has been read before. -/
def pattern (accepts : Char → Bool) (started : Bool) : Scanner (List Char) := fun cursor =>
  separated accepts started cursor.position cursor.rest

/-- Reads graphic characters up to the character `close`, which stands for itself when it is written
twice. -/
def enclosed (close : Char) (position : Position) :
    List Char → EStateM.Result LexicalFault Cursor (List Char)
  | [] => .error .literalUnclosed ⟨position, []⟩
  | c :: rest =>
      if !Latin.isGraphic c then .error .literalNotGraphic ⟨position.step c, rest⟩
      else if c != close then cons c (enclosed close (position.step c) rest)
      else
        match rest with
        | [] => .ok [] ⟨position.step c, []⟩
        | d :: tail =>
            if d == close then cons c (enclosed close ((position.step c).step d) tail)
            else .ok [] ⟨position.step c, d :: tail⟩

/-- The characters of a literal that ends with `close`; the opening character has been read. -/
def literal (close : Char) : Scanner (List Char) := fun cursor =>
  enclosed close cursor.position cursor.rest

/-- A scan leaves the cursor at a later place of the same text. -/
def Forward (scan : Scanner α) : Prop :=
  ∀ cursor : Cursor, ∃ text, cursor.Reaches text (stop (scan cursor))

theorem Forward.pure (value : α) : Forward (pure value : Scanner α) :=
  fun cursor => ⟨[], .refl cursor⟩

theorem Forward.throw (fault : LexicalFault) : Forward (throw fault : Scanner α) :=
  fun cursor => ⟨[], .refl cursor⟩

theorem Forward.bind {first : Scanner α} {second : α → Scanner β} (forward : Forward first)
    (forwards : ∀ value, Forward (second value)) : Forward (first >>= second) := by
  intro cursor
  obtain ⟨one, left⟩ := forward cursor
  change ∃ text, cursor.Reaches text (stop (EStateM.bind first second cursor))
  unfold EStateM.bind
  cases answer : first cursor with
  | ok value later =>
    rw [answer] at left
    obtain ⟨two, right⟩ := forwards value later
    exact ⟨one ++ two, left.trans right⟩
  | error fault later =>
    rw [answer] at left
    exact ⟨one, left⟩

theorem Forward.ite {condition : Prop} [Decidable condition] {yes no : Scanner α}
    (left : Forward yes) (right : Forward no) : Forward (if condition then yes else no) := by
  split <;> assumption

theorem forward_next? : Forward next? := by
  rintro ⟨position, _ | ⟨c, rest⟩⟩
  · exact ⟨[], .refl _⟩
  · exact ⟨[c], Cursor.reaches_cons position c rest⟩

theorem forward_peek? : Forward peek? := fun cursor => ⟨[], .refl cursor⟩

theorem forward_peekIs (accepts : Char → Bool) : Forward (peekIs accepts) :=
  fun cursor => ⟨[], .refl cursor⟩

theorem forward_accept? (accepts : Char → Bool) : Forward (accept? accepts) := by
  rintro ⟨position, _ | ⟨c, rest⟩⟩
  · exact ⟨[], .refl _⟩
  · simp only [accept?]
    split
    · exact ⟨[c], Cursor.reaches_cons position c rest⟩
    · exact ⟨[], .refl _⟩

theorem forward_accept (c : Char) : Forward (accept c) :=
  (forward_accept? _).bind fun _ => .pure _

@[simp] theorem stop_cons (c : Char) (result : EStateM.Result LexicalFault Cursor (List Char)) :
    stop (cons c result) = stop result := by
  cases result <;> rfl

theorem reaches_separated (accepts : Char → Bool) (started : Bool) (position : Position)
    (text : List Char) :
    ∃ read, Cursor.Reaches ⟨position, text⟩ read (stop (separated accepts started position text)) := by
  fun_induction separated accepts started position text with
  | case1 => exact ⟨[], .refl _⟩
  | case2 _ position c rest _ ih =>
    obtain ⟨read, reach⟩ := ih
    exact ⟨c :: read, by rw [stop_cons]; exact (Cursor.reaches_cons position c rest).trans reach⟩
  | case3 => exact ⟨[], .refl _⟩
  | case4 => exact ⟨[], .refl _⟩
  | case5 _ position c => exact ⟨[c], Cursor.reaches_cons position c []⟩
  | case6 _ position c _ _ _ d rest _ ih =>
    obtain ⟨read, reach⟩ := ih
    refine ⟨c :: d :: read, ?_⟩
    rw [stop_cons, stop_cons]
    exact ((Cursor.reaches_cons position c _).trans (Cursor.reaches_cons _ d rest)).trans reach
  | case7 _ position c _ _ _ d rest =>
    exact ⟨[c, d], (Cursor.reaches_cons position c _).trans (Cursor.reaches_cons _ d rest)⟩

theorem forward_pattern (accepts : Char → Bool) (started : Bool) : Forward (pattern accepts started) :=
  fun cursor => reaches_separated accepts started cursor.position cursor.rest

theorem reaches_enclosed (close : Char) (position : Position) (text : List Char) :
    ∃ read, Cursor.Reaches ⟨position, text⟩ read (stop (enclosed close position text)) := by
  fun_induction enclosed close position text with
  | case1 => exact ⟨[], .refl _⟩
  | case2 position c rest => exact ⟨[c], Cursor.reaches_cons position c rest⟩
  | case3 position c rest _ _ ih =>
    obtain ⟨read, reach⟩ := ih
    exact ⟨c :: read, by rw [stop_cons]; exact (Cursor.reaches_cons position c rest).trans reach⟩
  | case4 position c => exact ⟨[c], Cursor.reaches_cons position c []⟩
  | case5 position c _ _ d tail _ ih =>
    obtain ⟨read, reach⟩ := ih
    refine ⟨c :: d :: read, ?_⟩
    rw [stop_cons]
    exact ((Cursor.reaches_cons position c _).trans (Cursor.reaches_cons _ d tail)).trans reach
  | case6 position c _ _ d tail => exact ⟨[c], Cursor.reaches_cons position c (d :: tail)⟩

theorem forward_literal (close : Char) : Forward (literal close) :=
  fun cursor => reaches_enclosed close cursor.position cursor.rest

end Scanner

end VhdlOrder
