import VhdlOrder.Sources.EndMarks

/-! # File patterns

A pattern describes paths. A question mark stands for one character, an asterisk for any characters,
brackets for one character out of some or, after an exclamation mark, for one that is not among them.
Two asterisks that are a component of the path on their own stand for any number of components. All of
them may stand for slashes, and the letters `a` to `z` match their capitals.
-/

namespace VhdlOrder

/-- What a pattern lists between brackets: a character, or all characters from one to another. -/
inductive CharacterSet where
  | single (c : Char)
  | range (first last : Char)
deriving DecidableEq

/-- One part of a pattern. -/
inductive PatternPart where
  | literal (c : Char)
  | anyCharacter
  | anyText
  | anyComponents
  | within (sets : List CharacterSet)
  | except (sets : List CharacterSet)
deriving DecidableEq

/-- A reason why a text is no pattern, each with the place in the text. -/
inductive PatternFault where
  | asterisks (place : Nat)
  | notComponent (place : Nat)
  | brackets (place : Nat)
deriving DecidableEq

/-- The wording of the fault. -/
def PatternFault.render : PatternFault → String
  | .asterisks place =>
      "pattern syntax error near position " ++ toString place
        ++ ": wildcards are either regular \x60*\x60 or recursive \x60**\x60"
  | .notComponent place =>
      "pattern syntax error near position " ++ toString place
        ++ ": recursive wildcards must form a single path component"
  | .brackets place =>
      "pattern syntax error near position " ++ toString place ++ ": invalid range pattern"

/-- The parts of a pattern in order. -/
structure Pattern where
  parts : List PatternPart
deriving DecidableEq

namespace Pattern

/-! ## Reading -/

/-- The sets that the characters between brackets are. -/
def sets : List Char → List CharacterSet
  | first :: '-' :: last :: rest => .range first last :: sets rest
  | c :: rest => .single c :: sets rest
  | [] => []

/-- The characters between brackets and the text behind the closing one. The first character never
closes the brackets. -/
def members? : List Char → Option (List Char × List Char)
  | first :: rest =>
      match rest.dropWhile fun c => c != ']' with
      | [] => none
      | _ :: tail => some (first :: rest.takeWhile fun c => c != ']', tail)
  | [] => none

theorem length_members? {text members tail : List Char} (found : members? text = some (members, tail)) :
    tail.length < text.length := by
  cases text with
  | nil => simp [members?] at found
  | cons first rest =>
    have shorter := (List.dropWhile_suffix (fun c => c != ']') (l := rest)).length_le
    simp only [members?] at found
    split at found
    · simp at found
    · next split =>
      simp only [Option.some.injEq, Prod.mk.injEq] at found
      rw [split, found.2] at shorter
      simp only [List.length_cons] at shorter ⊢
      omega

/-- The parts that `text` stands for; `place` is its place in the whole text and `before` the character
in front of it. -/
def readFrom (place : Nat) (before : Option Char) (text : List Char) :
    Except PatternFault (List PatternPart) :=
  let further (part : PatternPart) (more : Except PatternFault (List PatternPart)) :=
    more.map fun parts => part :: parts
  match text with
  | [] => .ok []
  | '?' :: rest => further .anyCharacter (readFrom (place + 1) (some '?') rest)
  | '*' :: '*' :: '*' :: _ => .error (.asterisks (place + 2))
  | '*' :: '*' :: rest =>
      if before.any fun c => c != '/' then .error (.notComponent (place - 1))
      else
        match rest with
        | [] => .ok [.anyComponents]
        | '/' :: rest => further .anyComponents (readFrom (place + 3) (some '/') rest)
        | _ => .error (.notComponent (place + 2))
  | '*' :: rest => further .anyText (readFrom (place + 1) (some '*') rest)
  | '[' :: '!' :: rest =>
      match found : members? rest with
      | some (members, tail) =>
          have shorter := length_members? found
          further (.except (sets members)) (readFrom (place + members.length + 3) (some ']') tail)
      | none => .error (.brackets place)
  | '[' :: rest =>
      match found : members? rest with
      | some (members, tail) =>
          have shorter := length_members? found
          further (.within (sets members)) (readFrom (place + members.length + 2) (some ']') tail)
      | none => .error (.brackets place)
  | c :: rest => further (.literal c) (readFrom (place + 1) (some c) rest)
termination_by text.length

/-- The pattern that `text` is. -/
def read (text : String) : Except PatternFault Pattern :=
  (readFrom 0 none text.toList).map fun parts => ⟨parts⟩

/-! ## Matching -/

/-- Whether two characters are the same but for the case of the letters `a` to `z`. -/
def sameCharacter (a b : Char) : Bool := a.toLower == b.toLower

/-- Whether a set has the character. A range between two letters has both small and capital letters. -/
def hasCharacter (c : Char) : CharacterSet → Bool
  | .single other => sameCharacter c other
  | .range first last =>
      (first ≤ c && c ≤ last)
        || (first.isAlpha && last.isAlpha && first.toLower ≤ c.toLower && c.toLower ≤ last.toLower)

/-- Marks the ends of the text that the parts describe. -/
def marks (text : List Char) : List PatternPart → EndMarks
  | [] => EndMarks.atEmpty text
  | part :: parts =>
      let behind := marks text parts
      match part with
      | .literal c => EndMarks.one (sameCharacter c) text behind
      | .anyCharacter => EndMarks.one (fun _ => true) text behind
      | .anyText => EndMarks.many (fun _ => true) text behind
      | .anyComponents =>
          if behind.getLast? == some true then EndMarks.everywhere text
          else EndMarks.either behind (EndMarks.through (· == '/') text behind)
      | .within sets => EndMarks.one (fun c => sets.any (hasCharacter c)) text behind
      | .except sets => EndMarks.one (fun c => !sets.any (hasCharacter c)) text behind

/-- Whether the pattern describes the path. -/
def accepts (pattern : Pattern) (path : String) : Bool := (marks path.toList pattern.parts).whole

end Pattern

end VhdlOrder
