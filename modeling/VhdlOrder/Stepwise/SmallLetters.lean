import VhdlOrder.Lexical.Identifier

/-! # Identifiers compared letter by letter

Two basic identifiers are equal if their small letters are, which are compared one by one while they are written out.
Where an identifier is hashed or ordered, its whole text is put into small letters first. There a capital sigma that
ends a word has a small form of its own, so that the two ways are not the same for every text.
-/

namespace VhdlOrder.Stepwise

/-! ## Small letters one by one -/

/-- The small letters that are still to come: those of a character that is being written out, and those of the
characters behind it. -/
structure SmallLetters where
  pending : List Char
  rest : List Char

namespace SmallLetters

def ofText (text : String) : SmallLetters := ⟨[], text.toList⟩

/-- All small letters that are still to come. -/
def left (letters : SmallLetters) : List Char := letters.pending ++ Text.lower letters.rest

/-- The next small letter, and those behind it. -/
def nextFrom? : List Char → List Char → Option (Char × SmallLetters)
  | c :: pending, rest => some (c, ⟨pending, rest⟩)
  | [], c :: rest => nextFrom? (Text.lowerChar c) rest
  | [], [] => none

def next? (letters : SmallLetters) : Option (Char × SmallLetters) := nextFrom? letters.pending letters.rest

theorem left_of_nextFrom? (pending rest : List Char) : pending ++ Text.lower rest =
    ((nextFrom? pending rest).map fun next => next.1 :: next.2.left).getD [] := by
  fun_induction nextFrom? pending rest with
  | case1 c pending rest => rfl
  | case2 c rest ih => exact ih
  | case3 => rfl

theorem left_eq (letters : SmallLetters) :
    letters.left = (letters.next?.map fun next => next.1 :: next.2.left).getD [] :=
  left_of_nextFrom? letters.pending letters.rest

/-- Whether the small letters are the same to the end. -/
def same (first second : SmallLetters) : Bool :=
  match found : first.next?, second.next? with
  | none, none => true
  | some (c, later), some (d, later') =>
      have shorter : first.left.length = later.left.length + 1 := by rw [left_eq first, found]; rfl
      if c = d then same later later' else false
  | _, _ => false
termination_by first.left.length

end SmallLetters

/-! ## Whole texts -/

/-- What tells where a word ends: which characters have case, and which ones do not count. -/
structure WordClasses where
  hasCase : Char → Bool
  isPassed : Char → Bool

/-- Whether the first character that counts has case. -/
def WordClasses.meetsWord (classes : WordClasses) (text : List Char) : Bool :=
  (text.find? fun c => !classes.isPassed c).any classes.hasCase

/-- The small form of the characters that stand behind `before`, which is in reverse order. -/
def lowerBehind (classes : WordClasses) (before : List Char) : List Char → List Char
  | [] => []
  | c :: rest =>
      (if c = '\u03a3' then
        [if classes.meetsWord before && !classes.meetsWord rest then '\u03c2' else '\u03c3']
      else Text.lowerChar c) ++ lowerBehind classes (c :: before) rest

/-- The small form of a text as a whole. -/
def lowerText (classes : WordClasses) (text : String) : List Char := lowerBehind classes [] text.toList

/-! ## Identifiers -/

def textOf : Identifier → String
  | .basic text => text
  | .extended text => text

/-- Whether two identifiers are equal. -/
def equal (a b : Identifier) : Bool :=
  if a.isExtended != b.isExtended then false
  else if a.isExtended then textOf a == textOf b
  else (SmallLetters.ofText (textOf a)).same (.ofText (textOf b))

/-- The text of an identifier that is hashed, and compared where identifiers are ordered. -/
def keyTextOf (classes : WordClasses) : Identifier → List Char
  | .basic text => lowerText classes text
  | .extended text => text.toList

/-- What identifiers are ordered by. -/
def sortKey (classes : WordClasses) (name : Identifier) : Bool × List Char :=
  (name.isExtended, keyTextOf classes name)

/-- The order of two keys. -/
def compareKeys (first second : Bool × List Char) : Ordering :=
  (compare first.1.toNat second.1.toNat).then (Identifier.compareText first.2 second.2)

/-- The order of two identifiers. -/
def nameOrder (classes : WordClasses) (a b : Identifier) : Ordering :=
  compareKeys (sortKey classes a) (sortKey classes b)

end VhdlOrder.Stepwise
