/-! # Resembling texts

How many characters have to be inserted, left out or replaced to turn one text into another, and which
of some words a misspelt word was meant to be.
-/

namespace VhdlOrder.Text

/-- The distances from a text that begins with `c` to all ends of another text, where `further` are those
from the text behind `c`. -/
def distancesFrom (c : Char) : List Char → List Nat → List Nat
  | other :: text, inserted :: further =>
      let left := distancesFrom c text further
      let replaced := further.headD 0 + (if c = other then 0 else 1)
      min replaced (min (inserted + 1) (left.headD 0 + 1)) :: left
  | _, further => further.map (· + 1)

/-- The distances from a text to all ends of another one, the whole of it first. -/
def distances : List Char → List Char → List Nat
  | [], [] => [0]
  | [], _ :: text => (text.length + 1) :: distances [] text
  | c :: rest, text => distancesFrom c text (distances rest text)

/-- The least number of characters to insert, leave out or replace in one text to get another one. -/
def distance (first second : String) : Nat := (distances first.toList second.toList).headD 0

/-- The first of the words that are closest to a text. -/
def closest? (text : String) : List String → Option String
  | [] => none
  | word :: words =>
      match closest? text words with
      | some other => if distance text other < distance text word then some other else some word
      | none => some word

/-- The word that a misspelt word was meant to be: the closest one, if no more than two characters are
wrong. -/
def meant? (text : String) (words : List String) : Option String :=
  (closest? text words).filter fun word => distance text word ≤ 2

end VhdlOrder.Text
