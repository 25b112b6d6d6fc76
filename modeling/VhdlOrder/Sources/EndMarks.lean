/-! # Marks on the ends of a text

A pattern is compared with a text from its last part to its first one. On the way every end of the
text has a mark, which says whether the parts seen so far describe that end. Each part turns the marks
that stand behind it into new ones, so that the work grows with the length of the pattern times that of
the text, whatever the pattern is.
-/

namespace VhdlOrder

/-- A mark for each end of a text: the first one is for the whole text, the last one for the empty end. -/
abbrev EndMarks := List Bool

namespace EndMarks

variable {α : Type}

/-- Marks the empty end. -/
def atEmpty : List α → EndMarks
  | [] => [true]
  | _ :: text => false :: atEmpty text

/-- Marks no end. -/
def nowhere : List α → EndMarks
  | [] => [false]
  | _ :: text => false :: nowhere text

/-- Marks every end. -/
def everywhere : List α → EndMarks
  | [] => [true]
  | _ :: text => true :: everywhere text

/-- Marks the ends that have an accepted character in front of a marked end. -/
def one (accepts : α → Bool) : List α → EndMarks → EndMarks
  | c :: text, _ :: marks => (accepts c && marks.headD false) :: one accepts text marks
  | _, _ => [false]

/-- Marks the ends that have accepted characters, or none, in front of a marked end. -/
def many (accepts : α → Bool) : List α → EndMarks → EndMarks
  | c :: text, mark :: marks =>
      let more := many accepts text marks
      (mark || (accepts c && more.headD false)) :: more
  | _, marks => marks

/-- Marks the ends that have any text up to an accepted character in front of a marked end. -/
def through (accepts : α → Bool) (text : List α) (marks : EndMarks) : EndMarks :=
  many (fun _ => true) text (one accepts text marks)

/-- Marks the ends that have one of two marks. -/
def either (first second : EndMarks) : EndMarks := first.zipWith or second

/-- Whether the whole text is marked. -/
def whole (marks : EndMarks) : Bool := marks.headD false

end EndMarks

end VhdlOrder
