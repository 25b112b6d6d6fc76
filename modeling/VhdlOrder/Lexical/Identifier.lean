import VhdlOrder.Text.Lowercase

/-! # Identifiers

An identifier is basic, and then the case of its letters does not matter, or extended, written
between backslashes, and then every character counts. Two identifiers name the same thing when they
have the same key: the form together with the text, the text of a basic identifier in small letters.
-/

namespace VhdlOrder

/-- An identifier; the text of an extended one is kept without its backslashes. -/
inductive Identifier where
  | basic (text : String)
  | extended (text : String)
deriving DecidableEq, Inhabited

namespace Identifier

/-- The name `work` of the working library. -/
def work : Identifier := .basic "work"

def isExtended : Identifier → Bool
  | .basic _ => false
  | .extended _ => true

/-- The text that decides which identifiers are the same. -/
def keyText : Identifier → List Char
  | .basic text => Text.lower text.toList
  | .extended text => text.toList

/-- What two identifiers share exactly when they name the same thing. -/
def key (name : Identifier) : Bool × List Char := (name.isExtended, name.keyText)

/-- Whether two identifiers name the same thing. -/
def same (a b : Identifier) : Bool := a.key == b.key

theorem same_iff {a b : Identifier} : a.same b = true ↔ a.key = b.key := by simp [same]

@[simp] theorem same_refl (a : Identifier) : a.same a = true := by simp [same]

theorem same_comm (a b : Identifier) : a.same b = b.same a := by
  rw [Bool.eq_iff_iff, same_iff, same_iff, eq_comm]

theorem same_trans {a b c : Identifier} (left : a.same b = true) (right : b.same c = true) :
    a.same c = true :=
  same_iff.mpr ((same_iff.mp left).trans (same_iff.mp right))

/-- Compares two texts character by character; a text comes after every beginning of it. -/
def compareText : List Char → List Char → Ordering
  | [], [] => .eq
  | [], _ :: _ => .lt
  | _ :: _, [] => .gt
  | c :: first, d :: second => (compare c.toNat d.toNat).then (compareText first second)

/-- Basic identifiers come before extended ones; those of one form are ordered by key. -/
def order (a b : Identifier) : Ordering :=
  (compare a.isExtended.toNat b.isExtended.toNat).then (compareText a.keyText b.keyText)

/-- The identifier as it is written in a source; an inner backslash is written twice. -/
def render : Identifier → String
  | .basic text => text
  | .extended text =>
      String.ofList ('\\' :: text.toList.flatMap (fun c => if c = '\\' then ['\\', '\\'] else [c]) ++ ['\\'])

/-- The number of bytes of the written form. -/
def byteLength : Identifier → Nat
  | .basic text => text.utf8ByteSize
  | .extended text => text.utf8ByteSize + 2 + text.toList.count '\\'

end Identifier

end VhdlOrder
