import VhdlOrder.Lexical.Token
import VhdlOrder.Name.SelectedName

/-! # Other spellings of a name

A respelling writes identifiers in another way without a change of what they name, as one that writes basic
identifiers in small letters does. Whether two names are the same therefore does not depend on how either of
them is spelled. Operator symbols and character literals, which may stand in the place of a name, are kept.
-/

namespace VhdlOrder

/-- A way to spell identifiers. What is spelled in another way still names the same thing, and what stands between
quotes is spelled as it is. -/
structure Respelling where
  spell : Identifier → Identifier
  key_spell : ∀ name, (spell name).key = name.key
  spell_string : ∀ text, spell (.basic (Token.string text).render) = .basic (Token.string text).render
  spell_character : ∀ c, spell (.basic (Token.character c).render) = .basic (Token.character c).render

namespace Respelling

instance : CoeFun Respelling fun _ => Identifier → Identifier := ⟨spell⟩

/-- Leaves every identifier as it is. -/
def keep : Respelling := ⟨id, fun _ => rfl, fun _ => rfl, fun _ => rfl⟩

@[simp] theorem spell_keep : keep.spell = id := rfl

variable (f : Respelling) (a b : Identifier)

@[simp] theorem key_apply : (f a).key = a.key := f.key_spell a

@[simp] theorem same_left : (f a).same b = a.same b := by simp [Identifier.same]

@[simp] theorem same_right : a.same (f b) = a.same b := by simp [Identifier.same]

@[simp] theorem keyText_apply : (f a).keyText = a.keyText := congrArg Prod.snd (f.key_apply a)

@[simp] theorem isExtended_apply : (f a).isExtended = a.isExtended := congrArg Prod.fst (f.key_apply a)

end Respelling

variable (f : Respelling)

/-- The name with every identifier spelled in another way. -/
def SelectedName.respell (name : SelectedName) : SelectedName := ⟨f name.first, name.suffix.map f⟩

namespace SelectedName

variable (name other : SelectedName)

@[simp] theorem first_respell : (name.respell f).first = f name.first := rfl

@[simp] theorem suffix_respell : (name.respell f).suffix = name.suffix.map f := rfl

@[simp] theorem parts_respell : (name.respell f).parts = name.parts.map f := rfl

@[simp] theorem last_respell : (name.respell f).last = f name.last := by
  simp only [last, suffix_respell, List.getLast?_map, first_respell]
  cases name.suffix.getLast? <;> rfl

@[simp] theorem isExpanded_respell : (name.respell f).isExpanded = name.isExpanded := by
  simp [isExpanded]

@[simp] theorem ofIdentifier_respell (name : Identifier) : (ofIdentifier name).respell f = ofIdentifier (f name) := rfl

@[simp] theorem respell_keep : name.respell .keep = name := by
  simp [respell]

@[simp] theorem sameParts_map (first second : List Identifier) :
    sameParts (first.map f) (second.map f) = sameParts first second := by
  induction first generalizing second with
  | nil => cases second <;> rfl
  | cons name rest ih =>
    cases second with
    | nil => rfl
    | cons other more => simp [sameParts, ih]

@[simp] theorem same_respell : (name.respell f).same (other.respell f) = name.same other := by
  simp [same]

end SelectedName

/-- The reference with its name spelled in another way. -/
def Reference.respell (reference : Reference) : Reference := ⟨reference.name.respell f, reference.position⟩

namespace Reference

variable (reference other : Reference)

@[simp] theorem name_respell : (reference.respell f).name = reference.name.respell f := rfl

@[simp] theorem position_respell : (reference.respell f).position = reference.position := rfl

@[simp] theorem respell_keep : reference.respell .keep = reference := by simp [respell]

@[simp] theorem same_respell : (reference.respell f).same (other.respell f) = reference.same other := by
  simp [same]

end Reference

end VhdlOrder
