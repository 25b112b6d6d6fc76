import Mathlib.Data.List.Forall2
import Mathlib.Tactic.Tauto
import VhdlOrder.Design.Interface
import VhdlOrder.Proofs.Lexical.Names
import VhdlOrder.Stepwise.SmallLetters

/-! # Identifiers as keys

Small letters that are compared one by one are the same exactly if the small forms of the whole texts are. In Latin-1
each character has one small form, wherever it stands, as the sigma is no character of it; so the text that is hashed
and ordered is the same as the one that decides equality. Two texts have the same small form if and only if they differ
in the case of letters alone.

The identifiers that texts and sources give are written in Latin-1. So a hash table that is keyed by identifiers finds
an entry under each spelling of a basic identifier in capital and small letters, and under no other identifier.
-/

namespace VhdlOrder

open Stepwise
open Std (HashMap)

/-! ## One by one -/

namespace Stepwise

theorem SmallLetters.same_eq (first second : SmallLetters) : first.same second = (first.left == second.left) := by
  fun_induction SmallLetters.same first second with
  | case1 first second ended ended' => rw [left_eq first, left_eq second, ended, ended']; rfl
  | case2 first second later c later' found' found _ ih => simp [left_eq first, left_eq second, found, found', ih]
  | case3 first second c later d later' found found' _ other =>
    simp [left_eq first, left_eq second, found, found', other]
  | case4 first second unlike notSome =>
    rw [left_eq first, left_eq second]
    cases found : first.next? with
    | none =>
      cases found' : second.next? with
      | none => exact absurd found' (unlike found)
      | some => rfl
    | some next =>
      cases found' : second.next? with
      | none => rfl
      | some next' => exact absurd found' (notSome _ _ _ _ found)

theorem same_ofText (first second : String) : (SmallLetters.ofText first).same (.ofText second) =
    (Text.lower first.toList == Text.lower second.toList) :=
  SmallLetters.same_eq _ _

/-- Letter by letter the same identifiers are equal as by their keys. -/
theorem equal_eq_same (a b : Identifier) : equal a b = a.same b := by
  cases a with
  | basic text =>
    cases b with
    | basic text' =>
      simp [equal, Identifier.isExtended, textOf, same_ofText, Identifier.same, Identifier.key, Identifier.keyText]
    | extended text' => simp [equal, Identifier.isExtended, Identifier.same, Identifier.key]
  | extended text =>
    cases b with
    | basic text' => simp [equal, Identifier.isExtended, Identifier.same, Identifier.key]
    | extended text' =>
      rw [Bool.eq_iff_iff]
      simp [equal, Identifier.isExtended, textOf, Identifier.same, Identifier.key, Identifier.keyText,
        String.toList_inj]

end Stepwise

/-! ## Whole texts -/

theorem Latin.toNat_of_isUpper {c : Char} (upper : Latin.isUpper c = true) :
    (65 ≤ c.toNat ∧ c.toNat ≤ 90) ∨ (192 ≤ c.toNat ∧ c.toNat ≤ 222) := by
  simp only [Latin.isUpper, Bool.or_eq_true, Bool.and_eq_true, decide_eq_true_eq] at upper
  exact upper.imp id And.left

namespace Text

/-- All characters are in Latin-1. -/
def IsLatin (text : List Char) : Prop := ∀ c ∈ text, c.toNat < 256

/-- The small letter of a capital letter of Latin-1. -/
def smallLetter (c : Char) : Char := if Latin.isUpper c then Char.ofNat (c.toNat + 32) else c

theorem lowerChar_of_latin {c : Char} (latin : c.toNat < 256) : lowerChar c = [smallLetter c] := by
  have table : ∀ n : Fin 256, lowerChar (Char.ofNat n) = [smallLetter (Char.ofNat n)] := by decide +kernel
  have single := table ⟨c.toNat, latin⟩
  rwa [Char.ofNat_toNat] at single

variable {text text' : List Char}

theorem lower_of_latin (latin : IsLatin text) : lower text = text.map smallLetter := by
  induction text with
  | nil => rfl
  | cons c text ih =>
    obtain ⟨here, others⟩ := List.forall_mem_cons.mp latin
    rw [lower, List.flatMap_cons, lowerChar_of_latin here, ← lower, ih others]
    rfl

/-- No sigma stands in Latin-1, so the place of a character does not matter. -/
theorem lowerBehind_of_latin (classes : WordClasses) (before : List Char) (latin : IsLatin text) :
    lowerBehind classes before text = lower text := by
  induction text generalizing before with
  | nil => rfl
  | cons c text ih =>
    obtain ⟨here, others⟩ := List.forall_mem_cons.mp latin
    have noSigma : c ≠ '\u03a3' := by
      rintro rfl
      exact absurd here (by decide)
    rw [lowerBehind, if_neg noSigma, ih _ others]
    rfl

/-- The second character is the small letter of the first one. -/
def IsSmallOf (c d : Char) : Prop := Latin.isUpper c = true ∧ d.toNat = c.toNat + 32

/-- The characters differ in case at most. -/
def SameLetter (c d : Char) : Prop := c = d ∨ IsSmallOf c d ∨ IsSmallOf d c

theorem smallLetter_eq_iff {c d : Char} (latin : c.toNat < 256) (latin' : d.toNat < 256) :
    smallLetter c = smallLetter d ↔ SameLetter c d := by
  have shifted {c : Char} (latin : c.toNat < 256) : (Char.ofNat (c.toNat + 32)).toNat = c.toNat + 32 :=
    toNat_ofNat (.inl (by omega))
  rw [SameLetter, IsSmallOf, IsSmallOf, ← Char.toNat_inj, ← Char.toNat_inj]
  by_cases upper : Latin.isUpper c = true <;> by_cases upper' : Latin.isUpper d = true
  · have range := Latin.toNat_of_isUpper upper
    have range' := Latin.toNat_of_isUpper upper'
    rw [smallLetter, smallLetter, if_pos upper, if_pos upper', shifted latin, shifted latin']
    omega
  · rw [smallLetter, smallLetter, if_pos upper, if_neg upper', shifted latin]
    have unlike : c.toNat ≠ d.toNat := fun same => upper' (Char.toNat_inj.mp same ▸ upper)
    simp [upper, upper', unlike, eq_comm]
  · rw [smallLetter, smallLetter, if_neg upper, if_pos upper', shifted latin']
    have unlike : c.toNat ≠ d.toNat := fun same => upper (Char.toNat_inj.mp same ▸ upper')
    simp [upper, upper', unlike]
  · rw [smallLetter, smallLetter, if_neg upper, if_neg upper']
    simp [upper, upper']

/-- Texts of Latin-1 have the same small form if and only if they differ in the case of letters alone. -/
theorem lower_eq_iff (latin : IsLatin text) (latin' : IsLatin text') :
    lower text = lower text' ↔ List.Forall₂ SameLetter text text' := by
  rw [lower_of_latin latin, lower_of_latin latin']
  induction text generalizing text' with
  | nil => cases text' <;> simp
  | cons c text ih =>
    cases text' with
    | nil => simp
    | cons d text' =>
      obtain ⟨here, others⟩ := List.forall_mem_cons.mp latin
      obtain ⟨here', others'⟩ := List.forall_mem_cons.mp latin'
      rw [List.map_cons, List.map_cons, List.cons_eq_cons, smallLetter_eq_iff here here', ih others others',
        List.forall₂_cons]

end Text

/-! ## Order -/

namespace Stepwise

/-- A key as a list of numbers. -/
def codes (key : Bool × List Char) : List Nat := key.1.toNat :: key.2.map Char.toNat

theorem codes_injective : Function.Injective codes := by
  rintro ⟨extended, text⟩ ⟨extended', text'⟩ same
  obtain ⟨forms, texts⟩ := List.cons.inj same
  have toNat_injective : Function.Injective Char.toNat := fun c d => Char.toNat_inj.mp
  obtain rfl : text = text' := List.map_injective_iff.mpr toNat_injective texts
  cases extended <;> cases extended' <;> first | rfl | cases forms

theorem compareText_eq (first second : List Char) : Identifier.compareText first second =
    List.compareLex compare (first.map Char.toNat) (second.map Char.toNat) := by
  fun_induction Identifier.compareText first second with
  | case1 => rfl
  | case2 => rfl
  | case3 => rfl
  | case4 c first d second ih => rw [List.map_cons, List.map_cons, List.compareLex_cons_cons, ih]

/-- Keys are ordered as lists of numbers are. -/
theorem compareKeys_eq (first second : Bool × List Char) :
    compareKeys first second = List.compareLex compare (codes first) (codes second) := by
  rw [compareKeys, compareText_eq, codes, codes, List.compareLex_cons_cons]

theorem compareKeys_swap (first second : Bool × List Char) :
    compareKeys second first = (compareKeys first second).swap := by
  rw [compareKeys_eq, compareKeys_eq]
  exact Std.OrientedCmp.eq_swap

theorem isLE_compareKeys_trans {first second third : Bool × List Char}
    (left : (compareKeys first second).isLE = true) (right : (compareKeys second third).isLE = true) :
    (compareKeys first third).isLE = true := by
  rw [compareKeys_eq] at left right ⊢
  exact Std.TransCmp.isLE_trans left right

theorem compareKeys_eq_eq_iff {first second : Bool × List Char} :
    compareKeys first second = .eq ↔ first = second := by
  rw [compareKeys_eq, Std.LawfulEqCmp.compare_eq_iff_eq, codes_injective.eq_iff]

end Stepwise

/-! ## The characters of identifiers -/

theorem Latin.toNat_lt_of_isGraphic {c : Char} (graphic : isGraphic c = true) : c.toNat < 256 := by
  have specials : (special.all fun d => decide (d.toNat < 256)) = true := by decide +kernel
  have others : (['!', '$', '%', '\x5c', '^', '\x7b', '\x7d', '~', '\u00d7', '\u00f7'].all
    fun d => decide (d.toNat < 256)) = true := by decide +kernel
  simp only [isGraphic, isSpecial, isOtherSpecial, isSpace, Bool.or_eq_true, Bool.and_eq_true, decide_eq_true_eq,
    List.contains_iff_mem, beq_iff_eq] at graphic
  obtain (((letter | digit) | isSpecial) | other | ⟨-, le⟩) | rfl | rfl := graphic
  · exact toNat_lt_of_isLetterOrDigit (by simp [isLetterOrDigit, letter])
  · exact toNat_lt_of_isLetterOrDigit (by simp [isLetterOrDigit, digit])
  · exact of_decide_eq_true (List.all_eq_true.mp specials c isSpecial)
  · exact of_decide_eq_true (List.all_eq_true.mp others c other)
  · exact Nat.lt_of_le_of_lt le (by decide)
  · decide
  · decide

namespace Identifier

open Text (IsLatin SameLetter)

variable {name : Identifier}

theorem IsText.latin (isText : name.IsText) : IsLatin (textOf name).toList := by
  cases isText with
  | @basic first text letter word =>
    intro c member
    rw [textOf, String.toList_ofList] at member
    obtain accepted | rfl := (word.of_letter letter).character c member
    · exact Latin.toNat_lt_of_isLetterOrDigit accepted
    · decide
  | @extended text nonempty graphic =>
    intro c member
    rw [textOf, String.toList_ofList] at member
    exact Latin.toNat_lt_of_isGraphic (graphic c member)

/-- The identifiers there are: what a text is read as, a token of a source, or the designator of a subprogram, which may
be an operator symbol. -/
inductive IsGiven : Identifier → Prop
  | text {text : String} {name : Identifier} (answered : read text = .ok name) : IsGiven name
  | token {text : String} {position : Position} {name : Identifier}
      (member : ⟨position, .ok (.identifier name)⟩ ∈ Lexer.items text) : IsGiven name
  | designator {text : String} {token : PlacedToken} {name : Located Identifier}
      (member : ⟨token.position, .ok token.value⟩ ∈ Lexer.items text)
      (answered : Interface.designator token = .ok name) : IsGiven name.value

theorem latin_of_designator {token : PlacedToken} {name : Located Identifier}
    (scanned : Scanner.IsScanned token.value) (answered : Interface.designator token = .ok name) :
    IsLatin (textOf name.value).toList := by
  obtain ⟨position, value⟩ := token
  cases value with
  | identifier name =>
    cases answered
    have isName : name.IsName := scanned
    exact isName.isText.latin
  | string text =>
    cases answered
    intro c member
    rw [textOf, Token.render, String.toList_ofList] at member
    change c ∈ '\x22' :: Scanner.doubled '\x22' text.toList ++ ['\x22'] at member
    have inside : c = '\x22' ∨ c ∈ text.toList := by
      simp only [List.cons_append, List.mem_cons, List.mem_append, Scanner.mem_doubled, List.not_mem_nil] at member
      tauto
    obtain rfl | inside := inside
    · decide
    · exact Latin.toNat_lt_of_isGraphic (scanned c inside)
  | character d =>
    cases answered
    intro c member
    rw [textOf, Token.render, String.toList_ofList] at member
    have inside : c = '\x27' ∨ c = d := by
      simp only [List.mem_cons, List.not_mem_nil] at member
      tauto
    obtain rfl | rfl := inside
    · decide
    · exact Latin.toNat_lt_of_isGraphic scanned
  | _ => cases answered

theorem IsGiven.latin (given : name.IsGiven) : IsLatin (textOf name).toList := by
  cases given with
  | text answered => exact (readList_eq_ok_iff.mp answered).1.latin
  | token member => exact (Lexer.namesOnly_of_mem_itemsFrom false _ _ member _ rfl _ rfl).isText.latin
  | designator member answered =>
    exact latin_of_designator (Lexer.isScanned_of_mem_itemsFrom false _ _ member _ rfl) answered

/-! ## Equality, hashing and order -/

variable {a b : Identifier} (classes : WordClasses)

theorem keyTextOf_of_latin (latin : IsLatin (textOf name).toList) : keyTextOf classes name = name.keyText := by
  cases name with
  | basic text => exact Text.lowerBehind_of_latin classes [] latin
  | extended text => rfl

theorem nameOrder_of_latin (latin : IsLatin (textOf a).toList) (latin' : IsLatin (textOf b).toList) :
    nameOrder classes a b = a.order b := by
  rw [nameOrder, sortKey, sortKey, keyTextOf_of_latin classes latin, keyTextOf_of_latin classes latin']
  rfl

theorem order_eq (a b : Identifier) : a.order b = compareKeys a.key b.key := rfl

/-- The identifiers are basic and differ in the case of letters alone. -/
def SameLetters (a b : Identifier) : Prop :=
  ∃ text text', a = .basic text ∧ b = .basic text' ∧ List.Forall₂ SameLetter text.toList text'.toList

/-- A basic identifier is equal to those that differ from it in the case of letters alone. -/
theorem same_basic_iff {text : String} (latin : IsLatin text.toList) (latin' : IsLatin (textOf b).toList) :
    (basic text).same b = true ↔ SameLetters (.basic text) b := by
  rw [same_iff]
  cases b with
  | extended text' => simp [SameLetters, key, isExtended]
  | basic text' =>
    have texts : (basic text).key = (basic text').key ↔ Text.lower text.toList = Text.lower text'.toList := by
      simp [key, isExtended, keyText]
    have latin' : IsLatin text'.toList := latin'
    rw [texts, Text.lower_eq_iff latin latin']
    simp [SameLetters]

/-! ## Tables -/

end Identifier

/-- An identifier that a table is keyed by. The text that is hashed goes through `digest`. -/
structure TableKey (classes : WordClasses) (digest : List Char → UInt64) where
  name : Identifier
  given : name.IsGiven

namespace TableKey

variable {classes : WordClasses} {digest : List Char → UInt64} {β : Type} {key other : TableKey classes digest}

instance : BEq (TableKey classes digest) := ⟨fun first second => equal first.name second.name⟩

instance : Hashable (TableKey classes digest) := ⟨fun key => digest (keyTextOf classes key.name)⟩

theorem beq_iff_same : (key == other) = true ↔ key.name.same other.name = true := by
  rw [← equal_eq_same]
  rfl

/-- Equal identifiers are hashed by the same text. -/
theorem keyTextOf_eq_of_same (same : key.name.same other.name = true) :
    keyTextOf classes key.name = keyTextOf classes other.name := by
  rw [Identifier.keyTextOf_of_latin classes key.given.latin, Identifier.keyTextOf_of_latin classes other.given.latin]
  exact congrArg Prod.snd (Identifier.same_iff.mp same)

instance : EquivBEq (TableKey classes digest) where
  rfl := beq_iff_same.mpr (Identifier.same_refl _)
  symm same := beq_iff_same.mpr ((Identifier.same_comm _ _).trans (beq_iff_same.mp same))
  trans left right := beq_iff_same.mpr (Identifier.same_trans (beq_iff_same.mp left) (beq_iff_same.mp right))

instance : LawfulHashable (TableKey classes digest) where
  hash_eq first second same := by
    change digest (keyTextOf classes first.name) = digest (keyTextOf classes second.name)
    rw [keyTextOf_eq_of_same (beq_iff_same.mp same)]

/-- An entry is found under the identifiers that are equal to the one it was entered under. -/
theorem found_iff {table : HashMap (TableKey classes digest) β} {value : β} (entered : (key, value) ∈ table.toList) :
    (table.getKey? other = some key ∧ table[other]? = some value) ↔ key.name.same other.name = true := by
  obtain ⟨here, found⟩ := HashMap.mem_toList_iff_getKey?_eq_some_and_getElem?_eq_some.mp entered
  rw [← beq_iff_same]
  constructor
  · rintro ⟨there, -⟩
    have alike := HashMap.getKey?_beq (m := table) (k := other)
    rwa [there] at alike
  · intro same
    rw [← HashMap.getKey?_congr same, ← HashMap.getElem?_congr same]
    exact ⟨here, found⟩

/-- The identifiers that texts and sources give may be used as keys: equality is an equivalence, equal identifiers are
hashed by the same text, and the order is total and finds two identifiers the same exactly if they are equal. A basic
identifier is never equal to an extended one. So an entry of a table under a basic identifier is found under the
identifiers that differ from it in the case of letters alone, and under no others. -/
theorem identifiers_as_keys (classes : WordClasses) (digest : List Char → UInt64) :
    (∀ a b : TableKey classes digest, equal a.name b.name = a.name.same b.name ∧
      keyTextOf classes a.name = a.name.keyText ∧ nameOrder classes a.name b.name = a.name.order b.name) ∧
    (Equivalence fun a b : TableKey classes digest => equal a.name b.name = true) ∧
    (∀ a b : TableKey classes digest, equal a.name b.name = true →
      keyTextOf classes a.name = keyTextOf classes b.name) ∧
    (∀ a b : TableKey classes digest, nameOrder classes b.name a.name = (nameOrder classes a.name b.name).swap) ∧
    (∀ a b c : TableKey classes digest, (nameOrder classes a.name b.name).isLE = true →
      (nameOrder classes b.name c.name).isLE = true → (nameOrder classes a.name c.name).isLE = true) ∧
    (∀ a b : TableKey classes digest, nameOrder classes a.name b.name = .eq ↔ equal a.name b.name = true) ∧
    (∀ a b : TableKey classes digest, a.name.isExtended ≠ b.name.isExtended → equal a.name b.name = false) ∧
    ∀ (β : Type) (table : HashMap (TableKey classes digest) β) (key other : TableKey classes digest) (value : β),
      (key, value) ∈ table.toList → key.name.isExtended = false →
        ((table.getKey? other = some key ∧ table[other]? = some value) ↔ key.name.SameLetters other.name) := by
  refine ⟨fun a b => ⟨equal_eq_same _ _, Identifier.keyTextOf_of_latin classes a.given.latin,
    Identifier.nameOrder_of_latin classes a.given.latin b.given.latin⟩, ⟨?_, ?_, ?_⟩, fun a b same => ?_, fun a b => ?_,
    fun a b c left right => ?_, fun a b => ?_, fun a b forms => ?_, fun β table key other value entered basic => ?_⟩
  · exact fun a => show (a == a) = true from BEq.rfl
  · exact fun {a b} same => show (b == a) = true from BEq.symm same
  · exact fun {a b c} left right => show (a == c) = true from BEq.trans left right
  · exact keyTextOf_eq_of_same (beq_iff_same.mp same)
  · exact compareKeys_swap _ _
  · exact isLE_compareKeys_trans left right
  · rw [Identifier.nameOrder_of_latin classes a.given.latin b.given.latin, Identifier.order_eq, compareKeys_eq_eq_iff,
      equal_eq_same, Identifier.same_iff]
  · rw [equal_eq_same, Bool.eq_false_iff]
    exact fun same => forms (congrArg Prod.fst (Identifier.same_iff.mp same))
  · rw [found_iff entered]
    obtain ⟨name, given⟩ := key
    cases name with
    | extended text => cases basic
    | basic text => exact Identifier.same_basic_iff given.latin other.given.latin

/-- A name with a letter of Latin-1 beyond ASCII, entered with a capital in front and looked up with one behind. -/
theorem identifiers_as_keys_mixed :
    let classes : WordClasses := ⟨Latin.isLetter, (· == '.')⟩
    let digest : List Char → UInt64 := fun text => text.length.toUInt64
    ∃ key other : TableKey classes digest, key.name = .basic "Äb" ∧ other.name = .basic "äB" ∧
      ((∅ : HashMap (TableKey classes digest) Nat).insert key 7)[other]? = some 7 := by
  intro classes digest
  have read : Identifier.read "Äb" = .ok (.basic "Äb") := rfl
  have read' : Identifier.read "äB" = .ok (.basic "äB") := rfl
  let key : TableKey classes digest := ⟨.basic "Äb", .text read⟩
  let other : TableKey classes digest := ⟨.basic "äB", .text read'⟩
  have variant : key.name.SameLetters other.name :=
    ⟨"Äb", "äB", rfl, rfl, .cons (.inr (.inl ⟨rfl, rfl⟩)) (.cons (.inr (.inr ⟨rfl, rfl⟩)) .nil)⟩
  have entered : (key, 7) ∈ ((∅ : HashMap (TableKey classes digest) Nat).insert key 7).toList :=
    HashMap.mem_toList_iff_getKey?_eq_some_and_getElem?_eq_some.mpr
      ⟨HashMap.getKey?_insert_self, HashMap.getElem?_insert_self⟩
  obtain ⟨-, -, -, -, -, -, -, tables⟩ := identifiers_as_keys classes digest
  exact ⟨key, other, rfl, rfl, ((tables Nat _ key other 7 entered rfl).mpr variant).2⟩

end TableKey

end VhdlOrder
