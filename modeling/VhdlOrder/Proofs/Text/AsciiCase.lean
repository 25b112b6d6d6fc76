import Mathlib.Data.String.Basic
import VhdlOrder.Text.Latin
import VhdlOrder.Text.Lowercase

/-! # Letters from `A` to `Z` in two cases

Texts are compared without regard to the case of these letters by their sizes and then character by character, as far
as the shorter text goes. A letter has the same size in both cases, so texts that agree so far and have the same size
have equally many characters, and they are equal in small letters at every place.
-/

namespace VhdlOrder

namespace Text

/-- A capital letter from `A` to `Z` has its small form 32 places behind it. -/
theorem toNat_toLower {c : Char} (first : 'A' ≤ c) (last : c ≤ 'Z') : c.toLower.toNat = c.toNat + 32 := by
  have small : c.toLower.val = c.val + ('a'.val - 'A'.val) := congrArg Char.val (dif_pos ⟨first, last⟩)
  have bound : c.val.toNat ≤ 90 := UInt32.le_iff_toNat_le.mp last
  change c.toLower.val.toNat = c.val.toNat + 32
  rw [small, UInt32.toNat_add]
  exact Nat.mod_eq_of_lt (by change c.val.toNat + 32 < 2 ^ 32; omega)

theorem toLower_eq_self {c : Char} (small : ¬('A' ≤ c ∧ c ≤ 'Z')) : c.toLower = c := dif_neg small

theorem isLetter_toLower (c : Char) : Latin.isLetter c.toLower = Latin.isLetter c := by
  by_cases capital : 'A' ≤ c ∧ c ≤ 'Z'
  · have upper : Latin.isUpper c = true := by simp [Latin.isUpper, capital]
    have lower : Latin.isLower c.toLower = true := by
      have bounds : 65 ≤ c.toNat ∧ c.toNat ≤ 90 :=
        ⟨UInt32.le_iff_toNat_le.mp capital.1, UInt32.le_iff_toNat_le.mp capital.2⟩
      have place := toNat_toLower capital.1 capital.2
      have first : 'a' ≤ c.toLower := UInt32.le_iff_toNat_le.mpr (by change 97 ≤ c.toLower.toNat; omega)
      have last : c.toLower ≤ 'z' := UInt32.le_iff_toNat_le.mpr (by change c.toLower.toNat ≤ 122; omega)
      simp [Latin.isLower, first, last]
    rw [Latin.isLetter, Latin.isLetter, lower, upper, Bool.true_or, Bool.or_true]
  · rw [toLower_eq_self capital]

theorem utf8Size_toLower (c : Char) : c.toLower.utf8Size = c.utf8Size := by
  by_cases capital : 'A' ≤ c ∧ c ≤ 'Z'
  · have bound : c.toNat ≤ 90 := UInt32.le_iff_toNat_le.mp capital.2
    have place := toNat_toLower capital.1 capital.2
    have one {d : Char} (ascii : d.toNat ≤ 127) : d.utf8Size = 1 :=
      Char.utf8Size_eq_one_iff.mpr (UInt32.le_iff_toNat_le.mpr ascii)
    rw [one (by omega), one (by omega)]
  · rw [toLower_eq_self capital]

/-- A text has the same size in small letters. -/
theorem utf8Len_map_toLower (text : List Char) : String.utf8Len (text.map Char.toLower) = String.utf8Len text := by
  induction text with
  | nil => rfl
  | cons c rest ih => simp only [List.map_cons, String.utf8Len_cons, utf8Size_toLower, ih]

/-- Texts of the same size that agree as far as the shorter one goes agree to the end. -/
theorem map_toLower_eq_of_zip {first second : List Char} (sizes : String.utf8Len first = String.utf8Len second)
    (agree : ∀ pair ∈ first.zip second, pair.1.toLower = pair.2.toLower) :
    first.map Char.toLower = second.map Char.toLower := by
  induction first generalizing second with
  | nil => rw [String.utf8Len_eq_zero.mp sizes.symm]
  | cons c rest ih =>
    cases second with
    | nil => exact absurd (String.utf8Len_eq_zero.mp sizes) (List.cons_ne_nil c rest)
    | cons d others =>
      obtain ⟨here, behind⟩ := List.forall_mem_cons.mp agree
      -- Characters that agree have the same size, and what is behind them has then too.
      have size : c.utf8Size = d.utf8Size := by rw [← utf8Size_toLower c, ← utf8Size_toLower d, here]
      rw [String.utf8Len_cons, String.utf8Len_cons, size] at sizes
      rw [List.map_cons, List.map_cons, here, ih (Nat.add_right_cancel sizes) behind]

/-- Two texts are equal up to the case of the letters from `A` to `Z` exactly if they are equal in small letters. -/
theorem equalIgnoringAsciiCase_iff {a b : String} :
    equalIgnoringAsciiCase a b = true ↔ a.toList.map Char.toLower = b.toList.map Char.toLower := by
  simp only [equalIgnoringAsciiCase, Bool.and_eq_true, beq_iff_eq, List.all_eq_true, ← String.utf8Len_toList]
  constructor
  · rintro ⟨sizes, agree⟩
    exact map_toLower_eq_of_zip sizes agree
  · intro same
    refine ⟨?_, fun pair member => ?_⟩
    · rw [← utf8Len_map_toLower, same, utf8Len_map_toLower]
    · obtain ⟨place, bound, rfl⟩ := List.mem_iff_getElem.mp member
      have within : place < (a.toList.map Char.toLower).length := by
        rw [List.length_zip] at bound
        rw [List.length_map]
        exact bound.trans_le (Nat.min_le_left _ _)
      simpa using List.getElem_of_eq same within

/-- Equal in small letters is equally long and equal in small letters at every place. -/
theorem map_toLower_eq_iff {first second : List Char} :
    first.map Char.toLower = second.map Char.toLower ↔
      first.length = second.length ∧
        ∀ (place : Nat) (inFirst : place < first.length) (inSecond : place < second.length),
          first[place].toLower = second[place].toLower := by
  simp only [List.ext_getElem_iff, List.length_map, List.getElem_map]

theorem equivalence_equalIgnoringAsciiCase : Equivalence fun a b => equalIgnoringAsciiCase a b = true where
  refl _ := equalIgnoringAsciiCase_iff.mpr rfl
  symm same := equalIgnoringAsciiCase_iff.mpr (equalIgnoringAsciiCase_iff.mp same).symm
  trans first second :=
    equalIgnoringAsciiCase_iff.mpr
      ((equalIgnoringAsciiCase_iff.mp first).trans (equalIgnoringAsciiCase_iff.mp second))

/-- Texts compared by their sizes in bytes and then as far as the shorter one goes are found equal exactly if they have
equally many characters and these agree in small letters at every place, and so the comparison is an equivalence. -/
theorem equal_place_by_place :
    (∀ a b : String, equalIgnoringAsciiCase a b = true ↔
      a.length = b.length ∧
        ∀ (place : Nat) (inFirst : place < a.toList.length) (inSecond : place < b.toList.length),
          a.toList[place].toLower = b.toList[place].toLower) ∧
    Equivalence fun a b => equalIgnoringAsciiCase a b = true := by
  refine ⟨fun a b => ?_, equivalence_equalIgnoringAsciiCase⟩
  rw [equalIgnoringAsciiCase_iff, map_toLower_eq_iff, ← String.length_toList, ← String.length_toList]

/-- One character of two bytes is as long as two of one byte each. -/
example : "\u00e9".utf8ByteSize = "ab".utf8ByteSize ∧ equalIgnoringAsciiCase "\u00e9" "ab" = false := by decide

end Text

end VhdlOrder
