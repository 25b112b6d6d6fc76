import VhdlOrder.Proofs.Design.Units

/-! # Design files that are cut short

Where a file without faults is cut off at any token, the part in front of the cut has no fault but that it
ends too early. A parser that meets the end reports the end, or goes on without something that may be
missing and then meets the end where something must not be missing. The units of the part are the first ones
of the whole file.
-/

namespace VhdlOrder.DesignFile

open VhdlOrder.Parser

/-- An item that is read where the file goes on is read in the same way at the cut, or the end is reported. -/
theorem item_of_continued (cut : Cut) (context : ContextClause) {token : PlacedToken}
    {tail left : List PlacedToken} {value : ContextClause × Option DesignUnit}
    (plain : ∀ other ∈ token :: tail, other.value ≠ .endOfFile)
    (answered : item context (token :: tail ++ cut.more) = .ok value left) :
    (∃ rest, rest <:+ tail ∧ left = rest ++ cut.more ∧
        item context (token :: tail ++ cut.ending) = .ok value (rest ++ cut.ending)) ∨
      ∃ wanted stopped,
        item context (token :: tail ++ cut.ending) = .error (.unexpectedEnd cut.place wanted) stopped := by
  have outcome := outcome_item cut context plain
  rw [answered] at outcome
  generalize item context (token :: tail ++ cut.ending) = result at outcome
  cases outcome with
  | value suffix => exact .inl ⟨_, suffix, rfl, rfl⟩
  | ended ended =>
    cases ended with
    | fault wanted stopped => exact .inr ⟨wanted, stopped, rfl⟩
    | value _ allowed => cases allowed

/-- What is read of a file that is cut short, compared with what is read of the whole file: no fault or the
end, and units that are the first ones of the whole file. -/
structure CutShort (place : Position) (cut whole : List DesignUnit × Option SyntaxFault) : Prop where
  fault : cut.2 = none ∨ ∃ wanted, cut.2 = some (.unexpectedEnd place wanted)
  units : cut.1 <+: whole.1

/-- At the cut nothing is left to read. -/
theorem unitsWithin_ending (cut : Cut) (context : ContextClause) (bound : List PlacedToken) :
    unitsWithin context bound cut.ending = ([], none) := by
  obtain ⟨same, -⟩ | ⟨marker, rest, same, isEnd, -⟩ := cut.ending_cases
  · rw [same, unitsWithin_nil]
  · rw [same]
    cases bound with
    | nil => simp only [unitsWithin]
    | cons _ bound => simp only [unitsWithin, if_pos isEnd]

/-- If the whole file has no fault, the part in front of the cut is cut short. -/
theorem cutShort_unitsWithin (cut : Cut) (context : ContextClause) {bound bound' tokens : List PlacedToken}
    (plain : ∀ token ∈ tokens, token.value ≠ .endOfFile)
    (long : tokens.length + cut.ending.length ≤ bound.length)
    (long' : tokens.length + cut.more.length ≤ bound'.length)
    (clean : (unitsWithin context bound' (tokens ++ cut.more)).2 = none) :
    CutShort cut.place (unitsWithin context bound (tokens ++ cut.ending))
      (unitsWithin context bound' (tokens ++ cut.more)) := by
  -- both bounds and the tokens get shorter with every item
  induction bound generalizing context bound' tokens with
  | nil =>
    obtain rfl : tokens = [] := List.eq_nil_of_length_eq_zero (Nat.eq_zero_of_add_eq_zero_right (Nat.le_zero.mp long))
    rw [List.nil_append, unitsWithin_ending]
    exact ⟨.inl rfl, List.nil_prefix⟩
  | cons marker bound ih =>
    cases tokens with
    | nil =>
      rw [List.nil_append, unitsWithin_ending]
      exact ⟨.inl rfl, List.nil_prefix⟩
    | cons token tail =>
      have ordinary : token.value ≠ .endOfFile := plain token (by simp)
      simp only [List.length_cons] at long long'
      cases bound' with
      | nil => simp at long'
      | cons marker' bound' =>
        simp only [List.length_cons] at long'
        cases answered : item context (token :: tail ++ cut.more) with
        | error fault left =>
          simp only [List.cons_append] at answered clean
          rw [unitsWithin_cons context ordinary, answered] at clean
          cases clean
        | ok value left =>
          obtain ⟨rest, suffix, rfl, again⟩ | ⟨wanted, stopped, ended⟩ :=
            item_of_continued cut context plain answered
          · have fewer := suffix.length_le
            have plainRest (other : PlacedToken) (member : other ∈ rest) : other.value ≠ .endOfFile :=
              plain other (.tail token (suffix.mem member))
            simp only [List.cons_append] at answered again clean ⊢
            rw [unitsWithin_of_item ordinary answered] at clean ⊢
            rw [unitsWithin_of_item ordinary again]
            have behind := ih value.1 plainRest (by omega) (by omega) clean
            exact ⟨behind.fault, (List.prefix_append_right_inj _).mpr behind.units⟩
          · simp only [List.cons_append] at ended ⊢
            rw [unitsWithin_cons context ordinary, ended]
            exact ⟨.inr ⟨wanted, rfl⟩, List.nil_prefix⟩

/-- The tokens in front of any cut of a file without faults, with the end-of-file marker behind them, have
no fault but the end, which is reported at the marker. -/
theorem cutShort_units {tokens more : List PlacedToken} {marker : PlacedToken}
    (plain : ∀ token ∈ tokens, token.value ≠ .endOfFile) (isEnd : marker.value = .endOfFile)
    (clean : (units (tokens ++ more)).2 = none) :
    CutShort marker.position (units (tokens ++ [marker])) (units (tokens ++ more)) := by
  have plainWithout (token : PlacedToken) (member : token ∈ withoutComments tokens) : token.value ≠ .endOfFile :=
    plain token ((List.mem_filter.mp member).1)
  let cut : Cut := ⟨[marker], withoutComments more, by rintro _ ⟨⟩; exact isEnd⟩
  have here : withoutComments (tokens ++ [marker]) = withoutComments tokens ++ cut.ending := by
    simp [withoutComments, cut, isEnd, Token.isComment]
  have whole : withoutComments (tokens ++ more) = withoutComments tokens ++ cut.more := List.filter_append ..
  rw [units, whole] at clean
  rw [units, units, here, whole]
  exact cutShort_unitsWithin cut .empty plainWithout (by simp) (by simp) clean

end VhdlOrder.DesignFile
