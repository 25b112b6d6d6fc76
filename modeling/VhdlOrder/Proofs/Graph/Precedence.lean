import Mathlib.Data.List.Nodup
import Mathlib.Logic.Relation

/-! # Precedence in a list

One number precedes another in a list if they stand in it in this order, with anything in between. In a
list without repeats that is a strict order, so a relation whose pairs precede each other has no cycle.
Conversely, a relation without a cycle has a minimal element in every list that is not empty.
-/

namespace VhdlOrder

/-- `first` stands somewhere before `second` in `order`. -/
def Precedes (order : List Nat) (first second : Nat) : Prop := [first, second].Sublist order

/-- Nothing is related to itself through one or more steps. -/
def Acyclic (r : Nat → Nat → Prop) : Prop := ∀ node, ¬ Relation.TransGen r node node

namespace Precedes

variable {order : List Nat} {first second third : Nat}

theorem cons_self (member : second ∈ order) : Precedes (first :: order) first second :=
  (List.singleton_sublist.mpr member).cons_cons first

theorem cons (precedes : Precedes order first second) (head : Nat) :
    Precedes (head :: order) first second :=
  List.Sublist.cons head precedes

theorem left_mem (precedes : Precedes order first second) : first ∈ order :=
  precedes.subset List.mem_cons_self

theorem right_mem (precedes : Precedes order first second) : second ∈ order :=
  precedes.subset (List.mem_cons_of_mem _ List.mem_cons_self)

theorem cons_iff {head : Nat} : Precedes (head :: order) first second ↔
    (first = head ∧ second ∈ order) ∨ Precedes order first second := by
  constructor
  · intro precedes
    cases precedes with
    | cons _ later => exact .inr later
    | cons_cons _ later => exact .inl ⟨rfl, List.singleton_sublist.mp later⟩
  · rintro (⟨rfl, member⟩ | later)
    · exact cons_self member
    · exact later.cons head

theorem irrefl (unique : order.Nodup) : ¬ Precedes order first first := by
  induction order with
  | nil => simp [Precedes]
  | cons head rest ih =>
    obtain ⟨fresh, unique⟩ := List.nodup_cons.mp unique
    rw [cons_iff]
    rintro (⟨rfl, member⟩ | later)
    · exact fresh member
    · exact ih unique later

theorem trans (unique : order.Nodup) (left : Precedes order first second)
    (right : Precedes order second third) : Precedes order first third := by
  induction order with
  | nil => exact absurd left.left_mem List.not_mem_nil
  | cons head rest ih =>
    obtain ⟨fresh, unique⟩ := List.nodup_cons.mp unique
    rcases cons_iff.mp right with ⟨rfl, -⟩ | later
    · -- the middle one stands at the front, where nothing precedes it
      rcases cons_iff.mp left with ⟨-, member⟩ | before
      · exact absurd member fresh
      · exact absurd before.right_mem fresh
    · rcases cons_iff.mp left with ⟨rfl, -⟩ | before
      · exact cons_self later.right_mem
      · exact (ih unique before later).cons head

/-- Leaving out other members does not change what precedes what. -/
theorem filter_iff {keep : Nat → Bool} (first_kept : keep first = true) (second_kept : keep second = true) :
    Precedes (order.filter keep) first second ↔ Precedes order first second := by
  constructor
  · intro precedes
    exact List.Sublist.trans precedes List.filter_sublist
  · intro precedes
    have kept := precedes.filter keep
    rwa [List.filter_cons_of_pos first_kept, List.filter_cons_of_pos second_kept,
      List.filter_nil] at kept

theorem of_transGen {r : Nat → Nat → Prop} (unique : order.Nodup)
    (respects : ∀ {first second}, r first second → Precedes order first second)
    (path : Relation.TransGen r first second) : Precedes order first second := by
  induction path with
  | single step => exact respects step
  | tail _ step ih => exact trans unique ih (respects step)

end Precedes

namespace Acyclic

variable {r : Nat → Nat → Prop}

theorem of_precedes {order : List Nat} (unique : order.Nodup)
    (respects : ∀ {first second}, r first second → Precedes order first second) : Acyclic r :=
  fun _ path => Precedes.irrefl unique (Precedes.of_transGen unique respects path)

theorem mono {s : Nat → Nat → Prop} (acyclic : Acyclic s) (weaker : ∀ {a b}, r a b → s a b) :
    Acyclic r :=
  fun node path => acyclic node (path.lift id fun _ _ => weaker)

theorem comap (acyclic : Acyclic r) (f : Nat → Nat) : Acyclic fun a b => r (f a) (f b) :=
  fun node path => acyclic (f node) (path.lift f fun _ _ => id)

theorem swap (acyclic : Acyclic r) : Acyclic (Function.swap r) :=
  fun node path => acyclic node (Relation.transGen_swap.mp path)

/-- Some node of a list that is not empty has no node of the list below it. -/
theorem exists_minimal (acyclic : Acyclic r) {nodes : List Nat} (nonempty : nodes ≠ []) :
    ∃ node ∈ nodes, ∀ other ∈ nodes, ¬ Relation.TransGen r other node := by
  induction nodes with
  | nil => exact absurd rfl nonempty
  | cons head rest ih =>
    by_cases empty : rest = []
    · subst empty
      exact ⟨head, List.mem_cons_self, by simpa using acyclic head⟩
    · obtain ⟨least, member, minimal⟩ := ih empty
      by_cases below : Relation.TransGen r head least
      · refine ⟨head, List.mem_cons_self, fun other present path => ?_⟩
        rcases List.mem_cons.mp present with rfl | present
        · exact acyclic _ path
        · exact minimal other present (path.trans below)
      · refine ⟨least, List.mem_cons_of_mem _ member, fun other present path => ?_⟩
        rcases List.mem_cons.mp present with rfl | present
        · exact below path
        · exact minimal other present path

end Acyclic

end VhdlOrder
