import Mathlib.Data.List.Induction
import VhdlOrder.Graph.Tree

/-! # Twigs can be told apart by their drawings

A twig is drawn with three characters for each step, a bar or blanks for the steps above the last one and a joint for
the last one. So the drawing shows the steps one after the other, also in ASCII characters, and the drawing from the end
of the twig upwards is the same.
-/

namespace VhdlOrder

namespace Twig

variable {twig other : Twig}

theorem drawing_cons_cons (branch next : Branch) (rest : Twig) :
    drawing (branch :: next :: rest) = continuation branch ++ drawing (next :: rest) := rfl

theorem length_continuation (branch : Branch) : (continuation branch).length = 3 := by cases branch <;> rfl

theorem length_joint (branch : Branch) : (joint branch).length = 3 := by cases branch <;> rfl

theorem length_drawing (twig : Twig) : (drawing twig).length = 3 * twig.length := by
  fun_induction drawing twig with
  | case1 => rfl
  | case2 branch => exact length_joint branch
  | case3 branch rest nonempty ih =>
    rw [List.length_append, length_continuation, ih, List.length_cons]
    omega

/-- All steps but the last one are drawn as they look on the lines below them. -/
theorem drawing_concat (steps : Twig) (tip : Branch) :
    drawing (steps ++ [tip]) = steps.flatMap continuation ++ joint tip := by
  induction steps with
  | nil => rfl
  | cons branch rest ih =>
    have more : drawing (branch :: (rest ++ [tip])) = continuation branch ++ drawing (rest ++ [tip]) := by
      cases rest <;> rfl
    rw [List.cons_append, more, ih, List.flatMap_cons, List.append_assoc]

/-- The characters of a step above the last one. -/
theorem take_drop_drawing {place : Nat} {branch : Branch} (step : twig[place]? = some branch)
    (above : place + 1 < twig.length) : ((drawing twig).drop (3 * place)).take 3 = continuation branch := by
  induction twig generalizing place with
  | nil => cases step
  | cons first rest ih =>
    cases rest with
    | nil => simp at above
    | cons next rest =>
      rw [drawing_cons_cons]
      cases place with
      | zero =>
        obtain rfl : first = branch := by simpa using step
        exact List.take_left' (length_continuation first)
      | succ place =>
        have behind : 3 * (place + 1) = (continuation first).length + 3 * place := by
          rw [length_continuation]
          omega
        rw [behind, List.drop_length_add_append]
        exact ih (by simpa using step) (by simpa using above)

/-- The characters of the last step. -/
theorem drop_drawing {branch : Branch} (tip : twig.getLast? = some branch) :
    (drawing twig).drop (3 * (twig.length - 1)) = joint branch := by
  obtain ⟨steps, rfl⟩ := List.getLast?_eq_some_iff.mp tip
  have front : 3 * ((steps ++ [branch]).length - 1) = (steps.flatMap continuation).length := by
    have whole := length_drawing (steps ++ [branch])
    rw [drawing_concat, List.length_append, length_joint, List.length_append, List.length_singleton] at whole
    rw [List.length_append, List.length_singleton]
    omega
  rw [drawing_concat, front, List.drop_left]

section

variable {change : Char → Char} {first second : Branch}

theorem eq_of_map_continuation_eq (bars : change '│' ≠ change ' ')
    (same : (continuation first).map change = (continuation second).map change) : first = second := by
  cases first <;> cases second
  · rfl
  · exact absurd (List.cons.inj same).1 bars
  · exact absurd (List.cons.inj same).1.symm bars
  · rfl

theorem eq_of_map_joint_eq (joints : change '├' ≠ change '└')
    (same : (joint first).map change = (joint second).map change) : first = second := by
  cases first <;> cases second
  · rfl
  · exact absurd (List.cons.inj same).1 joints
  · exact absurd (List.cons.inj same).1.symm joints
  · rfl

/-- Drawings in which bars are still told from blanks, and the joints of middle branches from those of last ones, show
all steps. -/
theorem eq_of_map_drawing_eq (bars : change '│' ≠ change ' ') (joints : change '├' ≠ change '└')
    (same : (drawing twig).map change = (drawing other).map change) : twig = other := by
  have size : twig.length = other.length := by
    have sizes := congrArg List.length same
    simp only [List.length_map, length_drawing] at sizes
    omega
  induction twig generalizing other with
  | nil => exact (List.length_eq_zero_iff.mp size.symm).symm
  | cons first rest ih =>
    obtain ⟨second, rest', rfl⟩ := List.exists_cons_of_length_eq_add_one size.symm
    have size : rest.length = rest'.length := Nat.succ.inj size
    cases rest with
    | nil =>
      obtain rfl := List.length_eq_zero_iff.mp size.symm
      rw [eq_of_map_joint_eq joints same]
    | cons next more =>
      obtain ⟨next', more', rfl⟩ := List.exists_cons_of_length_eq_add_one size.symm
      rw [drawing_cons_cons, drawing_cons_cons, List.map_append, List.map_append] at same
      obtain ⟨here, below⟩ := List.append_inj same (by simp [length_continuation])
      rw [eq_of_map_continuation_eq bars here, ih below size]

end

end Twig

/-! ## Drawing from the end

A twig can be held at its last step, which holds the step in front of it, and so on up to the root. It is drawn on the
way up: what the steps in front of the last one look like is gathered from right to left, and turned round at the end.
-/

namespace Stepwise

/-- A step of a twig and the steps in front of it; the first one has none in front of it. -/
inductive Chain where
  | first (branch : Branch)
  | under (upper : Chain) (branch : Branch)
deriving DecidableEq

namespace Chain

/-- The root is held like a last branch with nothing in front of it. -/
def root : Chain := .first .last

/-- The twig of some steps down from the root, held at the last one. -/
def ofSteps (steps : Twig) : Chain := steps.foldl under root

/-- How a step looks on the lines below it, from right to left; the first one is not drawn. -/
def space : Chain → List Char
  | .first _ => []
  | .under _ .last => [' ', ' ', ' ']
  | .under _ .middle => [' ', ' ', '│']

/-- Gathers on the way up how the steps in front look. -/
def gather (gathered : List Char) : Chain → List Char
  | .first _ => gathered
  | .under upper _ => gather (gathered ++ upper.space) upper

/-- The characters that the twig is drawn with. -/
def drawing : Chain → List Char
  | .first .last => []
  | .first .middle => ['├', '─', ' ']
  | .under upper .last => (gather [] (.under upper .last)).reverse ++ ['└', '─', ' ']
  | .under upper .middle => (gather [] (.under upper .middle)).reverse ++ ['├', '─', ' ']

theorem ofSteps_concat (steps : Twig) (tip : Branch) : ofSteps (steps ++ [tip]) = .under (ofSteps steps) tip := by
  rw [ofSteps, List.foldl_append]
  rfl

theorem space_under (upper : Chain) (branch : Branch) :
    (Chain.under upper branch).space = (Twig.continuation branch).reverse := by
  cases branch <;> rfl

/-- What is gathered on the way up is turned round what the steps look like on the way down. -/
theorem gather_ofSteps (steps : Twig) (tip : Branch) (gathered : List Char) :
    gather gathered (.under (ofSteps steps) tip) = gathered ++ (steps.flatMap Twig.continuation).reverse := by
  induction steps using List.reverseRecOn generalizing tip gathered with
  | nil => exact List.append_nil _ |>.trans (List.append_nil _).symm
  | append_singleton steps branch ih =>
    rw [ofSteps_concat, gather, ih, space_under, List.flatMap_append, List.flatMap_singleton, List.reverse_append,
      List.append_assoc]

/-- Both ways of drawing a twig give the same. -/
theorem drawing_ofSteps (steps : Twig) : (ofSteps steps).drawing = Twig.drawing steps := by
  cases steps using List.reverseRecOn with
  | nil => rfl
  | append_singleton steps branch =>
    rw [ofSteps_concat, Twig.drawing_concat]
    cases branch <;> simp [drawing, gather_ofSteps, Twig.joint]

end Chain

end Stepwise

namespace Twig

/-- A twig is drawn with three characters for each step, from whichever end it is drawn. Those of a step above the last
one are a bar and two blanks for a middle branch and three blanks for a last one; those of the last step tell which of
the two it is. So twigs with the same drawing are the same, also if they are drawn in ASCII characters. -/
theorem drawing_shows_steps (twig : Twig) :
    twig.render = String.ofList (Stepwise.Chain.ofSteps twig).drawing ∧
      twig.renderAscii = String.ofList ((Stepwise.Chain.ofSteps twig).drawing.map asciiOf) ∧
      twig.render.length = 3 * twig.length ∧
      (∀ place branch, twig[place]? = some branch → place + 1 < twig.length →
        (twig.render.toList.drop (3 * place)).take 3 =
          match branch with
          | .middle => ['│', ' ', ' ']
          | .last => [' ', ' ', ' ']) ∧
      (∀ branch, twig.getLast? = some branch →
        twig.render.toList.drop (3 * (twig.length - 1)) =
          match branch with
          | .middle => ['├', '─', ' ']
          | .last => ['└', '─', ' ']) ∧
      ∀ other : Twig, twig.render = other.render ∨ twig.renderAscii = other.renderAscii → twig = other := by
  have drawn : twig.render.toList = drawing twig := String.toList_ofList
  refine ⟨?_, ?_, ?_, fun place branch step above => ?_, fun branch tip => ?_, ?_⟩
  · rw [Stepwise.Chain.drawing_ofSteps, render]
  · rw [Stepwise.Chain.drawing_ofSteps, renderAscii]
  · rw [← String.length_toList, drawn, length_drawing]
  · rw [drawn, take_drop_drawing step above]
    cases branch <;> rfl
  · rw [drawn, drop_drawing tip]
    cases branch <;> rfl
  · rintro other (same | same)
    · have alike : (drawing twig).map id = (drawing other).map id := congrArg (List.map id) (String.ofList_inj.mp same)
      exact eq_of_map_drawing_eq (by decide) (by decide) alike
    · exact eq_of_map_drawing_eq (by decide) (by decide) (String.ofList_inj.mp same)

/-- A middle branch under a last one, where the place above shows blanks. -/
theorem drawing_shows_steps_middle :
    render [.last, .middle] = "   ├─ " ∧ (render [.last, .middle]).length = 6 ∧
      ((render [.last, .middle]).toList.drop 0).take 3 = [' ', ' ', ' '] ∧
      (render [.last, .middle]).toList.drop 3 = ['├', '─', ' '] := by
  obtain ⟨-, -, length, above, tip, -⟩ := drawing_shows_steps [.last, .middle]
  exact ⟨rfl, length, above 0 .last rfl (by decide), tip .middle rfl⟩

end Twig

end VhdlOrder
