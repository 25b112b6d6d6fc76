import VhdlOrder.Graph.Basic

/-! # Trees of predecessors

What leads to a node, drawn as a tree whose branches are the walks backwards from it. A node that is
already on a branch is drawn once more at its end and not followed again. The place of a line in the
drawing is a twig: for each step down from the root, whether another branch follows beside it.
-/

namespace VhdlOrder

/-- One step down: a branch with another one after it, or the last one. -/
inductive Branch where
  | middle | last
deriving DecidableEq

/-- The steps from the root of a tree to one of its nodes. -/
abbrev Twig := List Branch

namespace Twig

/-- How a step looks on the lines below it. -/
def continuation : Branch → List Char
  | .middle => ['│', ' ', ' ']
  | .last => [' ', ' ', ' ']

/-- How a step looks on its own line. -/
def joint : Branch → List Char
  | .middle => ['├', '─', ' ']
  | .last => ['└', '─', ' ']

/-- The characters that a twig is drawn with, three for each step. -/
def drawing : Twig → List Char
  | [] => []
  | [branch] => joint branch
  | branch :: rest => continuation branch ++ drawing rest

/-- The twig as text. -/
def render (twig : Twig) : String := String.ofList (drawing twig)

/-- The character that stands for a line-drawing character where only ASCII is wanted. -/
def asciiOf : Char → Char
  | '─' => '-'
  | '│' => '|'
  | '├' => '+'
  | '└' => '\\'
  | c => c

/-- The twig as text in ASCII characters. -/
def renderAscii (twig : Twig) : String := String.ofList ((drawing twig).map asciiOf)

/-- The nodes below a twig, each with its own twig. -/
def below (twig : Twig) : List Nat → List (Twig × Nat)
  | [] => []
  | [node] => [(twig ++ [.last], node)]
  | node :: rest => (twig ++ [.middle], node) :: below twig rest

end Twig

namespace Graph

variable {α : Type}

/-- The lines of the tree below `node`, whose own line stands at `twig`; a node outside `unvisited` is
on the branch already. -/
def treeFrom (graph : Graph α) (unvisited : List Nat) (twig : Twig) (node : Nat) :
    List (Twig × Nat) :=
  if _ : node ∈ unvisited then
    (twig, node) ::
      (twig.below ((graph.predecessors node).mergeSort (· ≤ ·))).flatMap fun (step, next) =>
        treeFrom graph (unvisited.erase node) step next
  else [(twig, node)]
termination_by unvisited.length
decreasing_by exact length_erase_lt ‹_›

/-- The tree of predecessors of `node`, line by line. -/
def tree (graph : Graph α) (node : Nat) : List (Twig × Nat) := graph.treeFrom graph.nodes [] node

end Graph

end VhdlOrder
