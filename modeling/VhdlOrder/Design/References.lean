import VhdlOrder.Lexical.Token
import VhdlOrder.Name.SelectedName

/-! # Names in a list of tokens

The names that a piece of source refers to, found without parsing it: each identifier begins a
reference, with the point-separated identifiers that follow it. An identifier after a point or a tick
is a record element or an attribute and begins none, and neither does the formal part of an
association, which stands before an arrow.
-/

namespace VhdlOrder.References

/-- The identifiers that follow, each after a point, and the tokens behind them. -/
def chain : List PlacedToken → List Identifier × List PlacedToken
  | dot :: next :: rest =>
      match dot.value, next.value with
      | .delimiter .dot, .identifier name =>
          let (names, tail) := chain rest
          (name :: names, tail)
      | _, _ => ([], dot :: next :: rest)
  | tokens => ([], tokens)

theorem length_chain_le (tokens : List PlacedToken) : (chain tokens).2.length ≤ tokens.length := by
  fun_induction chain tokens with
  | case1 dot next rest name _ _ names tail bound ih =>
    simp only [bound] at ih
    simp only [List.length_cons]
    omega
  | case2 => exact Nat.le_refl _
  | case3 => exact Nat.le_refl _

/-- Whether an identifier after `token` selects a part of what comes before. -/
def selects (token : Token) : Bool := token.isDelimiter .tick || token.isDelimiter .dot

/-- The references in `tokens`; `selected` says whether a point or a tick comes before. -/
def collectFrom (selected : Bool) : List PlacedToken → List Reference
  | [] => []
  | token :: rest =>
      match token.value with
      | .identifier name =>
          let tail := (chain rest).2
          let formal := tail.head?.any fun next => next.value.isDelimiter .arrow
          let further := collectFrom false tail
          if selected || formal then further
          else ⟨⟨name, (chain rest).1⟩, token.position⟩ :: further
      | other => collectFrom (selects other) rest
termination_by tokens => tokens.length
decreasing_by
  · have bound := length_chain_le rest
    simp only [List.length_cons]
    omega
  · simp

/-- The references in `tokens`, in order. -/
def collect (tokens : List PlacedToken) : List Reference := collectFrom false tokens

/-- The references in `tokens` to names with a prefix. -/
def expanded (tokens : List PlacedToken) : List Reference :=
  (collect tokens).filter fun reference => reference.name.isExpanded

/-- Drops every identifier that names the same thing as an earlier one. -/
def distinct : List Identifier → List Identifier
  | [] => []
  | name :: names => name :: (distinct names).filter fun other => !name.same other

/-- The leading identifiers of the references in `tokens`, each of them once. -/
def mentions (tokens : List PlacedToken) : List Identifier :=
  distinct ((collect tokens).map fun reference => reference.name.first)

end VhdlOrder.References
