import VhdlOrder.Sources.Pattern

/-! # Filesets

A fileset has the patterns of the source files. A pattern may describe a path from any of its
components on.
-/

namespace VhdlOrder

/-- The patterns of the files that belong to the set. -/
structure Fileset where
  patterns : List Pattern
deriving DecidableEq

/-- A reason why texts are no patterns. -/
inductive FilesetFault where
  | emptyPattern
  | badPattern (text : String) (fault : PatternFault)
deriving DecidableEq

/-- The wording of the fault. -/
def FilesetFault.render : FilesetFault → String
  | .emptyPattern => "empty pattern"
  | .badPattern text fault => "'" ++ text ++ "' " ++ fault.render

namespace Fileset

/-- The pattern that describes what `text` describes, behind any components. -/
def readPattern (text : String) : Except FilesetFault Pattern :=
  if text.isEmpty then .error .emptyPattern
  else (Pattern.read ("**/" ++ text)).mapError (.badPattern text)

/-- The fileset of some patterns; the first text that is no pattern is reported. -/
def read : List String → Except FilesetFault Fileset
  | [] => .ok ⟨[]⟩
  | text :: rest =>
      match readPattern text with
      | .error fault => .error fault
      | .ok pattern => (read rest).map fun set => ⟨pattern :: set.patterns⟩

/-- Whether a path belongs to the set. -/
def contains (set : Fileset) (path : String) : Bool :=
  set.patterns.any fun pattern => pattern.accepts path

end Fileset

end VhdlOrder
