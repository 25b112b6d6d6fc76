import VhdlOrder.Design.Unit
import VhdlOrder.Name.Pragma

/-! # Problems

Everything that can be wrong with the sources, from a character that begins no token to units that
depend on each other, and the wording of each problem.
-/

namespace VhdlOrder

/-- Why there is no order for a target. -/
inductive OrderFault where
  | cycle (units : List String)
  | unknownTarget (name : SelectedName) (library : Identifier)
deriving DecidableEq

/-- The wording of the fault. -/
def OrderFault.render : OrderFault → String
  | .cycle units => "dependency cycle detected: " ++ " -> ".intercalate units
  | .unknownTarget name library =>
      "unit '" ++ name.render ++ "' is not declared in library '" ++ library.render ++ "'"

/-- Where a name is visible from: an item that is imported by name, or all items of a package. -/
structure Origin where
  name : SelectedName
  all : Bool
deriving DecidableEq

/-- The origin as a use clause would name it, between quotes. -/
def Origin.render (origin : Origin) : String :=
  "'" ++ origin.name.render ++ (if origin.all then ".all" else "") ++ "'"

/-- A problem with the sources, or a remark in words. -/
inductive Problem where
  | remark (text : String)
  | lexical (fault : LexicalFault)
  | grammar (fault : SyntaxFault)
  | pragma (fault : PragmaFault)
  | unknownPragma (directive : String)
  | duplicateUnit (kind : UnitKind) (name firstPlace : String)
  | bodyWithoutPackage (name : Identifier)
  | missingEntity (kind : UnitKind) (name entity : Identifier)
  | undeclaredLibrary (name : Identifier)
  | undeclaredContext (name : SelectedName)
  | notContext (name : SelectedName)
  | undeclaredPackage (name : SelectedName)
  | notPackage (name : SelectedName)
  | notInLibrary (name library : Identifier)
  | notInPackage (name : Identifier) (package : SelectedName)
  | undeclared (name : Identifier)
  | ambiguous (name : Identifier) (origins : List Origin)
  | unusedImport (name : SelectedName)
  | constantWithoutBody (name package : Identifier)
  | constantWithoutValue (name package : Identifier)
  | constantOutsidePackage (name : Identifier)
  | order (fault : OrderFault)
deriving DecidableEq

/-- The wording of the problem. -/
def Problem.render : Problem → String
  | .remark text => text
  | .lexical fault => fault.render
  | .grammar fault => fault.render
  | .pragma fault => fault.render
  | .unknownPragma directive => "unknown pragma '@" ++ directive ++ "' is ignored"
  | .duplicateUnit kind name firstPlace =>
      "duplicate " ++ kind.render ++ " '" ++ name ++ "' (first declared at " ++ firstPlace ++ ")"
  | .bodyWithoutPackage name => "package body '" ++ name.render ++ "' has no package declaration"
  | .missingEntity kind name entity =>
      kind.render ++ " '" ++ name.render ++ "' refers to missing entity '" ++ entity.render ++ "'"
  | .undeclaredLibrary name => "library '" ++ name.render ++ "' is not declared"
  | .undeclaredContext name => "context '" ++ name.render ++ "' is not declared"
  | .notContext name => "'" ++ name.render ++ "' is not a context"
  | .undeclaredPackage name => "package '" ++ name.render ++ "' is not declared"
  | .notPackage name => "'" ++ name.render ++ "' is not a package"
  | .notInLibrary name library =>
      "'" ++ name.render ++ "' is not declared in library '" ++ library.render ++ "'"
  | .notInPackage name package =>
      "'" ++ name.render ++ "' is not declared in package '" ++ package.render ++ "'"
  | .undeclared name => "'" ++ name.render ++ "' is not declared"
  | .ambiguous name origins =>
      "'" ++ name.render ++ "' is ambiguous: visible from "
        ++ " and ".intercalate (origins.map Origin.render)
  | .unusedImport name => "unused import '" ++ name.render ++ "'"
  | .constantWithoutBody name package =>
      "deferred constant '" ++ name.render ++ "' of package '" ++ package.render
        ++ "' has no package body to give it a value"
  | .constantWithoutValue name package =>
      "deferred constant '" ++ name.render ++ "' is not given a value in the body of package '"
        ++ package.render ++ "'"
  | .constantOutsidePackage name =>
      "deferred constant '" ++ name.render ++ "' must be declared in a package declaration"
  | .order fault => fault.render

end VhdlOrder
