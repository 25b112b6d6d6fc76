import VhdlOrder.Visibility.Finding

/-! # Deferred constants

A constant without a value may only be declared in a package, and the body of the package must give it
a value. How grave it is that a package has no body at all is a matter of settings.
-/

namespace VhdlOrder

/-- What to do about something that may be intended. -/
inductive Level where
  | allow | warn | error
deriving DecidableEq

/-- The level in one word. -/
def Level.render : Level → String
  | .allow => "allow"
  | .warn => "warn"
  | .error => "error"

/-- The severity of what is not allowed. -/
def Level.severity? : Level → Option Severity
  | .allow => none
  | .warn => some .warning
  | .error => some .error

namespace Constant

/-- The error for a deferred constant outside a package declaration. -/
def misplaced (constant : Declaration) : Finding :=
  ⟨.error, .constantOutsidePackage constant.name, constant.position⟩

/-- The deferred constants among some declarations. -/
def deferred (declarations : List Declaration) : List Declaration :=
  declarations.filter fun declaration => declaration.kind == .deferredConstant

/-- Whether declarations of the kind have a declarative part with statements behind it. -/
def isSubprogram (kind : DeclarationKind) : Bool := kind == .function || kind == .procedure

mutual

/-- The deferred constants in a subprogram and in the subprograms inside it. -/
def inSubprogram : Declaration → List Declaration
  | ⟨_, kind, _, _, _, _, locals⟩ =>
      if isSubprogram kind then deferred locals ++ inSubprograms locals else []

/-- The deferred constants in the subprograms among some declarations. -/
def inSubprograms : List Declaration → List Declaration
  | [] => []
  | declaration :: rest => inSubprogram declaration ++ inSubprograms rest

end

/-- Whether the declarations of a package body give the constant a value. -/
def isCompleted (body : List Declaration) (constant : Declaration) : Bool :=
  body.any fun declaration =>
    declaration.name.same constant.name && declaration.kind == .constant

/-- What there is to say about a deferred constant of the package `package` with the body `body`. -/
def completion (level : Level) (package : Identifier) (body : Option DesignUnit)
    (constant : Declaration) : Option Finding :=
  match body with
  | some body =>
      if isCompleted body.declarations constant then none
      else some ⟨.error, .constantWithoutValue constant.name package, constant.position⟩
  | none =>
      level.severity?.map fun severity =>
        ⟨severity, .constantWithoutBody constant.name package, constant.position⟩

/-- The problems with the deferred constants of a package. -/
def ofPackage (library : Library) (level : Level) (unit : DesignUnit) : List Finding :=
  let body := (library.body? unit.name).map Entry.unit
  unit.deferredConstants.filterMap (completion level unit.name body)
    ++ (inSubprograms unit.declarations).map misplaced

/-- The problems with the deferred constants in a package body. -/
def ofBody (unit : DesignUnit) : List Finding :=
  (deferred unit.declarations ++ inSubprograms unit.declarations).map misplaced

end Constant

end VhdlOrder
