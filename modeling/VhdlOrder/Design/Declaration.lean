import VhdlOrder.Name.SelectedName

/-! # Declarations

A declaration introduces a name. It knows the names it refers to itself, the names that only its
statements mention, and the declarations inside it.
-/

namespace VhdlOrder

/-- What a declared name stands for. -/
inductive DeclarationKind where
  | type | subtype | enumerationLiteral | physicalUnit | constant | deferredConstant | signal
  | variableObject | file | alias | attributeName | component | function | procedure | package
  | interface
deriving DecidableEq

namespace DeclarationKind

/-- Whether declarations of the same name may be visible side by side. -/
def isOverloadable : DeclarationKind → Bool
  | .function | .procedure | .enumerationLiteral => true
  | _ => false

/-- Whether the declaration belongs to the type declared in front of it. -/
def belongsToType : DeclarationKind → Bool
  | .enumerationLiteral | .physicalUnit => true
  | _ => false

/-- The kind in words. -/
def render : DeclarationKind → String
  | .type => "type"
  | .subtype => "subtype"
  | .enumerationLiteral => "enumeration literal"
  | .physicalUnit => "unit"
  | .constant => "constant"
  | .deferredConstant => "deferred constant"
  | .signal => "signal"
  | .variableObject => "variable"
  | .file => "file"
  | .alias => "alias"
  | .attributeName => "attribute"
  | .component => "component"
  | .function => "function"
  | .procedure => "procedure"
  | .package => "package"
  | .interface => "interface"

end DeclarationKind

/-- The class of a type, as its definition shows it. -/
inductive TypeClass where
  | incomplete | enumeration | integer | floating | physical | array | record | access | file
  | protectedType
deriving DecidableEq

/-- The class in words. -/
def TypeClass.render : TypeClass → String
  | .incomplete => "incomplete"
  | .enumeration => "enumeration"
  | .integer => "integer"
  | .floating => "floating"
  | .physical => "physical"
  | .array => "array"
  | .record => "record"
  | .access => "access"
  | .file => "file"
  | .protectedType => "protected"

/-- A declared name. The references are those to names declared elsewhere; mentions are the leading
names in statements, which are not looked up. -/
structure Declaration where
  name : Identifier
  kind : DeclarationKind
  position : Position
  typeClass : Option TypeClass
  references : List Reference
  mentions : List Identifier
  locals : List Declaration

namespace Declaration

/-- A declaration that refers to nothing and holds nothing. -/
def simple (name : Located Identifier) (kind : DeclarationKind) : Declaration :=
  ⟨name.value, kind, name.position, none, [], [], []⟩

/-- A declaration with references only. -/
def withReferences (name : Located Identifier) (kind : DeclarationKind)
    (references : List Reference) : Declaration :=
  { simple name kind with references := references }

/-- The declaration in words. -/
def render (declaration : Declaration) : String :=
  declaration.kind.render ++ " " ++ declaration.name.render

mutual

/-- The names that the statements of a declaration mention, and those of the declarations inside it. -/
def allMentions : Declaration → List Identifier
  | ⟨_, _, _, _, _, mentions, locals⟩ => mentions ++ allMentionsOf locals

/-- The names that the statements of some declarations mention. -/
def allMentionsOf : List Declaration → List Identifier
  | [] => []
  | declaration :: rest => declaration.allMentions ++ allMentionsOf rest

end

/-- Whether one of the declarations declares the name. -/
def declares (declarations : List Declaration) (name : Identifier) : Bool :=
  declarations.any fun declaration => declaration.name.same name

/-- The references of all declarations in order. -/
def allReferences (declarations : List Declaration) : List Reference :=
  declarations.flatMap Declaration.references

/-- The references whose leading name none of `locals` declares, each of them once: the first of
several equal ones is kept. `kept` are those kept before. -/
def outsideFrom (locals : List Declaration) (kept : List Reference) : List Reference → List Reference
  | [] => []
  | reference :: rest =>
      if declares locals reference.name.first || kept.any reference.same then
        outsideFrom locals kept rest
      else reference :: outsideFrom locals (reference :: kept) rest

/-- The references whose leading name none of `locals` declares, each of them once. -/
def outside (locals : List Declaration) (references : List Reference) : List Reference :=
  outsideFrom locals [] references

end Declaration

end VhdlOrder
