import VhdlOrder.Design.File
import VhdlOrder.Library.Basic

/-! # Reading sources into a library

Sources are added one after the other. The units before the first fault of a source are kept, and what
is wrong with a source becomes a diagnostic. A unit whose name is taken is reported and dropped. When
all sources are there, linking reports the secondary units that complete nothing.
-/

namespace VhdlOrder.Library

/-- The unit that has the name of `unit` already. -/
def holder? (library : Library) (unit : DesignUnit) : Option Entry :=
  match unit.contents with
  | .packageBody _ => library.body? unit.name
  | .architecture entity => library.architecture? entity unit.name
  | _ => library.primary? unit.name

/-- The name by which a unit is reported as a duplicate. -/
def duplicateName (unit : DesignUnit) : String :=
  match unit.contents with
  | .packageBody _ => unit.name.render
  | _ => unit.display

/-- Adds a diagnostic. -/
def report (library : Library) (diagnostic : Diagnostic) : Library :=
  { library with diagnostics := library.diagnostics ++ [diagnostic] }

/-- Adds a unit of the source `source`, unless its name is taken; answers whether it was added. -/
def addUnit (library : Library) (source : Nat) (unit : DesignUnit) : Bool × Library :=
  match library.holder? unit with
  | some first =>
      let problem :=
        .duplicateUnit unit.kind (duplicateName unit) (library.locate first.index)
      (false, library.report (.place .error problem (library.path source) unit.position))
  | none => (true, { library with units := library.units ++ [⟨unit, source⟩] })

/-- Adds several units and answers how many were added. -/
def addUnits (library : Library) (source : Nat) : List DesignUnit → Nat × Library
  | [] => (0, library)
  | unit :: rest =>
      let (added, library) := library.addUnit source unit
      let (count, library) := addUnits library source rest
      (if added then count + 1 else count, library)

/-- Adds a pragma, or reports why it is none. A pragma without a target has an unknown directive. -/
def addPragma (library : Library) (source : Nat) (item : Located (Except PragmaFault Pragma)) :
    Library :=
  match item.value with
  | .ok pragma =>
      if pragma.target.isSome then
        { library with pragmas := library.pragmas ++ [⟨pragma, source⟩] }
      else
        library.report
          (.place .warning (.unknownPragma pragma.directive) (library.path source) pragma.position)
  | .error fault =>
      library.report (.place .error (.pragma fault) (library.path source) item.position)

/-- Reports the lexical fault of a source. -/
def addLexicalFault (library : Library) (source : Nat) (fault : Option (Located LexicalFault)) :
    Library :=
  match fault with
  | some fault =>
      library.report (.place .error (.lexical fault.value) (library.path source) fault.position)
  | none => library

/-- Reports the fault of the grammar of a source. Where a lexical fault has cut the source short, the
end of the file is no fault of its own. -/
def addSyntaxFault (library : Library) (source : Nat) (cutShort : Bool)
    (fault : Option SyntaxFault) : Library :=
  match fault with
  | some fault =>
      if cutShort && fault.isUnexpectedEnd then library
      else library.report (.place .error (.grammar fault) (library.path source) fault.position)
  | none => library

/-- Adds the units and pragmas of a source and answers how many units were added. -/
def addSource (library : Library) (file text directive : String) : Nat × Library :=
  let source := library.files.length
  let library := { library with files := library.files ++ [file] }
  let (tokens, lexicalFault) := Lexer.readUntilFault text
  let library := library.addLexicalFault source lexicalFault
  let library := (Pragma.scan tokens directive).foldl (fun library => library.addPragma source) library
  let (units, syntaxFault) := DesignFile.units tokens
  let library := library.addSyntaxFault source lexicalFault.isSome syntaxFault
  library.addUnits source units

/-- Adds several sources, each with its path. -/
def addSources (library : Library) (directive : String) : List (String × String) → Library
  | [] => library
  | (file, text) :: rest => addSources (library.addSource file text directive).2 directive rest

/-- What is wrong with a unit that completes or configures another one. -/
def linkProblem? (library : Library) (unit : DesignUnit) : Option Problem :=
  match unit.contents with
  | .packageBody _ =>
      if (library.package? unit.name).isSome then none else some (.bodyWithoutPackage unit.name)
  | .architecture entity | .configuration entity =>
      if (library.primary? entity).any Entry.isEntity then none
      else some (.missingEntity unit.kind unit.name entity)
  | _ => none

/-- The problems of all units that complete or configure others. -/
def linkDiagnostics (library : Library) : List Diagnostic :=
  library.units.filterMap fun item =>
    (library.linkProblem? item.unit).map fun problem =>
      .place .error problem (library.path item.source) item.unit.position

/-- Reports the units that complete or configure a missing one. -/
def link (library : Library) : Library :=
  { library with diagnostics := library.diagnostics ++ library.linkDiagnostics }

/-- The linked library of several sources. -/
def ofSources (name : Identifier) (directive : String) (sources : List (String × String)) : Library :=
  ((empty name).addSources directive sources).link

end VhdlOrder.Library
