import VhdlOrder.Proofs.Design.Constants
import VhdlOrder.Proofs.Library.History
import VhdlOrder.Proofs.Library.Lookups
import VhdlOrder.Proofs.Visibility.ConstantFindings

/-! # Deferred constants of packages

A constant that a package declares without a value is judged by the body of the package that the library holds. With a
body there is one error for each constant to which the body gives no value; without one there is one diagnostic of the
severity that the settings ask for, or none. The library holds a body as soon as one was read from any of its texts, so
it does not matter where the body stands.
-/

namespace VhdlOrder

namespace Resolution

variable {library : Library} {checks : Checks} {package : Entry}

/-- The diagnostics at a unit which say that a deferred constant is not completed. -/
def completions (library : Library) (checks : Checks) (package : Entry) : List Diagnostic :=
  ((library.resolve checks).diagnostics package.index).filter fun diagnostic => diagnostic.problem.isAboutCompletion

/-- Constants elsewhere are not found to be without completion. -/
theorem filter_misplaced (constants : List Declaration) :
    ((constants.map Constant.misplaced).filter fun finding => finding.problem.isAboutCompletion) = [] :=
  List.filter_eq_nil_iff.mpr (List.forall_mem_map.mpr fun _ _ => Bool.false_ne_true)

theorem isAboutCompletion_of_completion {level : Level} {name : Identifier} {body : Option DesignUnit}
    {constant : Declaration} {finding : Finding}
    (found : Constant.completion level name body constant = some finding) :
    finding.problem.isAboutCompletion = true := by
  unfold Constant.completion at found
  split at found
  · split at found
    · cases found
    · cases found
      rfl
  · obtain ⟨severity, -, rfl⟩ := Option.map_eq_some_iff.mp found
    rfl

/-- Each deferred constant of the package is judged once, by the body that the library holds. -/
theorem completions_eq (member : package ∈ library.entries)
    (ofInstance : package.unit.template?.isSome = true → package.unit.declarations = []) :
    completions library checks package =
      (package.unit.deferredConstants.filterMap (Constant.completion checks.deferredConstants package.unit.name
        ((library.body? package.unit.name).map Entry.unit))).map (placed library package) := by
  have only (problem : Problem) (about : problem.isAboutCompletion = true) : problem.isAboutConstant = true := by
    rw [Problem.isAboutConstant, about, Bool.true_or]
  rw [completions, filter_diagnostics member only]
  congr 1
  unfold constantFindings DesignUnit.deferredConstants
  unfold DesignUnit.template? DesignUnit.declarations at ofInstance
  cases contents : package.unit.contents with
  | package generics declarations template =>
    cases template with
    | none =>
      have judged : ∀ finding ∈ package.unit.deferredConstants.filterMap (Constant.completion checks.deferredConstants
          package.unit.name ((library.body? package.unit.name).map Entry.unit)),
            finding.problem.isAboutCompletion = true := by
        intro finding found
        obtain ⟨constant, -, isFound⟩ := List.mem_filterMap.mp found
        exact isAboutCompletion_of_completion isFound
      dsimp only [Constant.ofPackage]
      rw [List.filter_append, filter_misplaced, List.append_nil, List.filter_eq_self.mpr judged,
        DesignUnit.deferredConstants, contents]
    | some template =>
      simp only [contents] at ofInstance
      rw [ofInstance rfl]
      rfl
  | packageBody declarations => exact filter_misplaced _
  | entity | architecture | configuration | context => rfl

/-- What is found about deferred constants without a value in the body. -/
theorem filterMap_completion_some (level : Level) (name : Identifier) (body : DesignUnit)
    (constants : List Declaration) :
    constants.filterMap (Constant.completion level name (some body)) =
      (constants.filter fun constant => !Constant.isCompleted body.declarations constant).map fun constant =>
        ⟨.error, .constantWithoutValue constant.name name, constant.position⟩ := by
  rw [← List.filterMap_eq_map, List.filterMap_filter]
  refine List.filterMap_congr fun constant _ => ?_
  rw [Constant.completion]
  cases Constant.isCompleted body.declarations constant <;> rfl

/-- What is found about deferred constants of a package without a body. -/
theorem filterMap_completion_none (level : Level) (name : Identifier) (constants : List Declaration) :
    constants.filterMap (Constant.completion level name none) =
      level.severity?.toList.flatMap fun severity => constants.map fun constant =>
        ⟨severity, .constantWithoutBody constant.name name, constant.position⟩ := by
  unfold Constant.completion
  cases level.severity? with
  | none => simp
  | some severity => simp

/-- How the deferred constants of a package are judged in the library that some steps lead to.

* `withBody`: if the library holds a body of the package, there is one error for each constant without a value in it.
* `withoutBody`: if it holds none, there is a diagnostic of the configured severity for each constant, if any.
* `held`: it holds a body if and only if one was read, from whichever text.
* `only`: if only one was read, that is the one held.
* `anywhere`: another library that holds the package and the same body judges alike, wherever the body was read.
* `classified`: in every unit that was read, the constants are those that a statement declares, and they are deferred
  if and only if no value stands behind its colon. -/
structure JudgesConstants (name : Identifier) (steps : List Library.Step) (checks : Checks) (package : Entry) :
    Prop where
  withBody : ∀ body ∈ (Library.run name steps).entries, body.unit.Completes package.unit →
    completions (Library.run name steps) checks package =
      (package.unit.deferredConstants.filter fun constant =>
        !Constant.isCompleted body.unit.declarations constant).map fun constant =>
          .place .error (.constantWithoutValue constant.name package.unit.name)
            ((Library.run name steps).fileOf package.index) constant.position
  withoutBody : (∀ body ∈ (Library.run name steps).entries, ¬ body.unit.Completes package.unit) →
    completions (Library.run name steps) checks package =
      checks.deferredConstants.severity?.toList.flatMap fun severity =>
        package.unit.deferredConstants.map fun constant =>
          .place severity (.constantWithoutBody constant.name package.unit.name)
            ((Library.run name steps).fileOf package.index) constant.position
  held : (∃ body ∈ (Library.run name steps).entries, body.unit.Completes package.unit) ↔
    ∃ file text body, Library.ReadFrom steps file text body ∧ body.Completes package.unit
  only : ∀ file text body, Library.ReadFrom steps file text body → body.Completes package.unit →
    (∀ file text other, Library.ReadFrom steps file text other → other.Completes package.unit → other = body) →
    ((Library.run name steps).body? package.unit.name).map Entry.unit = some body
  anywhere : ∀ (name' : Identifier) (steps' : List Library.Step), ∀ package' ∈ (Library.run name' steps').entries,
    package'.unit = package.unit →
    (Library.run name' steps').fileOf package'.index = (Library.run name steps).fileOf package.index →
    ((Library.run name' steps').body? package.unit.name).map Entry.unit =
      ((Library.run name steps).body? package.unit.name).map Entry.unit →
    completions (Library.run name' steps') checks package' = completions (Library.run name steps) checks package
  classified : ∀ file text unit, Library.ReadFrom steps file text unit →
    ∀ constant ∈ unit.declarations, constant.kind.isConstant = true →
      ∃ statement rest, statement ++ rest <:+ withoutComments (Lexer.readUntilFault text).1 ∧
        constant.IsConstantOf statement

section

variable {name : Identifier} {steps : List Library.Step}

/-- The body that is found is the one that is held. -/
theorem map_body?_eq_some {body : Entry} (isHeld : body ∈ (Library.run name steps).entries)
    (completes : body.unit.Completes package.unit) :
    ((Library.run name steps).body? package.unit.name).map Entry.unit = some body.unit := by
  have found := (Library.wellFormed_run name steps).unambiguous.body?_eq_some_iff.mpr ⟨isHeld, completes⟩
  rw [found, Option.map_some]

theorem map_body?_eq_none (noBody : ∀ body ∈ (Library.run name steps).entries, ¬ body.unit.Completes package.unit) :
    ((Library.run name steps).body? package.unit.name).map Entry.unit = none := by
  refine Option.map_eq_none_iff.mpr (Option.eq_none_iff_forall_ne_some.mpr fun body found => ?_)
  obtain ⟨isHeld, completes⟩ := (Library.wellFormed_run name steps).unambiguous.body?_eq_some_iff.mp found
  exact noBody body isHeld completes

/-- The deferred constants of every package in every library that comes about are judged by its body, wherever that was
read. -/
theorem deferred_constants_judged (name : Identifier) (steps : List Library.Step) (checks : Checks) {package : Entry}
    (member : package ∈ (Library.run name steps).entries) : JudgesConstants name steps checks package := by
  have ofInstance {name : Identifier} {steps : List Library.Step} {package : Entry}
      (member : package ∈ (Library.run name steps).entries) (isInstance : package.unit.template?.isSome = true) :
      package.unit.declarations = [] := by
    obtain ⟨file, text, directive, -, isRead⟩ := Library.exists_readFrom member
    exact (DesignFile.readsConstants_of_mem_units _ isRead).ofInstance isInstance
  have judged : completions _ checks package = _ := completions_eq member (ofInstance member)
  constructor
  · intro body isHeld completes
    rw [judged, map_body?_eq_some isHeld completes, filterMap_completion_some, List.map_map]
    rfl
  · intro noBody
    rw [judged, map_body?_eq_none noBody, filterMap_completion_none, List.map_flatMap]
    simp only [List.map_map]
    rfl
  · exact Library.exists_body_iff
  · intro file text body isRead completes unique
    obtain ⟨held, isHeld, heldCompletes⟩ := Library.exists_body_iff.mpr ⟨file, text, body, isRead, completes⟩
    obtain ⟨file', text', heldRead⟩ := Library.exists_readFrom isHeld
    rw [map_body?_eq_some isHeld heldCompletes, unique file' text' held.unit heldRead heldCompletes]
  · intro name' steps' package' member' sameUnit sameFile sameBody
    rw [judged, completions_eq member' (ofInstance member'), sameUnit, sameBody]
    congr 1
    funext finding
    rw [placed, placed, sameFile]
  · rintro file text unit ⟨directive, -, isRead⟩ constant declared isConstant
    exact (DesignFile.readsConstants_of_mem_units unit isRead).constants constant declared isConstant

end

namespace Sample

/-- A body that gives a value to one of two constants. -/
def bodyTokens : List PlacedToken :=
  [⟨⟨1, 1⟩, .keyword .package⟩, ⟨⟨1, 9⟩, .keyword .body⟩, ⟨⟨1, 14⟩, .identifier (.basic "P")⟩,
    ⟨⟨1, 16⟩, .keyword .is⟩, ⟨⟨1, 19⟩, .keyword .constant⟩, ⟨⟨1, 28⟩, .identifier (.basic "A")⟩,
    ⟨⟨1, 30⟩, .delimiter .colon⟩, ⟨⟨1, 32⟩, .identifier (.basic "integer")⟩,
    ⟨⟨1, 40⟩, .delimiter .variableAssign⟩, ⟨⟨1, 43⟩, .decimal "1"⟩,
    ⟨⟨1, 44⟩, .delimiter .semicolon⟩, ⟨⟨1, 46⟩, .keyword .end⟩, ⟨⟨1, 49⟩, .delimiter .semicolon⟩,
    ⟨⟨1, 50⟩, .endOfFile⟩]

def packageTokens : List PlacedToken :=
  [⟨⟨1, 1⟩, .keyword .package⟩, ⟨⟨1, 9⟩, .identifier (.basic "p")⟩, ⟨⟨1, 11⟩, .keyword .is⟩,
    ⟨⟨1, 14⟩, .keyword .constant⟩, ⟨⟨1, 23⟩, .identifier (.basic "a")⟩, ⟨⟨1, 24⟩, .delimiter .comma⟩,
    ⟨⟨1, 26⟩, .identifier (.basic "b")⟩, ⟨⟨1, 28⟩, .delimiter .colon⟩,
    ⟨⟨1, 30⟩, .identifier (.basic "integer")⟩, ⟨⟨1, 37⟩, .delimiter .semicolon⟩,
    ⟨⟨1, 39⟩, .keyword .end⟩, ⟨⟨1, 42⟩, .delimiter .semicolon⟩, ⟨⟨1, 43⟩, .endOfFile⟩]

/-- The body is read in front of the package. -/
def completing : List Library.Step :=
  [.add "b.vhd" "package body P is constant A : integer := 1; end;" "elab",
    .add "p.vhd" "package p is constant a, b : integer; end;" "elab", .link]

/-- An object whose subtype `integer` is at the position `column` of the first line. -/
def integer (name : Located Identifier) (kind : DeclarationKind) (column : Nat) : Declaration :=
  .withReferences name kind [⟨⟨.basic "integer", []⟩, ⟨1, column⟩⟩]

def completedBody : Entry :=
  ⟨0, ⟨.basic "P", ⟨1, 1⟩, .empty, [], .packageBody [integer ⟨⟨1, 28⟩, .basic "A"⟩ .constant 32]⟩⟩

def completedPackage : Entry :=
  ⟨1, ⟨.basic "p", ⟨1, 1⟩, .empty, [], .package [] [integer ⟨⟨1, 23⟩, .basic "a"⟩ .deferredConstant 30,
    integer ⟨⟨1, 26⟩, .basic "b"⟩ .deferredConstant 30] none⟩⟩

theorem run_completing : Library.run .work completing =
    ⟨.work, ["b.vhd", "p.vhd"], [⟨completedBody.unit, 0⟩, ⟨completedPackage.unit, 1⟩], [], []⟩ := by
  have readBody : Lexer.readUntilFault "package body P is constant A : integer := 1; end;" = (bodyTokens, none) := by
    decide +kernel
  have readPackage : Lexer.readUntilFault "package p is constant a, b : integer; end;" = (packageTokens, none) := by
    decide +kernel
  have body : DesignFile.units bodyTokens = ([completedBody.unit], none) := by cbv
  have package : DesignFile.units packageTokens = ([completedPackage.unit], none) := by cbv
  simp only [Library.run, completing, List.foldl, Library.step, Library.addSource, readBody, readPackage, body, package]
  cbv

end Sample

/-- One constant of the package is without a value in the body, which is read before the package. -/
theorem deferred_constants_judged_completed :
    Sample.completedPackage ∈ (Library.run .work Sample.completing).entries ∧
      completions (Library.run .work Sample.completing) .standard Sample.completedPackage =
        [.place .error (.constantWithoutValue (.basic "b") (.basic "p")) "p.vhd" ⟨1, 26⟩] := by
  have isHeld : Sample.completedBody ∈ (Library.run .work Sample.completing).entries := by
    rw [Sample.run_completing]
    exact Library.mem_entries_iff.mpr rfl
  have member : Sample.completedPackage ∈ (Library.run .work Sample.completing).entries := by
    rw [Sample.run_completing]
    exact Library.mem_entries_iff.mpr rfl
  have judged := (deferred_constants_judged .work Sample.completing .standard member).withBody _ isHeld ⟨rfl, by decide⟩
  refine ⟨member, judged.trans ?_⟩
  rw [Sample.run_completing]
  cbv

end Resolution

end VhdlOrder
