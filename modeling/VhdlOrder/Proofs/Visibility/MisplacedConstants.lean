import VhdlOrder.Proofs.Library.History
import VhdlOrder.Proofs.Visibility.ConstantFindings
import VhdlOrder.Proofs.Visibility.RegionConstants

/-! # Constants without a value outside package declarations

Such a constant is reported, once, if it stands in a package body itself or in a subprogram around which there are only
subprograms. In a nested package body, and in the subprograms of a nested package, none is reported. The regions of
protected types are skipped, so what is declared in them is no part of the tree of a unit.
-/

namespace VhdlOrder

open VhdlOrder.Parser

/-- The constants without a value that stand in a package body itself. -/
def DesignUnit.bodyConstants (unit : DesignUnit) : List Declaration :=
  match unit.contents with
  | .packageBody declarations => Constant.deferred declarations
  | _ => []

namespace DesignUnit

variable {unit : DesignUnit} {tree : RegionTree}

/-- The constants found in the subprograms of a unit are those that are reached in its tree. -/
theorem Holds.inSubprograms_part (holds : unit.Holds tree) :
    Constant.inSubprograms tree.part.declarations = tree.reached := by
  let any : Remainder := ⟨fun _ => True, fun _ => trivial⟩
  cases holds with
  | package _ region =>
    exact RegionTree.inSubprograms_part (@regular_parsePackageRegion any _ _ _ trivial region).1
  | packageBody _ region =>
    exact RegionTree.inSubprograms_part (@regular_parseBodyRegion any _ _ _ trivial region).1

theorem Holds.bodyConstants_subset (holds : unit.Holds tree) :
    unit.bodyConstants ⊆ Constant.deferred tree.part.declarations := by
  unfold bodyConstants
  cases holds with
  | package _ _ _ contents => simp only [contents, List.nil_subset]
  | packageBody _ _ _ contents => simp only [contents, List.Subset.refl]

end DesignUnit

namespace Resolution

variable {library : Library} {checks : Checks} {reader : Entry} {tree : RegionTree}

/-- The diagnostics at a unit which say that a constant must be declared in a package declaration. -/
def misplacements (library : Library) (checks : Checks) (reader : Entry) : List Diagnostic :=
  ((library.resolve checks).diagnostics reader.index).filter fun diagnostic => diagnostic.problem.isAboutPlace

/-- The error that says so of the constant. -/
def misplacement (library : Library) (reader : Entry) (constant : Declaration) : Diagnostic :=
  .place .error (.constantOutsidePackage constant.name) (library.fileOf reader.index) constant.position

theorem filter_misplaced_self (constants : List Declaration) :
    ((constants.map Constant.misplaced).filter fun finding => finding.problem.isAboutPlace) =
      constants.map Constant.misplaced :=
  List.filter_eq_self.mpr (List.forall_mem_map.mpr fun _ _ => rfl)

/-- What is found about the completion of constants does not say that they are misplaced. -/
theorem filter_completion (level : Level) (name : Identifier) (body : Option DesignUnit)
    (constants : List Declaration) :
    ((constants.filterMap (Constant.completion level name body)).filter fun finding =>
      finding.problem.isAboutPlace) = [] := by
  refine List.filter_eq_nil_iff.mpr fun finding found => ?_
  obtain ⟨constant, -, isFound⟩ := List.mem_filterMap.mp found
  unfold Constant.completion at isFound
  split at isFound
  · split at isFound
    · cases isFound
    · cases isFound
      exact Bool.false_ne_true
  · obtain ⟨severity, -, rfl⟩ := Option.map_eq_some_iff.mp isFound
    exact Bool.false_ne_true

/-- The constants that are reported are those of the package body itself and those that are reached in the tree. -/
theorem misplacements_eq (member : reader ∈ library.entries) (holds : reader.unit.Holds tree) :
    misplacements library checks reader =
      (reader.unit.bodyConstants ++ tree.reached).map (misplacement library reader) := by
  have only (problem : Problem) (about : problem.isAboutPlace = true) : problem.isAboutConstant = true := by
    rw [Problem.isAboutConstant, about, Bool.or_true]
  have found : ((constantFindings library checks.deferredConstants reader.unit).filter fun finding =>
      finding.problem.isAboutPlace) = (reader.unit.bodyConstants ++ tree.reached).map Constant.misplaced := by
    rw [← holds.inSubprograms_part]
    unfold constantFindings DesignUnit.bodyConstants
    cases holds with
    | package _ _ _ contents =>
      simp only [contents, Constant.ofPackage, DesignUnit.declarations, List.filter_append, filter_completion,
        filter_misplaced_self, List.nil_append]
    | packageBody _ _ _ contents =>
      simp only [contents, Constant.ofBody, DesignUnit.declarations, filter_misplaced_self]
  rw [misplacements, filter_diagnostics member only, found, List.map_map]
  rfl

/-- Which constants of a unit with the tree `tree` are reported to be misplaced.

* `reported`: there is one error for each constant without a value in the package body itself, and for each that is
  reached in the tree; and there is no other one.
* `parts`: what is misplaced in the tree is what is reached and what is hidden.
* `complete`: so there is one error for each misplaced constant if and only if none is hidden.
* `written`: each misplaced constant is declared, without a value, by a statement of the text of the unit. -/
structure ReportsMisplaced (name : Identifier) (steps : List Library.Step) (checks : Checks) (reader : Entry)
    (tree : RegionTree) : Prop where
  holds : reader.unit.Holds tree
  reported : misplacements (Library.run name steps) checks reader =
    (reader.unit.bodyConstants ++ tree.reached).map fun constant =>
      .place .error (.constantOutsidePackage constant.name) ((Library.run name steps).fileOf reader.index)
        constant.position
  parts : (tree.reached ++ tree.hidden).Perm tree.misplaced
  complete : (misplacements (Library.run name steps) checks reader).Perm
    ((reader.unit.bodyConstants ++ tree.misplaced).map (misplacement (Library.run name steps) reader)) ↔ tree.hidden = []
  written : ∃ file text, Library.ReadFrom steps file text reader.unit ∧
    ∀ constant ∈ reader.unit.bodyConstants ++ tree.misplaced, ∃ statement rest,
      statement ++ rest <:+ withoutComments (Lexer.readUntilFault text).1 ∧ constant.IsConstantOf statement ∧
        SimpleDeclaration.hasValue statement = false

/-- Every package that is no instance, and every package body, has a tree, and exactly the constants without a value in
the body itself and in its subprograms are reported, not those in nested packages and their bodies. -/
theorem misplaced_constants_reported (name : Identifier) (steps : List Library.Step) (checks : Checks) {reader : Entry}
    (member : reader ∈ (Library.run name steps).entries) (plain : reader.unit.hasRegion = true) :
    ∃ tree, ReportsMisplaced name steps checks reader tree := by
  obtain ⟨file, text, readFrom⟩ := Library.exists_readFrom member
  obtain ⟨directive, -, isRead⟩ := id readFrom
  obtain ⟨tree, holds, regular⟩ := DesignFile.hasRegular_of_mem_units _ isRead plain
  have reported : misplacements _ checks reader = _ := misplacements_eq member holds
  have parts := tree.reached_append_hidden_perm
  refine ⟨tree, holds, reported, parts, ?_, file, text, readFrom, fun constant among => ?_⟩
  · rw [reported]
    constructor
    · intro all
      have counts := all.length_eq
      have whole := parts.length_eq
      simp only [List.length_map, List.length_append] at counts whole
      exact List.length_eq_zero_iff.mp (by omega)
    · intro none
      rw [none, List.append_nil] at parts
      exact (parts.append_left _).map _
  · refine regular.misplaced constant (List.mem_append.mpr ?_)
    exact (List.mem_append.mp among).imp_left fun own => holds.bodyConstants_subset own

namespace Misplaced

/-- A package body with a constant in a subprogram and one in the body of a nested package. -/
def text : String :=
  "package p is end; package body p is procedure k is constant a : bit; begin end; package n is end; " ++
    "package body n is constant b : bit; end; end;"

/-- The tokens behind the words `package body` at the second unit. -/
def bodyTokens : List PlacedToken :=
  [⟨⟨1, 32⟩, .identifier (.basic "p")⟩, ⟨⟨1, 34⟩, .keyword .is⟩, ⟨⟨1, 37⟩, .keyword .procedure⟩,
    ⟨⟨1, 47⟩, .identifier (.basic "k")⟩, ⟨⟨1, 49⟩, .keyword .is⟩, ⟨⟨1, 52⟩, .keyword .constant⟩,
    ⟨⟨1, 61⟩, .identifier (.basic "a")⟩, ⟨⟨1, 63⟩, .delimiter .colon⟩, ⟨⟨1, 65⟩, .identifier (.basic "bit")⟩,
    ⟨⟨1, 68⟩, .delimiter .semicolon⟩, ⟨⟨1, 70⟩, .keyword .begin⟩, ⟨⟨1, 76⟩, .keyword .end⟩,
    ⟨⟨1, 79⟩, .delimiter .semicolon⟩, ⟨⟨1, 81⟩, .keyword .package⟩, ⟨⟨1, 89⟩, .identifier (.basic "n")⟩,
    ⟨⟨1, 91⟩, .keyword .is⟩, ⟨⟨1, 94⟩, .keyword .end⟩, ⟨⟨1, 97⟩, .delimiter .semicolon⟩,
    ⟨⟨1, 99⟩, .keyword .package⟩, ⟨⟨1, 107⟩, .keyword .body⟩, ⟨⟨1, 112⟩, .identifier (.basic "n")⟩,
    ⟨⟨1, 114⟩, .keyword .is⟩, ⟨⟨1, 117⟩, .keyword .constant⟩, ⟨⟨1, 126⟩, .identifier (.basic "b")⟩,
    ⟨⟨1, 128⟩, .delimiter .colon⟩, ⟨⟨1, 130⟩, .identifier (.basic "bit")⟩, ⟨⟨1, 133⟩, .delimiter .semicolon⟩,
    ⟨⟨1, 135⟩, .keyword .end⟩, ⟨⟨1, 138⟩, .delimiter .semicolon⟩, ⟨⟨1, 140⟩, .keyword .end⟩,
    ⟨⟨1, 143⟩, .delimiter .semicolon⟩, ⟨⟨1, 144⟩, .endOfFile⟩]

def tokens : List PlacedToken :=
  [⟨⟨1, 1⟩, .keyword .package⟩, ⟨⟨1, 9⟩, .identifier (.basic "p")⟩, ⟨⟨1, 11⟩, .keyword .is⟩,
    ⟨⟨1, 14⟩, .keyword .end⟩, ⟨⟨1, 17⟩, .delimiter .semicolon⟩, ⟨⟨1, 19⟩, .keyword .package⟩,
    ⟨⟨1, 27⟩, .keyword .body⟩] ++ bodyTokens

/-- The reference to the type of a constant. -/
def bit (column : Nat) : Reference := ⟨⟨.basic "bit", []⟩, ⟨1, column⟩⟩

/-- The constant in the subprogram. -/
def inSubprogram : Declaration := .withReferences ⟨⟨1, 61⟩, .basic "a"⟩ .deferredConstant [bit 65]

/-- The constant in the body of the nested package. -/
def inBody : Declaration := .withReferences ⟨⟨1, 126⟩, .basic "b"⟩ .deferredConstant [bit 130]

def nestedTree : RegionTree :=
  .subprogram ⟨⟨1, 47⟩, .basic "k"⟩ .procedure [] [] (.plain (.ofDeclarations [inSubprogram]) .empty) []
    (.package ⟨⟨1, 89⟩, .basic "n"⟩ [] .empty
      (.body ⟨⟨1, 112⟩, .basic "n"⟩ (.plain (.ofDeclarations [inBody]) .empty) .empty))

def packageUnit : DesignUnit := ⟨.basic "p", ⟨1, 1⟩, .empty, [], .package [] [] none⟩

/-- What is kept of the package body: nothing of the nested body is declared. -/
def body : Entry :=
  ⟨1, ⟨.basic "p", ⟨1, 19⟩, .empty, [bit 130], .packageBody
    [{ Declaration.withReferences ⟨⟨1, 47⟩, .basic "k"⟩ .procedure [bit 65] with locals := [inSubprogram] },
      .withReferences ⟨⟨1, 89⟩, .basic "n"⟩ .package []]⟩⟩

def steps : List Library.Step := [.add "p.vhd" text "elab", .link]

theorem holds_nestedTree : body.unit.Holds nestedTree := by
  have read : DesignUnit.parsePackageBody ⟨1, 19⟩ .empty bodyTokens = .ok body.unit [⟨⟨1, 144⟩, .endOfFile⟩] := by cbv
  have region : DesignUnit.parseBodyRegion bodyTokens = .ok nestedTree (bodyTokens.drop 29) := by cbv
  exact .packageBody read region (by cbv) (by cbv)

theorem run_steps : Library.run .work steps =
    ⟨.work, ["p.vhd"], [⟨packageUnit, 0⟩, ⟨body.unit, 0⟩], [], []⟩ := by
  have read : Lexer.readUntilFault text = (tokens, none) := by decide +kernel
  have units : DesignFile.units tokens = ([packageUnit, body.unit], none) := by cbv
  simp only [Library.run, steps, List.foldl, Library.step, Library.addSource, read, units]
  cbv

theorem body_mem : body ∈ (Library.run .work steps).entries := by
  rw [run_steps]
  exact Library.mem_entries_iff.mpr rfl

/-- Of the two constants only that in the subprogram is reported. -/
theorem misplacements_body : misplacements (Library.run .work steps) .standard body =
    [.place .error (.constantOutsidePackage (.basic "a")) "p.vhd" ⟨1, 61⟩] := by
  rw [misplacements_eq body_mem holds_nestedTree, run_steps]
  cbv

end Misplaced

/-- The tree that the body has is not reported in full. -/
theorem misplaced_constants_reported_nested :
    Misplaced.body ∈ (Library.run .work Misplaced.steps).entries ∧ Misplaced.body.unit.hasRegion = true ∧
      ∃ tree, Misplaced.body.unit.Holds tree ∧ (Misplaced.body.unit.bodyConstants ++ tree.reached).map
        (misplacement (Library.run .work Misplaced.steps) Misplaced.body) =
          [.place .error (.constantOutsidePackage (.basic "a")) "p.vhd" ⟨1, 61⟩] := by
  obtain ⟨tree, reports⟩ := misplaced_constants_reported .work Misplaced.steps .standard Misplaced.body_mem rfl
  exact ⟨Misplaced.body_mem, rfl, tree, reports.holds, reports.reported.symm.trans Misplaced.misplacements_body⟩

/-- Not every constant without a value outside package declarations is reported: none in a nested package body is. -/
theorem exists_misplaced_not_reported :
    ¬ ∀ (name : Identifier) (steps : List Library.Step) (checks : Checks),
      ∀ reader ∈ (Library.run name steps).entries, ∀ tree, reader.unit.Holds tree →
        ∀ constant ∈ reader.unit.bodyConstants ++ tree.misplaced,
          misplacement (Library.run name steps) reader constant ∈
            misplacements (Library.run name steps) checks reader := by
  intro reported
  have isMisplaced : Misplaced.inBody ∈ Misplaced.body.unit.bodyConstants ++ Misplaced.nestedTree.misplaced := by
    have misplaced : Misplaced.nestedTree.misplaced = [Misplaced.inSubprogram, Misplaced.inBody] := by cbv
    rw [misplaced]
    exact List.mem_append_right _ (List.mem_cons_of_mem _ List.mem_cons_self)
  have found := reported .work Misplaced.steps .standard Misplaced.body Misplaced.body_mem Misplaced.nestedTree
    Misplaced.holds_nestedTree Misplaced.inBody isMisplaced
  rw [Misplaced.misplacements_body, List.mem_singleton, misplacement, Misplaced.run_steps] at found
  exact absurd found (by decide)

end Resolution

end VhdlOrder
