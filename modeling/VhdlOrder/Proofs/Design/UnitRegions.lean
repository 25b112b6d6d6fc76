import VhdlOrder.Proofs.Design.Headings
import VhdlOrder.Proofs.Design.ReadUnits
import VhdlOrder.Proofs.Design.RegionTree

/-! # The regions of a unit

A package that is no instance and a package body hold the tree of the regions in the tokens that they are read from:
the declarations and the references of the unit are what the tree is flattened to.
-/

namespace VhdlOrder

open VhdlOrder.Parser

namespace DesignUnit

/-- Whether the unit has a declarative region that is read declaration by declaration. -/
def hasRegion (unit : DesignUnit) : Bool :=
  match unit.contents with
  | .package _ _ none | .packageBody _ => true
  | _ => false

/-- The regions of a package, after its first word. -/
def parsePackageRegion : Parser RegionTree := do
  let _ ← Parser.identifier
  Parser.keyword .is
  let _ ← packageGenerics
  RegionTree.parse

/-- The regions of a package body, after the words `package body`. -/
def parseBodyRegion : Parser RegionTree := do
  let _ ← Parser.identifier
  Parser.keyword .is
  RegionTree.parse

/-- The tree is that of the regions in the tokens that the unit is read from. -/
inductive Holds (unit : DesignUnit) (tree : RegionTree) : Prop
  | package {position : Position} {context : ContextClause} {tokens rest left : List PlacedToken}
      {generics : List Declaration} (read : parsePackage position context tokens = .ok unit rest)
      (region : parsePackageRegion tokens = .ok tree left) (references : unit.references = tree.part.references)
      (contents : unit.contents = .package generics tree.part.declarations none)
  | packageBody {position : Position} {context : ContextClause} {tokens rest left : List PlacedToken}
      (read : parsePackageBody position context tokens = .ok unit rest)
      (region : parseBodyRegion tokens = .ok tree left) (references : unit.references = tree.part.references)
      (contents : unit.contents = .packageBody tree.part.declarations)

variable {unit : DesignUnit} {position : Position} {context : ContextClause} {tokens rest : List PlacedToken}

/-- The declarative part of a unit is read as its tree. -/
theorem exists_tree_of_parse {part : DeclarativePart} (read : DeclarativePart.parse tokens = .ok part rest) :
    ∃ tree, RegionTree.parse tokens = .ok tree rest ∧ tree.part = part := by
  rw [← RegionTree.part_parse, map_eq_pure_bind, bind_eq_ok_iff] at read
  obtain ⟨tree, left, found, same⟩ := read
  cases same
  exact ⟨tree, found, rfl⟩

/-- The declarations and references of a package body are those of the tree in its tokens. -/
theorem exists_region_of_parsePackageBody (read : parsePackageBody position context tokens = .ok unit rest) :
    ∃ tree left, parseBodyRegion tokens = .ok tree left ∧ unit.references = tree.part.references ∧
      unit.contents = .packageBody tree.part.declarations := by
  unfold parsePackageBody at read
  obtain ⟨name, _, named, whole⟩ := bind_eq_ok_iff.mp read
  obtain ⟨_, _, isWord, whole⟩ := bind_eq_ok_iff.mp whole
  obtain ⟨part, _, inside, whole⟩ := bind_eq_ok_iff.mp whole
  obtain ⟨_, _, -, whole⟩ := bind_eq_ok_iff.mp whole
  obtain ⟨_, _, -, whole⟩ := bind_eq_ok_iff.mp whole
  obtain ⟨tree, region, rfl⟩ := exists_tree_of_parse inside
  cases whole
  exact ⟨tree, _, bind_eq_ok_iff.mpr ⟨_, _, named, bind_eq_ok_iff.mpr ⟨_, _, isWord, region⟩⟩, rfl, rfl⟩

theorem exists_holds_of_parsePackageBody (read : parsePackageBody position context tokens = .ok unit rest) :
    ∃ tree, unit.Holds tree := by
  obtain ⟨tree, left, region, references, contents⟩ := exists_region_of_parsePackageBody read
  exact ⟨tree, .packageBody read region references contents⟩

/-- The declarations and references of a package that is no instance are those of the tree in its tokens. -/
theorem exists_region_of_parsePackage (read : parsePackage position context tokens = .ok unit rest)
    (plain : unit.hasRegion = true) :
    ∃ tree left generics, parsePackageRegion tokens = .ok tree left ∧ unit.references = tree.part.references ∧
      unit.contents = .package generics tree.part.declarations none := by
  unfold parsePackage at read
  obtain ⟨name, _, named, whole⟩ := bind_eq_ok_iff.mp read
  obtain ⟨_, _, isWord, whole⟩ := bind_eq_ok_iff.mp whole
  obtain ⟨isNew, behind, accepted, whole⟩ := bind_eq_ok_iff.mp whole
  cases isNew with
  | true =>
    rw [if_pos rfl] at whole
    obtain ⟨_, _, -, whole⟩ := bind_eq_ok_iff.mp whole
    obtain ⟨_, _, -, whole⟩ := bind_eq_ok_iff.mp whole
    cases whole
    cases plain
  | false =>
    rw [rest_of_accept_false accepted, if_neg Bool.false_ne_true] at whole
    obtain ⟨generics, _, isGenerics, whole⟩ := bind_eq_ok_iff.mp whole
    obtain ⟨part, _, inside, whole⟩ := bind_eq_ok_iff.mp whole
    obtain ⟨_, _, -, whole⟩ := bind_eq_ok_iff.mp whole
    obtain ⟨_, _, -, whole⟩ := bind_eq_ok_iff.mp whole
    obtain ⟨tree, region, rfl⟩ := exists_tree_of_parse inside
    cases whole
    exact ⟨tree, _, generics, bind_eq_ok_iff.mpr ⟨_, _, named, bind_eq_ok_iff.mpr ⟨_, _, isWord,
      bind_eq_ok_iff.mpr ⟨_, _, isGenerics, region⟩⟩⟩, rfl, rfl⟩

theorem exists_holds_of_parsePackage (read : parsePackage position context tokens = .ok unit rest)
    (plain : unit.hasRegion = true) : ∃ tree, unit.Holds tree := by
  obtain ⟨tree, left, generics, region, references, contents⟩ := exists_region_of_parsePackage read plain
  exact ⟨tree, .package read region references contents⟩

/-! ### Units without a region -/

theorem noRegion_parseEntity {front : Remainder} :
    Reads front (parseEntity position context) (·.hasRegion = false) := by
  have each : Interface.EachElement front fun _ => True := fun _ _ _ _ _ _ _ => trivial
  exact reads_identifier.bind fun _ _ => (reads_keyword _).bind fun _ _ => (reads_interfaceAfter each _).bind fun _ _ =>
    (reads_interfaceAfter each _).bind fun _ _ => reads_regionReferences.bind fun _ _ =>
      (reads_ending _ _).bind fun _ _ => .pure rfl

end DesignUnit

namespace DesignFile

/-- A package that is no instance, or a package body, holds the tree of its regions. -/
theorem exists_holds_of_mem_units {tokens : List PlacedToken} {unit : DesignUnit} (member : unit ∈ (units tokens).1)
    (plain : unit.hasRegion = true) : ∃ tree, unit.Holds tree := by
  have without {unit : DesignUnit} (none : unit.hasRegion = false) (plain : unit.hasRegion = true) :
      ∃ tree, unit.Holds tree := absurd (none.symm.trans plain) Bool.false_ne_true
  have each : DesignUnit.EachReads (.within tokens) fun unit => unit.hasRegion = true → ∃ tree, unit.Holds tree := {
    package := fun _ _ stream unit rest part read => ⟨DesignUnit.exists_holds_of_parsePackage read,
      (DesignUnit.heads_parsePackage _ _ stream unit rest part read).2⟩
    packageBody := fun _ _ stream unit rest part read => ⟨fun _ => DesignUnit.exists_holds_of_parsePackageBody read,
      (DesignUnit.heads_parsePackageBody _ _ stream unit rest part read).2⟩
    entity := fun _ _ => DesignUnit.noRegion_parseEntity.imp fun _ => without
    architecture := fun _ _ => DesignUnit.reads_parseOfEntity fun _ _ _ => without rfl
    configuration := fun _ _ => DesignUnit.reads_parseOfEntity fun _ _ _ => without rfl
    context := fun _ _ _ => DesignUnit.reads_parseContext fun _ => without rfl }
  exact forall_mem_units each List.filter_sublist.subset unit member plain

end DesignFile

end VhdlOrder
