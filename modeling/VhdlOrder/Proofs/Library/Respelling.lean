import VhdlOrder.Proofs.Design.RespelledUnits
import VhdlOrder.Proofs.Library.Correspondence

/-! # Libraries that are spelled alike

Two libraries are spelled alike if they differ in the spelling of identifiers only: one respelling gives them the same
units, in the same order and in the same files. Such libraries correspond to a third one, in which that spelling is
used. Sources with the same tokens, up to the spelling of identifiers, are read into libraries that are spelled alike,
as a unit is dropped or kept for its designation.
-/

namespace VhdlOrder

/-- The unit with all names in it spelled in another way. -/
def LibraryUnit.respell (f : Respelling) (item : LibraryUnit) : LibraryUnit := ⟨item.unit.respell f, item.source⟩

namespace Library

variable {f : Respelling} {library first second : Library}

/-- The library with its own name and all names in its units spelled in another way. -/
def respell (f : Respelling) (library : Library) : Library :=
  { library with name := f library.name, units := library.units.map (LibraryUnit.respell f) }

theorem unit?_respell (index : Nat) :
    (library.respell f).unit? index = (library.unit? index).map (DesignUnit.respell f) := by
  simp only [unit?, respell, List.getElem?_map, Option.map_map]
  rfl

theorem fileOf_respell (index : Nat) : (library.respell f).fileOf index = library.fileOf index := by
  simp only [fileOf, respell, List.getElem?_map, Option.map_map]
  rfl

/-- The libraries are the same as soon as identifiers are spelled in one way. -/
structure Alike (f : Respelling) (first second : Library) : Prop where
  name : f first.name = f second.name
  files : first.files = second.files
  units : first.units.map (LibraryUnit.respell f) = second.units.map (LibraryUnit.respell f)

namespace Alike

variable (alike : first.Alike f second)

include alike

theorem unit? (index : Nat) : (first.respell f).unit? index = (second.respell f).unit? index := by
  simp [Library.unit?, Library.respell, alike.units]

theorem fileOf (index : Nat) : (first.respell f).fileOf index = (second.respell f).fileOf index := by
  simp [Library.fileOf, Library.path, Library.respell, alike.units, alike.files]

/-- Libraries that are spelled alike correspond to one library, without a change of numbers. -/
theorem corresponds (unambiguous : second.Unambiguous) : second.Corresponds ⟨f, .refl Nat⟩ (first.respell f) := by
  refine ⟨alike.name, fun index => ?_, fun index => ?_, unambiguous⟩
  · rw [← unit?_respell]
    exact alike.unit? index
  · exact (alike.fileOf index).trans (fileOf_respell index)

end Alike

theorem Alike.refl (f : Respelling) (library : Library) : library.Alike f library := ⟨rfl, rfl, rfl⟩

/-! ## Reading sources -/

theorem fresh_map (taken : List Designation) (units : List DesignUnit) :
    fresh taken (units.map (DesignUnit.respell f)) = (fresh taken units).map (DesignUnit.respell f) := by
  induction units generalizing taken with
  | nil => rfl
  | cons unit rest ih =>
    simp only [List.map_cons, fresh, DesignUnit.designation_respell, ih]
    split <;> rfl

/-- Two sources with the same path, whose units are the same as soon as identifiers are spelled in one way. -/
structure SourceAlike (f : Respelling) (source source' : String × String) : Prop where
  file : source.1 = source'.1
  units : (parsed source.2).map (DesignUnit.respell f) = (parsed source'.2).map (DesignUnit.respell f)

theorem map_unitsOf_congr {sources sources' : List (String × String)}
    (alike : List.Forall₂ (SourceAlike f) sources sources') (number : Nat) (taken : List Designation) :
    (unitsOf number taken sources).map (LibraryUnit.respell f) =
      (unitsOf number taken sources').map (LibraryUnit.respell f) := by
  induction alike generalizing number taken with
  | nil => rfl
  | @cons source source' rest rest' here _ ih =>
    have kept : (fresh taken (parsed source.2)).map (DesignUnit.respell f) =
        (fresh taken (parsed source'.2)).map (DesignUnit.respell f) := by
      rw [← fresh_map, ← fresh_map, here.units]
    have designations (units : List DesignUnit) :
        units.map DesignUnit.designation = (units.map (DesignUnit.respell f)).map DesignUnit.designation := by
      simp [Function.comp_def]
    have numbered (units : List DesignUnit) : (units.map (LibraryUnit.mk · number)).map (LibraryUnit.respell f) =
        (units.map (DesignUnit.respell f)).map (LibraryUnit.mk · number) := by
      rw [List.map_map, List.map_map]
      rfl
    simp only [unitsOf, List.map_append, numbered]
    rw [ih, kept, designations, kept, ← designations]

theorem alike_ofSources {sources sources' : List (String × String)}
    (alike : List.Forall₂ (SourceAlike f) sources sources') (name : Identifier) (directive : String) :
    (ofSources name directive sources).Alike f (ofSources name directive sources') := by
  constructor
  · rw [name_ofSources, name_ofSources]
  · rw [(hasRead_ofSources name directive sources).files, (hasRead_ofSources name directive sources').files]
    induction alike with
    | nil => rfl
    | cons here _ ih => rw [List.map_cons, List.map_cons, here.file, ih]
  · rw [units_ofSources, units_ofSources]
    exact map_unitsOf_congr alike 0 []

/-- Two sources with the same path and the same tokens, up to the spelling of identifiers. -/
structure SameTokens (source source' : String × String) : Prop where
  file : source.1 = source'.1
  tokens : List.Forall₂ PlacedToken.Same (Lexer.readUntilFault source.2).1 (Lexer.readUntilFault source'.2).1

/-- Sources with the same tokens have the same units in the canonical spelling. -/
theorem SameTokens.alike {source source' : String × String} (same : SameTokens source source') :
    SourceAlike .canonical source source' := by
  refine ⟨same.file, ?_⟩
  have units (text : String) : (parsed text).map (DesignUnit.respell .canonical) =
      (DesignFile.units ((Lexer.readUntilFault text).1.map (PlacedToken.respell .canonical))).1 := by
    rw [DesignFile.units_map]
    rfl
  rw [units, units, Lexer.map_respell_canonical same.tokens]

end Library

end VhdlOrder
