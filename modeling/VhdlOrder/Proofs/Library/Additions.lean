import VhdlOrder.Proofs.Library.Naming

/-! # What is added never changes what is there

A source adds its path, its pragmas, the units of it whose names are free, and diagnostics. A unit whose name is
taken leaves one diagnostic behind, which tells the place of the unit that has the name, and nothing else. Whatever
was there stays where it was, and whatever was found is found. Linking adds diagnostics only.
-/

namespace VhdlOrder

/-- Whether the problem is that the name of a unit is taken. -/
def Problem.isDuplicateUnit : Problem → Bool
  | .duplicateUnit .. => true
  | _ => false

namespace Library

/-- `after` holds what `library` does where it was, and finds what is found in it. -/
structure Keeps (library after : Library) : Prop where
  name : after.name = library.name
  files : library.files <+: after.files
  units : library.units <+: after.units
  pragmas : library.pragmas <+: after.pragmas
  diagnostics : library.diagnostics <+: after.diagnostics
  primary : ∀ name entry, library.primary? name = some entry → after.primary? name = some entry
  body : ∀ name entry, library.body? name = some entry → after.body? name = some entry
  architectures : ∀ entity, library.architectures entity <+: after.architectures entity
  found : ∀ name entry, library.find? name = some entry → after.find? name = some entry

variable {library : Library}

/-- A unit is either free to be added or repeats a name. -/
theorem fresh_append_repeated_perm (taken : List Designation) (units : List DesignUnit) :
    (fresh taken units ++ repeated taken units).Perm units := by
  induction units generalizing taken with
  | nil => exact .nil
  | cons unit rest ih =>
    unfold fresh repeated
    split
    · exact List.perm_middle.trans ((ih taken).cons unit)
    · exact (ih _).cons unit

/-- What is said about a source apart from its units is not about names of units. -/
theorem isDuplicateUnit_of_mem_readingDiagnostics {file text directive : String} :
    ∀ diagnostic ∈ readingDiagnostics file text directive, diagnostic.problem.isDuplicateUnit = false := by
  refine List.forall_mem_append.mpr ⟨List.forall_mem_append.mpr ⟨?_, List.forall_mem_flatMap.mpr ?_⟩, ?_⟩
  · intro diagnostic member
    obtain ⟨fault, -, rfl⟩ := Option.map_eq_some_iff.mp (Option.mem_toList.mp member)
    rfl
  · rintro ⟨position, value⟩ -
    cases value with
    | error fault => exact List.forall_mem_singleton.mpr rfl
    | ok pragma =>
      unfold pragmaDiagnostics
      dsimp only
      split
      · exact List.forall_mem_nil _
      · exact List.forall_mem_singleton.mpr rfl
  · intro diagnostic member
    obtain ⟨fault, -, rfl⟩ := Option.map_eq_some_iff.mp (Option.mem_toList.mp member)
    rfl

/-- A well-formed library that holds more finds as much as before. -/
theorem WellFormed.keeps {after : Library} (wellFormed : library.WellFormed) (wellFormed' : after.WellFormed)
    (name : after.name = library.name) (files : library.files <+: after.files) (units : library.units <+: after.units)
    (pragmas : library.pragmas <+: after.pragmas) (diagnostics : library.diagnostics <+: after.diagnostics) :
    library.Keeps after where
  name := name
  files := files
  units := units
  pragmas := pragmas
  diagnostics := diagnostics
  primary := fun _ _ => primary?_mono units
  body := fun _ _ => body?_mono units
  architectures := architectures_mono units
  found := by
    intro selected entry isFound
    rw [wellFormed.find?_eq_some_iff] at isFound
    rw [wellFormed'.find?_eq_some_iff]
    have same : after.unqualified selected = library.unqualified selected := by
      unfold unqualified isWorking
      rw [name]
    exact ⟨(entries_mono units).subset isFound.1, same ▸ isFound.2⟩

/-- What reading a source answers: all that was there is kept, and the rest is put behind it. -/
structure Appends (library : Library) (file text directive : String) (answer : Nat × Library) : Prop where
  keeps : library.Keeps answer.2
  files : answer.2.files = library.files ++ [file]
  units : answer.2.units = library.units ++
    (fresh library.designations (parsed text)).map (LibraryUnit.mk · library.files.length)
  count : answer.1 = (fresh library.designations (parsed text)).length
  others : (fresh library.designations (parsed text) ++ repeated library.designations (parsed text)).Perm (parsed text)
  pragmas : answer.2.pragmas = library.pragmas ++
    (Pragma.scan (Lexer.readUntilFault text).1 directive).filterMap (targeted? library.files.length)
  reading : ∀ diagnostic ∈ readingDiagnostics file text directive, diagnostic.problem.isDuplicateUnit = false
  diagnostics : ∃ duplicates,
    answer.2.diagnostics = library.diagnostics ++ readingDiagnostics file text directive ++ duplicates ∧
      List.Forall₂ (answer.2.Reports file) (repeated library.designations (parsed text)) duplicates

theorem WellFormed.appends (wellFormed : library.WellFormed) (file text directive : String) :
    library.Appends file text directive (library.addSource file text directive) := by
  have wellFormed' := wellFormed.addSource file text directive
  have units := library.units_addSource file text directive
  have files := library.files_addSource file text directive
  obtain ⟨duplicates, reports, answer⟩ := library.exists_addSource_eq file text directive
  rw [answer] at wellFormed' units files reports ⊢
  exact {
    keeps := wellFormed.keeps wellFormed' rfl ⟨_, files.symm⟩ ⟨_, units.symm⟩
      ((List.prefix_append _ _).trans (List.prefix_append _ _))
      ((List.prefix_append _ _).trans (List.prefix_append _ _))
    files := files
    units := units
    count := rfl
    others := fresh_append_repeated_perm _ _
    pragmas := List.append_nil _
    reading := isDuplicateUnit_of_mem_readingDiagnostics
    diagnostics := ⟨duplicates, rfl, reports⟩ }

/-- Whatever was done to a library, reading a source into it keeps all of it, adds the units whose names are free and
reports each of the others once; and linking it adds diagnostics only. -/
theorem run_appends (name : Identifier) (steps : List Step) (file text directive : String) :
    (run name steps).Appends file text directive ((run name steps).addSource file text directive) ∧
      ∃ problems, (run name steps).link =
        { run name steps with diagnostics := (run name steps).diagnostics ++ problems } :=
  ⟨(wellFormed_run name steps).appends file text directive, _, rfl⟩

/-- A source in which one unit has the name of a unit of an earlier source, and another one that of its first. -/
def Sample.clashing : String := "package p is end; entity E is end; package P is end;"

/-- One unit of the source is added, and two are reported. -/
theorem run_appends_clashing :
    let library := run .work [.add "e.vhd" "entity e is end;" "elab"]
    let answer := library.addSource "p.vhd" Sample.clashing "elab"
    library.Appends "p.vhd" Sample.clashing "elab" answer ∧ answer.1 = 1 ∧
      answer.2.diagnostics = [
        .place .error (.duplicateUnit .entity "E" "e.vhd:1:1") "p.vhd" ⟨1, 19⟩,
        .place .error (.duplicateUnit .package "P" "p.vhd:1:1") "p.vhd" ⟨1, 36⟩] :=
  ⟨(run_appends .work [.add "e.vhd" "entity e is end;" "elab"] "p.vhd" Sample.clashing "elab").1,
    by decide +kernel⟩

end Library

end VhdlOrder
