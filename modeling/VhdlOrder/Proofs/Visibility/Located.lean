import VhdlOrder.Proofs.Design.Places
import VhdlOrder.Proofs.Library.Sources
import VhdlOrder.Proofs.Visibility.Unused

/-! # Where diagnostics point

The position of a diagnostic is that of the construct which it is about, in the source of the unit that writes
the construct. The file is that of the unit which is resolved. The two belong together unless the construct is in
a clause that the unit only sees: in the context clause of its primary unit, or in a context declaration.
-/

namespace VhdlOrder

variable {library : Library} {source : List PlacedToken} {unit : DesignUnit}

/-- What is declared at any depth inside written declarations is written. -/
theorem Declaration.Within.isWritten {items : List Declaration} {declaration : Declaration}
    (within : Within items declaration) (each : ∀ item ∈ items, item.IsWritten source) :
    declaration.IsWritten source := by
  induction within with
  | here member => exact each _ member
  | inside member _ ih => exact ih (each _ member).locals

namespace DesignUnit.IsWritten

theorem of_mem_declarations (written : unit.IsWritten source) :
    ∀ declaration ∈ unit.declarations, declaration.IsWritten source := by
  have contents := written.contents
  unfold declarations
  split
  · rename_i same
    rw [same] at contents
    exact (List.forall_mem_append.mp contents.1).2
  · rename_i same
    rw [same] at contents
    exact contents
  · exact List.forall_mem_nil _

theorem of_template? (written : unit.IsWritten source) {template : Reference} (found : unit.template? = some template) :
    template.IsWritten source := by
  have contents := written.contents
  unfold template? at found
  split at found
  · rename_i same
    rw [same] at contents
    exact contents.2 template found
  · contradiction

theorem of_clause? (written : unit.IsWritten source) {clause : ContextClause} (found : unit.clause? = some clause) :
    clause.IsWritten source := by
  have contents := written.contents
  unfold clause? at found
  split at found
  · rename_i same
    rw [same] at contents
    cases found
    exact contents
  · contradiction

/-- The references that are looked up in a unit are written in it. -/
theorem of_mem_lookups (written : unit.IsWritten source) {site : Lookup.Site}
    (member : site ∈ Resolution.lookups library unit) : site.reference.IsWritten source := by
  have own {locals : List Declaration} (member : site ∈ unit.references.map (Lookup.Site.mk locals)) :
      site.reference.IsWritten source := by
    obtain ⟨reference, present, rfl⟩ := List.mem_map.mp member
    exact written.references reference present
  have inside {locals items : List Declaration} (each : ∀ item ∈ items, item.IsWritten source)
      (member : site ∈ Lookup.sites locals items) : site.reference.IsWritten source :=
    Declaration.isWritten_of_mem_allReferences each _ (Lookup.mem_allReferences_of_mem_sites member)
  have whole := written.contents
  cases contents : unit.contents with
  | package generics declarations template =>
    rw [contents] at whole
    obtain ⟨inGenerics, inDeclarations⟩ := List.forall_mem_append.mp whole.1
    cases template with
    | none =>
      simp only [Resolution.lookups, Resolution.sites, contents, List.mem_append] at member
      rcases member with (isGeneric | isDeclared) | isOwn
      · exact inside inGenerics isGeneric
      · exact inside inDeclarations isDeclared
      · exact own isOwn
    | some template =>
      simp only [Resolution.lookups, contents] at member
      exact own member
  | packageBody declarations =>
    rw [contents] at whole
    simp only [Resolution.lookups, Resolution.sites, contents, List.mem_append] at member
    rcases member with isDeclared | isOwn
    · exact inside whole isDeclared
    · exact own isOwn
  | context clause =>
    simp only [Resolution.lookups, contents] at member
    exact absurd member List.not_mem_nil
  | entity | architecture | configuration =>
    simp only [Resolution.lookups, contents] at member
    obtain ⟨reference, present, rfl⟩ := List.mem_map.mp member
    exact written.references reference (List.mem_filter.mp present).1

end DesignUnit.IsWritten

namespace Resolution

variable {reader writer : Entry} {finding : Finding} {checks : Checks}

/-- A clause that is seen is written where its unit is. -/
theorem Sees.isWritten {clause : ContextClause} (sees : Sees library reader writer clause)
    (member : reader ∈ library.entries) :
    writer ∈ library.entries ∧ ∀ source, writer.unit.IsWritten source → clause.IsWritten source := by
  induction sees with
  | own => exact ⟨member, fun _ written => written.context⟩
  | owner completes => exact ⟨mem_of_ownerOf? completes, fun _ written => written.context⟩
  | provided isContext => exact ⟨member, fun _ written => written.of_clause? isContext⟩
  | referred _ _ found isContext =>
    obtain ⟨name, primary⟩ := ContextItem.exists_primary?_of_target? found
    exact ⟨(Library.of_primary? primary).1, fun _ written => written.of_clause? isContext⟩

/-- The construct that a problem is about is written where its unit is. -/
theorem Offence.isWritten {name : Located Identifier} (offence : Offence library reader finding writer name)
    (member : reader ∈ library.entries) :
    writer ∈ library.entries ∧ ∀ source, writer.unit.IsWritten source → Written source name := by
  cases offence with
  | use sees inUses _ =>
    obtain ⟨writer_mem, isClause⟩ := sees.isWritten member
    exact ⟨writer_mem, fun source written => (isClause source written).uses _ inUses⟩
  | context sees inContexts _ =>
    obtain ⟨writer_mem, isClause⟩ := sees.isWritten member
    exact ⟨writer_mem, fun source written => (isClause source written).contexts _ inContexts⟩
  | template isTemplate _ => exact ⟨member, fun _ written => written.of_template? isTemplate⟩
  | name present _ => exact ⟨member, fun _ written => written.of_mem_lookups present⟩
  | constant within _ => exact ⟨member, fun _ written => (within.isWritten written.of_mem_declarations).name⟩

/-- The diagnostic is about a construct of the unit `writer`: it is a problem with the construct, or it says that
a use clause of the unit that is resolved is not used. -/
inductive Concerns (library : Library) (reader : Entry) (diagnostic : Diagnostic) :
    Entry → Located Identifier → Prop
  | offence {finding : Finding} {writer : Entry} {construct : Located Identifier} :
      Offence library reader finding writer construct → diagnostic.severity = finding.severity →
        diagnostic.problem = finding.problem → Concerns library reader diagnostic writer construct
  | unused {clause : UseClause} : clause ∈ reader.unit.context.uses →
      diagnostic.problem = .unusedImport clause.name →
        Concerns library reader diagnostic reader ⟨clause.position, clause.name.first⟩

/-- A diagnostic at a unit has the file of that unit and the position of a construct, whose first token stands
there in the source of the unit that writes the construct. So it points at the construct if that unit is the one
that is resolved, or is in the same file. -/
theorem diagnostic_located (name : Identifier) (directive : String) (sources : List (String × String))
    (checks : Checks) {index : Nat} {diagnostic : Diagnostic}
    (reported : diagnostic ∈ ((Library.ofSources name directive sources).resolve checks).diagnostics index) :
    ∃ reader ∈ (Library.ofSources name directive sources).entries, reader.index = index ∧
      ∃ writer ∈ (Library.ofSources name directive sources).entries, ∃ construct text,
        Concerns (Library.ofSources name directive sources) reader diagnostic writer construct ∧
        diagnostic.file = some ((Library.ofSources name directive sources).fileOf reader.index) ∧
        diagnostic.position = some construct.position ∧
        ((Library.ofSources name directive sources).fileOf writer.index, text) ∈ sources ∧
        writer.unit ∈ (DesignFile.units (Lexer.readUntilFault text).1).1 ∧
        Written (Lexer.readUntilFault text).1 construct := by
  obtain ⟨reader, member, rfl⟩ := exists_entry_of_mem_diagnostics reported
  have read := Library.hasRead_ofSources name directive sources
  obtain ⟨finding, found | ⟨item, isUnused, owned, rfl⟩, rfl⟩ := (mem_diagnostics_iff member).mp reported
  · obtain ⟨writer, construct, offence⟩ := exists_offence found
    obtain ⟨writer_mem, isWritten⟩ := offence.isWritten member
    obtain ⟨text, source, inside⟩ := read.exists_source writer_mem
    refine ⟨reader, member, rfl, writer, writer_mem, construct, text, .offence offence rfl rfl, rfl, ?_, source,
      inside, isWritten _ (DesignFile.isWritten_of_mem_units _ inside)⟩
    exact congrArg some offence.allAt.1
  · obtain ⟨clause, inUses, -, same, -⟩ := exists_clause_of_mem_unused member isUnused owned
    obtain ⟨text, source, inside⟩ := read.exists_source member
    refine ⟨reader, member, rfl, reader, member, ⟨clause.position, clause.name.first⟩, text,
      .unused inUses ?_, rfl, ?_, source, inside,
      (DesignFile.isWritten_of_mem_units _ inside).context.uses clause inUses⟩
    · rw [same]
      rfl
    · rw [same]
      rfl

namespace Sample

/-- A package whose use clause names no unit; the clause stands in the second line. -/
def brokenText : String := "\nuse work.x.y; package p is end;"

def brokenTokens : List PlacedToken :=
  [⟨⟨2, 1⟩, .keyword .use⟩, ⟨⟨2, 5⟩, .identifier (.basic "work")⟩, ⟨⟨2, 9⟩, .delimiter .dot⟩,
    ⟨⟨2, 10⟩, .identifier (.basic "x")⟩, ⟨⟨2, 11⟩, .delimiter .dot⟩, ⟨⟨2, 12⟩, .identifier (.basic "y")⟩,
    ⟨⟨2, 13⟩, .delimiter .semicolon⟩, ⟨⟨2, 15⟩, .keyword .package⟩, ⟨⟨2, 23⟩, .identifier (.basic "p")⟩,
    ⟨⟨2, 25⟩, .keyword .is⟩, ⟨⟨2, 28⟩, .keyword .end⟩, ⟨⟨2, 31⟩, .delimiter .semicolon⟩, ⟨⟨2, 32⟩, .endOfFile⟩]

def brokenUnit : DesignUnit :=
  ⟨.basic "p", ⟨2, 15⟩, ⟨[], [⟨⟨.basic "work", [.basic "x", .basic "y"]⟩, false, ⟨2, 5⟩⟩], []⟩, [],
    .package [] [] none⟩

/-- A body of the package, in one line. -/
def plainText : String := "package body p is end;"

def plainTokens : List PlacedToken :=
  [⟨⟨1, 1⟩, .keyword .package⟩, ⟨⟨1, 9⟩, .keyword .body⟩, ⟨⟨1, 14⟩, .identifier (.basic "p")⟩,
    ⟨⟨1, 16⟩, .keyword .is⟩, ⟨⟨1, 19⟩, .keyword .end⟩, ⟨⟨1, 22⟩, .delimiter .semicolon⟩, ⟨⟨1, 23⟩, .endOfFile⟩]

def plainUnit : DesignUnit := ⟨.basic "p", ⟨1, 1⟩, .empty, [], .packageBody []⟩

def sources : List (String × String) := [("a.vhd", brokenText), ("b.vhd", plainText)]

theorem read_brokenText : Lexer.readUntilFault brokenText = (brokenTokens, none) := by decide +kernel

theorem read_plainText : Lexer.readUntilFault plainText = (plainTokens, none) := by decide +kernel

theorem units_brokenTokens : DesignFile.units brokenTokens = ([brokenUnit], none) := by cbv

theorem units_plainTokens : DesignFile.units plainTokens = ([plainUnit], none) := by cbv

def twoFiles : Library := ⟨.work, ["a.vhd", "b.vhd"], [⟨brokenUnit, 0⟩, ⟨plainUnit, 1⟩], [], []⟩

theorem ofSources_sources : Library.ofSources .work "elab" sources = twoFiles := by
  simp only [sources, Library.ofSources, Library.addSources, Library.addSource, read_brokenText, read_plainText,
    units_brokenTokens, units_plainTokens]
  cbv

/-- The diagnostic at the body: the position of the clause with the file of the body. -/
def misplaced : Diagnostic := .place .error (.notInLibrary (.basic "x") .work) "b.vhd" ⟨2, 5⟩

theorem misplaced_mem : misplaced ∈ ((Library.ofSources .work "elab" sources).resolve .standard).diagnostics 1 := by
  have only : (twoFiles.resolve .standard).diagnostics 1 = [misplaced] := by cbv
  rw [ofSources_sources, only]
  exact List.mem_cons_self

end Sample

/-- The diagnostic at a body for a clause of its package has the position of a token of some source. -/
theorem diagnostic_located_inherited :
    Sample.misplaced ∈ ((Library.ofSources .work "elab" Sample.sources).resolve .standard).diagnostics 1 ∧
      ∃ source ∈ Sample.sources, ∃ token ∈ (Lexer.readUntilFault source.2).1,
        Sample.misplaced.position = some token.position := by
  obtain ⟨-, -, -, writer, -, construct, text, -, -, isPosition, source, -, written⟩ :=
    diagnostic_located .work "elab" Sample.sources .standard Sample.misplaced_mem
  obtain ⟨token, inText, same⟩ := written.exists_position
  exact ⟨Sample.misplaced_mem, (_, text), source, token, inText, isPosition.trans (congrArg some same.symm)⟩

/-- Not every diagnostic has the position of a token of the file that it names: here the file has one line. -/
theorem exists_diagnostic_not_located :
    ¬ ∀ (name : Identifier) (directive : String) (sources : List (String × String)) (checks : Checks) (index : Nat),
      ∀ diagnostic ∈ ((Library.ofSources name directive sources).resolve checks).diagnostics index,
        ∀ file position, diagnostic.file = some file → diagnostic.position = some position →
          ∃ text, (file, text) ∈ sources ∧
            ∃ token ∈ (Lexer.readUntilFault text).1, token.position = position := by
  intro located
  obtain ⟨text, isSource, token, member, isPosition⟩ := located _ _ _ _ _ _ Sample.misplaced_mem "b.vhd" ⟨2, 5⟩ rfl rfl
  obtain rfl : text = Sample.plainText := by simpa [Sample.sources] using isSource
  rw [Sample.read_plainText] at member
  have absent : ∀ token ∈ Sample.plainTokens, token.position ≠ ⟨2, 5⟩ := by decide
  exact absent token member isPosition

end Resolution

end VhdlOrder
