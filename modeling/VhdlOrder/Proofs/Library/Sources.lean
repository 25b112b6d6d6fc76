import VhdlOrder.Library.Source
import VhdlOrder.Proofs.Design.Truncation
import VhdlOrder.Proofs.Library.Entries

/-! # What reading a source adds to a library

Reading a source adds its path, the units of it whose names are not taken, and diagnostics: of the lexical
fault, of the pragmas, of the fault of the grammar and of the units that are dropped, in this order. Nothing
that the library holds already is changed.
-/

namespace VhdlOrder

/-- Whether the problem is that a text does not follow the rules of tokens or of the grammar. -/
def Problem.isReadingFault : Problem → Bool
  | .lexical _ | .grammar _ => true
  | _ => false

/-- Whether the problem is about a comment that looks like a pragma. -/
def Problem.isAboutPragma : Problem → Bool
  | .pragma _ | .unknownPragma _ => true
  | _ => false

namespace Library

/-- What is put behind the units, pragmas and diagnostics of a library. -/
structure Growth where
  units : List LibraryUnit
  pragmas : List LibraryPragma
  diagnostics : List Diagnostic

/-- The library with more behind what it holds. -/
def grow (library : Library) (growth : Growth) : Library :=
  { library with
    units := library.units ++ growth.units
    pragmas := library.pragmas ++ growth.pragmas
    diagnostics := library.diagnostics ++ growth.diagnostics }

/-- The library with one more source, of which nothing is read yet. -/
def addFile (library : Library) (file : String) : Library := { library with files := library.files ++ [file] }

variable (library : Library) (source : Nat)

@[simp] theorem path_grow (growth : Growth) : (library.grow growth).path source = library.path source := rfl

@[simp] theorem path_addFile (file : String) : (library.addFile file).path library.files.length = file := by
  simp [path, addFile]

theorem grow_grow (first second : Growth) :
    (library.grow first).grow second =
      library.grow ⟨first.units ++ second.units, first.pragmas ++ second.pragmas,
        first.diagnostics ++ second.diagnostics⟩ := by
  simp [grow]

theorem grow_nothing : library.grow ⟨[], [], []⟩ = library := by simp [grow]

theorem report_eq_grow (diagnostic : Diagnostic) : library.report diagnostic = library.grow ⟨[], [], [diagnostic]⟩ := by
  simp [grow, report]

/-! ## Steps of reading -/

/-- What is said about a lexical fault. -/
def lexicalDiagnostics (file : String) (fault : Option (Located LexicalFault)) : List Diagnostic :=
  (fault.map fun fault => .place .error (.lexical fault.value) file fault.position).toList

/-- What is said about a fault of the grammar; `cutShort` is as in `addSyntaxFault`. -/
def syntaxDiagnostics (file : String) (cutShort : Bool) (fault : Option SyntaxFault) : List Diagnostic :=
  ((fault.filter fun fault => !(cutShort && fault.isUnexpectedEnd)).map fun fault =>
    .place .error (.grammar fault) file fault.position).toList

/-- What is said about a pragma. -/
def pragmaDiagnostics (file : String) (item : Located (Except PragmaFault Pragma)) : List Diagnostic :=
  match item.value with
  | .ok pragma =>
      if pragma.target.isSome then []
      else [.place .warning (.unknownPragma pragma.directive) file pragma.position]
  | .error fault => [.place .error (.pragma fault) file item.position]

theorem addLexicalFault_eq_grow (fault : Option (Located LexicalFault)) :
    library.addLexicalFault source fault =
      library.grow ⟨[], [], lexicalDiagnostics (library.path source) fault⟩ := by
  cases fault with
  | none => exact (grow_nothing library).symm
  | some fault => exact report_eq_grow library _

theorem addSyntaxFault_eq_grow (cutShort : Bool) (fault : Option SyntaxFault) :
    library.addSyntaxFault source cutShort fault =
      library.grow ⟨[], [], syntaxDiagnostics (library.path source) cutShort fault⟩ := by
  cases fault with
  | none => exact (grow_nothing library).symm
  | some fault =>
    simp only [addSyntaxFault, syntaxDiagnostics, Option.filter_some]
    cases cutShort && fault.isUnexpectedEnd with
    | true => exact (grow_nothing library).symm
    | false => exact report_eq_grow library _

/-- The pragma, if it has a target. -/
def targeted? (item : Located (Except PragmaFault Pragma)) : Option LibraryPragma :=
  match item.value with
  | .ok pragma => if pragma.target.isSome then some ⟨pragma, source⟩ else none
  | .error _ => none

theorem addPragma_eq_grow (item : Located (Except PragmaFault Pragma)) :
    library.addPragma source item =
      library.grow ⟨[], (targeted? source item).toList, pragmaDiagnostics (library.path source) item⟩ := by
  obtain ⟨position, value⟩ := item
  cases value with
  | error fault => exact report_eq_grow library _
  | ok pragma =>
    cases target : pragma.target with
    | none =>
      simp only [addPragma, targeted?, pragmaDiagnostics, target]
      exact report_eq_grow library _
    | some name => simp [addPragma, targeted?, pragmaDiagnostics, grow, target]

theorem addPragmas_eq_grow (items : List (Located (Except PragmaFault Pragma))) :
    items.foldl (fun library => library.addPragma source) library =
      library.grow ⟨[], items.filterMap (targeted? source),
        items.flatMap (pragmaDiagnostics (library.path source))⟩ := by
  induction items generalizing library with
  | nil => exact (grow_nothing library).symm
  | cons item rest ih =>
    rw [List.foldl_cons, ih, addPragma_eq_grow, grow_grow, path_grow, List.flatMap_cons, List.append_nil]
    cases found : targeted? source item <;> simp [found]

/-- What is said about a source apart from its units: about its lexical fault, its pragmas and the fault of its
grammar. -/
def readingDiagnostics (file text directive : String) : List Diagnostic :=
  lexicalDiagnostics file (Lexer.readUntilFault text).2
    ++ (Pragma.scan (Lexer.readUntilFault text).1 directive).flatMap (pragmaDiagnostics file)
    ++ syntaxDiagnostics file (Lexer.readUntilFault text).2.isSome (DesignFile.units (Lexer.readUntilFault text).1).2

/-- The library after a source is read and before its units are added. -/
def opened (file text directive : String) : Library :=
  (library.addFile file).grow ⟨[], (Pragma.scan (Lexer.readUntilFault text).1 directive).filterMap
    (targeted? library.files.length), readingDiagnostics file text directive⟩

/-- A source is read before its units are added. -/
theorem addSource_eq_addUnits (file text directive : String) :
    library.addSource file text directive = (library.opened file text directive).addUnits library.files.length
      (DesignFile.units (Lexer.readUntilFault text).1).1 := by
  unfold addSource opened readingDiagnostics
  rcases Lexer.readUntilFault text with ⟨tokens, lexical⟩
  dsimp only
  rcases DesignFile.units tokens with ⟨units, fault⟩
  change (addSyntaxFault (List.foldl _ (addLexicalFault (library.addFile file) _ _) _) _ _ _).addUnits _ _ = _
  simp only [addLexicalFault_eq_grow, addPragmas_eq_grow, addSyntaxFault_eq_grow, path_grow, path_addFile, grow_grow,
    List.append_nil, List.nil_append]

/-- The diagnostic says that a unit among `units`, which are in the file `file`, is dropped. -/
def IsDuplicate (file : String) (units : List DesignUnit) (diagnostic : Diagnostic) : Prop :=
  ∃ unit ∈ units, ∃ name place,
    diagnostic = .place .error (.duplicateUnit unit.kind name place) file unit.position

/-- A unit is added, or it is dropped and a diagnostic says so. -/
theorem exists_addUnit_eq_grow (unit : DesignUnit) :
    ∃ (kept : List DesignUnit) (found : List Diagnostic), kept.Sublist [unit] ∧
      (∀ diagnostic ∈ found, IsDuplicate (library.path source) [unit] diagnostic) ∧
      (library.addUnit source unit).2 = library.grow ⟨kept.map (LibraryUnit.mk · source), [], found⟩ := by
  cases taken : library.holder? unit with
  | none => exact ⟨[unit], [], .refl _, by simp, by simp [addUnit, taken, grow]⟩
  | some first =>
    have said : IsDuplicate (library.path source) [unit] (.place .error
        (.duplicateUnit unit.kind (duplicateName unit) (library.locate first.index)) (library.path source)
        unit.position) := ⟨unit, List.mem_cons_self, _, _, rfl⟩
    exact ⟨[], [_], List.nil_sublist _, by simpa using said, by simp [addUnit, taken, report_eq_grow]⟩

/-- Of several units those are added whose names are not taken. -/
theorem exists_addUnits_eq_grow (units : List DesignUnit) :
    ∃ (kept : List DesignUnit) (found : List Diagnostic), kept.Sublist units ∧
      (∀ diagnostic ∈ found, IsDuplicate (library.path source) units diagnostic) ∧
      (library.addUnits source units).2 = library.grow ⟨kept.map (LibraryUnit.mk · source), [], found⟩ := by
  induction units generalizing library with
  | nil => exact ⟨[], [], .slnil, by simp, (grow_nothing library).symm⟩
  | cons unit rest ih =>
    obtain ⟨first, said, sublist, duplicate, here⟩ := library.exists_addUnit_eq_grow source unit
    obtain ⟨kept, found, sublist', duplicates, behind⟩ := ih (library.addUnit source unit).2
    refine ⟨first ++ kept, said ++ found, sublist.append sublist', fun diagnostic member => ?_, ?_⟩
    · rcases List.mem_append.mp member with isFirst | isLater
      · obtain ⟨other, among, same⟩ := duplicate diagnostic isFirst
        exact ⟨other, List.mem_append_left rest among, same⟩
      · rw [here, path_grow] at duplicates
        obtain ⟨other, among, same⟩ := duplicates diagnostic isLater
        exact ⟨other, List.mem_cons_of_mem unit among, same⟩
    · simp only [addUnits]
      rw [behind, here, grow_grow, List.map_append, List.append_nil]

/-! ## Sources -/

/-- What a source adds: `kept` are the units of it whose names are not taken, and `found` says so of the
other ones. -/
theorem exists_addSource_eq_grow (file text directive : String) :
    ∃ (kept : List DesignUnit) (pragmas : List LibraryPragma) (found : List Diagnostic),
      kept.Sublist (DesignFile.units (Lexer.readUntilFault text).1).1 ∧
      (∀ diagnostic ∈ found, IsDuplicate file (DesignFile.units (Lexer.readUntilFault text).1).1 diagnostic) ∧
      (library.addSource file text directive).2 = (library.addFile file).grow
        ⟨kept.map (LibraryUnit.mk · library.files.length), pragmas,
          lexicalDiagnostics file (Lexer.readUntilFault text).2
            ++ (Pragma.scan (Lexer.readUntilFault text).1 directive).flatMap (pragmaDiagnostics file)
            ++ syntaxDiagnostics file (Lexer.readUntilFault text).2.isSome
                (DesignFile.units (Lexer.readUntilFault text).1).2
            ++ found⟩ := by
  obtain ⟨kept, found, sublist, duplicates, added⟩ :=
    (library.opened file text directive).exists_addUnits_eq_grow library.files.length _
  have path : (library.opened file text directive).path library.files.length = file := path_addFile library file
  rw [path] at duplicates
  refine ⟨kept, (Pragma.scan (Lexer.readUntilFault text).1 directive).filterMap (targeted? library.files.length),
    found, sublist, duplicates, ?_⟩
  rw [addSource_eq_addUnits, added, opened, grow_grow, List.append_nil, List.nil_append]
  rfl

/-- The library has read the sources: its files are their paths, and each of its units stands in the source with
its number. -/
structure HasRead (sources : List (String × String)) : Prop where
  files : library.files = sources.map Prod.fst
  units : ∀ item ∈ library.units, ∃ file text, sources[item.source]? = some (file, text) ∧
    item.unit ∈ (DesignFile.units (Lexer.readUntilFault text).1).1

variable {library}

theorem HasRead.addSource {sources : List (String × String)} (read : library.HasRead sources)
    (file text directive : String) : (library.addSource file text directive).2.HasRead (sources ++ [(file, text)]) := by
  obtain ⟨kept, pragmas, found, sublist, -, same⟩ := library.exists_addSource_eq_grow file text directive
  have count : library.files.length = sources.length := by rw [read.files, List.length_map]
  rw [same]
  constructor
  · simp [grow, addFile, read.files]
  · intro item member
    rcases List.mem_append.mp member with earlier | added
    · obtain ⟨path, old, found, inside⟩ := read.units item earlier
      have bound : item.source < sources.length := (List.getElem?_eq_some_iff.mp found).1
      exact ⟨path, old, by rw [List.getElem?_append_left bound, found], inside⟩
    · obtain ⟨unit, isKept, rfl⟩ := List.mem_map.mp added
      exact ⟨file, text, by simp [count], sublist.subset isKept⟩

theorem HasRead.addSources {sources : List (String × String)} (read : library.HasRead sources) (directive : String)
    (more : List (String × String)) : (library.addSources directive more).HasRead (sources ++ more) := by
  induction more generalizing library sources with
  | nil => rwa [List.append_nil]
  | cons source rest ih =>
    have later := ih (read.addSource source.1 source.2 directive)
    rwa [List.append_assoc] at later

/-- The linked library of some sources has read them. -/
theorem hasRead_ofSources (name : Identifier) (directive : String) (sources : List (String × String)) :
    (ofSources name directive sources).HasRead sources := by
  have start : (empty name).HasRead [] := ⟨rfl, List.forall_mem_nil _⟩
  have read := start.addSources directive sources
  exact ⟨read.files, read.units⟩

theorem name_addSources (directive : String) (sources : List (String × String)) :
    (library.addSources directive sources).name = library.name := by
  induction sources generalizing library with
  | nil => rfl
  | cons source rest ih =>
    obtain ⟨kept, pragmas, found, -, -, same⟩ := library.exists_addSource_eq_grow source.1 source.2 directive
    have name : (library.addSource source.1 source.2 directive).2.name = library.name := by rw [same]; rfl
    rw [Library.addSources, ih, name]

theorem name_ofSources (name : Identifier) (directive : String) (sources : List (String × String)) :
    (ofSources name directive sources).name = name :=
  name_addSources directive sources

/-- Every unit is read from a source whose path is that of its file. -/
theorem HasRead.exists_source {sources : List (String × String)} (read : library.HasRead sources) {entry : Entry}
    (member : entry ∈ library.entries) :
    ∃ text, (library.fileOf entry.index, text) ∈ sources ∧
      entry.unit ∈ (DesignFile.units (Lexer.readUntilFault text).1).1 := by
  obtain ⟨item, found, same⟩ := Option.map_eq_some_iff.mp (mem_entries_iff.mp member)
  obtain ⟨file, text, source, inside⟩ := read.units item (List.mem_of_getElem? found)
  refine ⟨text, ?_, same ▸ inside⟩
  have isFile : library.fileOf entry.index = file := by simp [fileOf, found, path, read.files, source]
  rw [isFile]
  exact List.mem_of_getElem? source

variable (library)

/-! ## Sources that are cut short -/

theorem problem_of_mem_pragmaDiagnostics {file : String} {items : List (Located (Except PragmaFault Pragma))}
    {diagnostic : Diagnostic} (member : diagnostic ∈ items.flatMap (pragmaDiagnostics file)) :
    diagnostic.problem.isReadingFault = false := by
  obtain ⟨⟨position, value⟩, -, said⟩ := List.mem_flatMap.mp member
  cases value with
  | error fault =>
    obtain rfl := List.mem_singleton.mp said
    rfl
  | ok pragma =>
    simp only [pragmaDiagnostics] at said
    split at said
    · exact absurd said List.not_mem_nil
    · obtain rfl := List.mem_singleton.mp said
      rfl

/-- Only comments are pragmas. -/
theorem scan_eq_nil {tokens : List PlacedToken} (noComments : ∀ token ∈ tokens, token.value.isComment = false)
    (directive : String) : Pragma.scan tokens directive = [] := by
  apply List.filterMap_eq_nil_iff.mpr
  intro token member
  have noComment := noComments token member
  revert noComment
  cases token.value <;> simp [Token.isComment]

/-- Where a lexical fault ends the tokens of a text, the end-of-file marker stands at the fault. -/
theorem exists_untilFault_eq {items : List Lexer.Item} {read : List PlacedToken} {fault : Located LexicalFault}
    (stopped : Lexer.untilFault items = (read, some fault)) :
    ∃ earlier, read = earlier ++ [⟨fault.position, .endOfFile⟩] := by
  induction items generalizing read with
  | nil => cases stopped
  | cons item rest ih =>
    obtain ⟨position, value⟩ := item
    cases value with
    | error other =>
      cases stopped
      exact ⟨[], rfl⟩
    | ok token =>
      rcases inner : Lexer.untilFault rest with ⟨tokens, found⟩
      simp only [Lexer.untilFault, inner, Prod.mk.injEq] at stopped
      obtain ⟨rfl, rfl⟩ := stopped
      obtain ⟨earlier, rfl⟩ := ih inner
      exact ⟨⟨position, token⟩ :: earlier, rfl⟩

/-- Tokens that a file without faults may go on from have no fault but their end. So a source that a lexical
fault cuts short behind such tokens is reported once, for the lexical fault. -/
theorem cut_short_reported_once {tokens more : List PlacedToken}
    (plain : ∀ token ∈ tokens, token.value ≠ .endOfFile)
    (clean : (DesignFile.units (tokens ++ more)).2 = none) :
    (∀ marker : PlacedToken, marker.value = .endOfFile →
      DesignFile.CutShort marker.position (DesignFile.units (tokens ++ [marker]))
        (DesignFile.units (tokens ++ more))) ∧
    ∀ (library : Library) (file text directive : String) (read : List PlacedToken) (fault : Located LexicalFault),
      Lexer.readUntilFault text = (read, some fault) → read.dropLast = tokens →
        ∃ added, (library.addSource file text directive).2.diagnostics = library.diagnostics ++ added ∧
          (added.filter fun diagnostic => diagnostic.problem.isReadingFault) =
            [.place .error (.lexical fault.value) file fault.position] ∧
          ((∀ token ∈ tokens, token.value.isComment = false) →
            ∀ diagnostic ∈ added, diagnostic.problem.isAboutPragma = false) := by
  refine ⟨fun marker isEnd => DesignFile.cutShort_units plain isEnd clean, ?_⟩
  intro library file text directive read fault stopped earlier
  obtain ⟨front, rfl⟩ := exists_untilFault_eq stopped
  obtain rfl : front = tokens := by simpa using earlier
  -- the end of the file is no fault where the lexical fault is one
  have noSyntax : syntaxDiagnostics file true
      (DesignFile.units (front ++ [⟨fault.position, .endOfFile⟩])).2 = [] := by
    have isEnd : (⟨fault.position, .endOfFile⟩ : PlacedToken).value = .endOfFile := rfl
    have short := DesignFile.cutShort_units plain isEnd clean
    rcases short.fault with none | ⟨wanted, ended⟩
    · rw [none]
      rfl
    · rw [ended]
      rfl
  obtain ⟨kept, pragmas, found, -, duplicates, added⟩ := library.exists_addSource_eq_grow file text directive
  rw [stopped] at added duplicates
  simp only [Option.isSome_some, noSyntax, List.append_nil] at added
  have dropped (diagnostic : Diagnostic) (member : diagnostic ∈ found) :
      diagnostic.problem.isReadingFault = false ∧ diagnostic.problem.isAboutPragma = false := by
    obtain ⟨unit, -, name, place, rfl⟩ := duplicates diagnostic member
    exact ⟨rfl, rfl⟩
  refine ⟨_, congrArg Library.diagnostics added, ?_, fun noComments diagnostic member => ?_⟩
  · have nothing : (((Pragma.scan (front ++ [⟨fault.position, .endOfFile⟩]) directive).flatMap
        (pragmaDiagnostics file)) ++ found).filter (fun diagnostic => diagnostic.problem.isReadingFault) = [] := by
      apply List.filter_eq_nil_iff.mpr
      intro diagnostic member
      rcases List.mem_append.mp member with isPragma | isDropped
      · simp [problem_of_mem_pragmaDiagnostics isPragma]
      · simp [(dropped diagnostic isDropped).1]
    rw [List.append_assoc, List.filter_append, nothing]
    rfl
  · have noMarker : ∀ token ∈ front ++ [⟨fault.position, .endOfFile⟩], token.value.isComment = false := by
      intro token present
      rcases List.mem_append.mp present with isEarlier | isMarker
      · exact noComments token isEarlier
      · obtain rfl := List.mem_singleton.mp isMarker
        rfl
    rw [scan_eq_nil noMarker] at member
    rcases List.mem_append.mp member with isLexical | isDropped
    · obtain rfl : diagnostic = .place .error (.lexical fault.value) file fault.position := by
        simpa [lexicalDiagnostics] using isLexical
      rfl
    · exact (dropped diagnostic isDropped).2

/-- The tokens of `entity e is end`, where an entity may end. -/
def Sample.cutEntity : List PlacedToken :=
  [⟨⟨1, 1⟩, .keyword .entity⟩, ⟨⟨1, 8⟩, .identifier (.basic "e")⟩, ⟨⟨1, 10⟩, .keyword .is⟩,
    ⟨⟨1, 13⟩, .keyword .end⟩]

/-- An entity that is cut off behind its `end` by a string that is not closed. -/
theorem cut_short_reported_once_string :
    (∀ token ∈ Sample.cutEntity, token.value ≠ .endOfFile) ∧
      (DesignFile.units (Sample.cutEntity ++ [⟨⟨1, 16⟩, .delimiter .semicolon⟩])).2 = none ∧
      (DesignFile.units (Sample.cutEntity ++ [⟨⟨1, 17⟩, .endOfFile⟩])).2 =
        some (.unexpectedEnd ⟨1, 17⟩ (.delimiter .semicolon)) ∧
      ∃ added, ((empty .work).addSource "e.vhd" "entity e is end \x22" "elab").2.diagnostics = added ∧
        (added.filter fun diagnostic => diagnostic.problem.isReadingFault) =
          [.place .error (.lexical .literalUnclosed) "e.vhd" ⟨1, 17⟩] := by
  have plain : ∀ token ∈ Sample.cutEntity, token.value ≠ .endOfFile := by decide
  have clean : (DesignFile.units (Sample.cutEntity ++ [⟨⟨1, 16⟩, .delimiter .semicolon⟩])).2 = none := by
    decide +kernel
  have stopped : Lexer.readUntilFault "entity e is end \x22" =
      (Sample.cutEntity ++ [⟨⟨1, 17⟩, .endOfFile⟩], some ⟨⟨1, 17⟩, .literalUnclosed⟩) := by decide +kernel
  obtain ⟨-, once⟩ := cut_short_reported_once plain clean
  obtain ⟨added, all, lexical, -⟩ := once (empty .work) "e.vhd" _ "elab" _ _ stopped rfl
  exact ⟨plain, clean, by decide +kernel, added, all, lexical⟩

end Library

end VhdlOrder
