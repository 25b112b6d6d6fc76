import VhdlOrder.Proofs.Design.UnitFaults
import VhdlOrder.Proofs.Library.History

/-! # Where problems are reported

Whatever reading and linking sources reports is said of a place: it has the path of a source that was added and a
position. The fault that ends the units of a source has the position of one of its tokens.
-/

namespace VhdlOrder

/-- The diagnostic has a position in one of the files. -/
def Diagnostic.IsIn (files : List String) (diagnostic : Diagnostic) : Prop :=
  ∃ file position, diagnostic.file = some file ∧ diagnostic.position = some position ∧ file ∈ files

theorem Diagnostic.isIn_place {files : List String} (severity : Severity) (problem : Problem) {file : String}
    (member : file ∈ files) (position : Position) : (place severity problem file position).IsIn files :=
  ⟨file, position, rfl, rfl, member⟩

namespace Library

variable {library : Library}

theorem path_mem_files {source : Nat} (bound : source < library.files.length) :
    library.path source ∈ library.files := by
  simp [path, bound]

/-! ## Sources -/

/-- What is said about a source is said of a place in its file. -/
theorem isIn_of_mem_readingDiagnostics {file text directive : String} {diagnostic : Diagnostic}
    (member : diagnostic ∈ readingDiagnostics file text directive) : diagnostic.IsIn [file] := by
  have here : file ∈ [file] := List.mem_cons_self
  obtain earlier | isSyntax := List.mem_append.mp member
  · obtain isLexical | isPragma := List.mem_append.mp earlier
    · obtain ⟨fault, -, rfl⟩ : ∃ fault, _ ∧ _ = diagnostic := by
        simpa [lexicalDiagnostics] using isLexical
      exact Diagnostic.isIn_place _ _ here _
    · obtain ⟨⟨position, value⟩, -, said⟩ := List.mem_flatMap.mp isPragma
      cases value with
      | error fault =>
        obtain rfl := List.mem_singleton.mp said
        exact Diagnostic.isIn_place _ _ here _
      | ok pragma =>
        simp only [pragmaDiagnostics] at said
        split at said
        · exact absurd said List.not_mem_nil
        · obtain rfl := List.mem_singleton.mp said
          exact Diagnostic.isIn_place _ _ here _
  · obtain ⟨fault, -, rfl⟩ : ∃ fault, _ ∧ _ = diagnostic := by
      simpa [syntaxDiagnostics] using isSyntax
    exact Diagnostic.isIn_place _ _ here _

/-- What reading a source adds to the diagnostics is said of places in its file. -/
theorem isIn_addSource (reported : ∀ diagnostic ∈ library.diagnostics, diagnostic.IsIn library.files)
    (file text directive : String) : ∀ diagnostic ∈ (library.addSource file text directive).2.diagnostics,
      diagnostic.IsIn (library.addSource file text directive).2.files := by
  obtain ⟨kept, pragmas, found, -, duplicates, answer⟩ := library.exists_addSource_eq_grow file text directive
  have wider {files : List String} (part : files ⊆ library.files ++ [file]) {diagnostic : Diagnostic}
      (isIn : diagnostic.IsIn files) : diagnostic.IsIn (library.files ++ [file]) := by
    obtain ⟨path, position, isFile, isPosition, member⟩ := isIn
    exact ⟨path, position, isFile, isPosition, part member⟩
  rw [answer]
  intro diagnostic member
  obtain old | new := List.mem_append.mp member
  · exact wider (List.subset_append_left _ _) (reported diagnostic old)
  obtain isReading | isDuplicate := List.mem_append.mp new
  · exact wider (List.subset_append_right _ _) (isIn_of_mem_readingDiagnostics isReading)
  · obtain ⟨unit, -, name, place, rfl⟩ := duplicates diagnostic isDuplicate
    exact wider (List.subset_append_right library.files [file]) (Diagnostic.isIn_place _ _ List.mem_cons_self _)

/-- What linking reports is said of the units, which stand in the sources. -/
theorem isIn_link (wellFormed : library.WellFormed)
    (reported : ∀ diagnostic ∈ library.diagnostics, diagnostic.IsIn library.files) :
    ∀ diagnostic ∈ library.link.diagnostics, diagnostic.IsIn library.link.files := by
  refine List.forall_mem_append.mpr ⟨reported, fun diagnostic member => ?_⟩
  obtain ⟨item, present, said⟩ := List.mem_filterMap.mp member
  obtain ⟨problem, -, rfl⟩ := Option.map_eq_some_iff.mp said
  exact Diagnostic.isIn_place _ _ (path_mem_files (wellFormed.sources item present)) _

theorem isIn_run (name : Identifier) (steps : List Step) :
    ∀ diagnostic ∈ (run name steps).diagnostics, diagnostic.IsIn (run name steps).files := by
  have both := run_induction
    (fun library => library.WellFormed ∧ ∀ diagnostic ∈ library.diagnostics, diagnostic.IsIn library.files)
    ⟨wellFormed_empty name, List.forall_mem_nil _⟩
    (fun library file text directive ⟨wellFormed, reported⟩ =>
      ⟨wellFormed.addSource file text directive, isIn_addSource reported file text directive⟩)
    (fun library ⟨wellFormed, reported⟩ =>
      ⟨⟨wellFormed.unambiguous, wellFormed.lexed, wellFormed.sources, wellFormed.ordered⟩,
        isIn_link wellFormed reported⟩)
    steps
  exact both.2

/-- The files of a library are the paths of the sources that were added. -/
theorem exists_add_of_mem_files {name : Identifier} {steps : List Step} {file : String}
    (member : file ∈ (run name steps).files) : ∃ text directive, .add file text directive ∈ steps := by
  induction steps using List.reverseRecOn with
  | nil => cases member
  | append_singleton steps last ih =>
    have stepped : run name (steps ++ [last]) = (run name steps).step last := List.foldl_append
    rw [stepped] at member
    have earlier (inside : file ∈ (run name steps).files) :
        ∃ text directive, Step.add file text directive ∈ steps ++ [last] := by
      obtain ⟨text, directive, added⟩ := ih inside
      exact ⟨text, directive, List.mem_append_left _ added⟩
    cases last with
    | link => exact earlier member
    | add path text directive =>
      rw [step, files_addSource] at member
      obtain old | new := List.mem_append.mp member
      · exact earlier old
      · obtain rfl := List.mem_singleton.mp new
        exact ⟨text, directive, List.mem_append_right _ List.mem_cons_self⟩

/-- Every problem is located. The fault that ends the units of a text has the position of a token that is no comment,
and that of the end-of-file marker, which is the last token, if the text ends too early; every diagnostic of a library
has a position and the path of a source that was added. -/
theorem problems_located :
    (∀ (text : String) (fault : SyntaxFault), (DesignFile.units (Lexer.readUntilFault text).1).2 = some fault →
      (∃ token ∈ withoutComments (Lexer.readUntilFault text).1, fault.position = token.position) ∧
        (fault.isUnexpectedEnd = true → ∃ marker, (Lexer.readUntilFault text).1.getLast? = some marker ∧
          marker.value = .endOfFile ∧ fault.position = marker.position)) ∧
      ∀ (name : Identifier) (steps : List Step), ∀ diagnostic ∈ (run name steps).diagnostics,
        ∃ file position, diagnostic.file = some file ∧ diagnostic.position = some position ∧
          ∃ text directive, .add file text directive ∈ steps := by
  constructor
  · intro text fault found
    obtain ⟨front, marker, same, isEnd, plain⟩ := Lexer.exists_marker_readUntilFault text
    have isLast : (Lexer.readUntilFault text).1.getLast? = some marker := by rw [same, List.getLast?_concat]
    have markerKept : marker ∈ withoutComments (Lexer.readUntilFault text).1 := by
      simp [withoutComments, same, isEnd, Token.isComment]
    have placed : fault.Placed marker.position (withoutComments (Lexer.readUntilFault text).1) := by
      rw [same] at found ⊢
      exact DesignFile.placed_units plain isEnd found
    cases placed with
    | atEnd wanted => exact ⟨⟨marker, markerKept, rfl⟩, fun _ => ⟨marker, isLast, isEnd, rfl⟩⟩
    | @atToken token _ member same other =>
      exact ⟨⟨token, member, same.symm⟩, fun ended => absurd (other.symm.trans ended) Bool.false_ne_true⟩
  · intro name steps diagnostic member
    obtain ⟨file, position, isFile, isPosition, inside⟩ := isIn_run name steps diagnostic member
    exact ⟨file, position, isFile, isPosition, exists_add_of_mem_files inside⟩

/-- An entity that ends behind its name, with a comment behind it, and the library that it is read into. -/
theorem problems_located_unfinished :
    (DesignFile.units (Lexer.readUntilFault "entity e --").1).2 = some (.unexpectedEnd ⟨1, 12⟩ (.keyword .is)) ∧
      (∃ marker, (Lexer.readUntilFault "entity e --").1.getLast? = some marker ∧ marker.value = .endOfFile ∧
        ⟨1, 12⟩ = marker.position) ∧
      (run .work [.add "e.vhd" "entity e --" "elab", .link]).diagnostics =
        [.place .error (.grammar (.unexpectedEnd ⟨1, 12⟩ (.keyword .is))) "e.vhd" ⟨1, 12⟩] ∧
      ∃ text directive, Step.add "e.vhd" text directive ∈ [Step.add "e.vhd" "entity e --" "elab", .link] := by
  have found : (DesignFile.units (Lexer.readUntilFault "entity e --").1).2 =
      some (.unexpectedEnd ⟨1, 12⟩ (.keyword .is)) := by decide +kernel
  have reported : (run .work [.add "e.vhd" "entity e --" "elab", .link]).diagnostics =
      [.place .error (.grammar (.unexpectedEnd ⟨1, 12⟩ (.keyword .is))) "e.vhd" ⟨1, 12⟩] := by decide +kernel
  refine ⟨found, (problems_located.1 _ _ found).2 rfl, reported, ?_⟩
  obtain ⟨file, position, isFile, -, added⟩ :=
    problems_located.2 .work [.add "e.vhd" "entity e --" "elab", .link] _ (reported ▸ List.mem_cons_self)
  cases isFile
  exact added

end Library

end VhdlOrder
