import VhdlOrder.CommandLine.Execution
import VhdlOrder.Proofs.Elaboration.Dependents

/-! # What a check finds

A check collects the problems of the sources, the problems with names, the pragmas without a plan, and a cycle. A
pragma report shows a part of them again: the reason why there is no plan, or the diagnostics at the units of the
plan. Every diagnostic that a report or a plan can show is among those collected, so a check fails as soon as one of
them is an error, and it succeeds only if there is nothing wrong anywhere.
-/

namespace VhdlOrder

/-- None of the diagnostics is an error. -/
def Diagnostic.NoErrors (diagnostics : List Diagnostic) : Prop := ∀ diagnostic ∈ diagnostics, diagnostic.isError = false

theorem Diagnostic.countErrors_eq_zero_iff {diagnostics : List Diagnostic} :
    countErrors diagnostics = 0 ↔ NoErrors diagnostics := by
  simp only [countErrors, List.countP_eq_zero, Bool.not_eq_true, NoErrors]

theorem Diagnostic.noErrors_append_iff {first second : List Diagnostic} :
    NoErrors (first ++ second) ↔ NoErrors first ∧ NoErrors second :=
  List.forall_mem_append

/-! ## Pragma reports -/

namespace Elaboration

variable {elaboration : Elaboration} {item : LibraryPragma} {report : PragmaReport}

/-- The report on a pragma: it has the plan for its target with the diagnostics at the units of the plan, or the
reason why there is no plan. -/
inductive Reports (elaboration : Elaboration) (item : LibraryPragma) : PragmaReport → Prop
  | planned {target : SelectedName} {order : List Nat} : item.pragma.target = some target →
      elaboration.planFor target = .ok order →
        Reports elaboration item ⟨target, elaboration.library.path item.source, item.pragma.position, none,
          elaboration.steps order, elaboration.diagnosticsOf order⟩
  | failed {target : SelectedName} {fault : OrderFault} : item.pragma.target = some target →
      elaboration.planFor target = .error fault →
        Reports elaboration item ⟨target, elaboration.library.path item.source, item.pragma.position,
          some (.place .error (.order fault) (elaboration.library.path item.source) item.pragma.position), [], []⟩

theorem runPragma_eq_some_iff : elaboration.runPragma item = some report ↔ elaboration.Reports item report := by
  unfold runPragma
  constructor
  · intro ran
    obtain ⟨target, isTarget, rfl⟩ := Option.map_eq_some_iff.mp ran
    dsimp only
    split
    · rename_i order planned
      exact .planned isTarget planned
    · rename_i fault failed
      exact .failed isTarget failed
  · intro reports
    cases reports with
    | planned isTarget planned => simp only [isTarget, Option.map_some, planned]
    | failed isTarget failed => simp only [isTarget, Option.map_some, failed]

theorem mem_runPragmas_iff :
    report ∈ elaboration.runPragmas ↔ ∃ item ∈ elaboration.library.pragmas, elaboration.Reports item report := by
  simp only [runPragmas, List.mem_filterMap, runPragma_eq_some_iff]

/-- A target can be planned if it is found and there is a plan for it. -/
theorem exists_planFor_iff {target : SelectedName} :
    (∃ order, elaboration.planFor target = .ok order) ↔
      ∃ entry, elaboration.library.find? target = some entry ∧ ∃ order, elaboration.plan entry.index = .ok order := by
  unfold planFor find
  cases elaboration.library.find? target with
  | none => simp
  | some entry => simp

/-- No pragma fails exactly if the targets of all of them can be planned. -/
theorem failure_eq_none_iff :
    (∀ report ∈ elaboration.runPragmas, report.failure = none) ↔
      ∀ item ∈ elaboration.library.pragmas, ∀ target ∈ item.pragma.target,
        ∃ order, elaboration.planFor target = .ok order := by
  constructor
  · intro none item member target isTarget
    cases found : elaboration.planFor target with
    | ok order => exact ⟨order, rfl⟩
    | error fault => cases none _ (mem_runPragmas_iff.mpr ⟨item, member, .failed isTarget found⟩)
  · intro planned report member
    obtain ⟨item, inLibrary, reports⟩ := mem_runPragmas_iff.mp member
    cases reports with
    | planned isTarget found => rfl
    | failed isTarget failed =>
      obtain ⟨order, found⟩ := planned item inLibrary _ isTarget
      rw [failed] at found
      cases found

/-- The reason why there is no plan is an error. -/
theorem isError_of_failure (member : report ∈ elaboration.runPragmas) {diagnostic : Diagnostic}
    (failed : report.failure = some diagnostic) : diagnostic.isError = true := by
  obtain ⟨item, -, reports⟩ := mem_runPragmas_iff.mp member
  cases reports with
  | planned isTarget planned => cases failed
  | failed isTarget isFault =>
    cases failed
    rfl

theorem noErrors_failures_iff (elaboration : Elaboration) :
    Diagnostic.NoErrors (elaboration.runPragmas.filterMap PragmaReport.failure) ↔
      ∀ report ∈ elaboration.runPragmas, report.failure = none := by
  constructor
  · intro none report member
    cases failed : report.failure with
    | none => rfl
    | some diagnostic =>
      have harmless := none diagnostic (List.mem_filterMap.mpr ⟨report, member, failed⟩)
      rw [isError_of_failure member failed] at harmless
      cases harmless
  · intro none diagnostic member
    obtain ⟨report, present, failed⟩ := List.mem_filterMap.mp member
    rw [none report present] at failed
    cases failed

end Elaboration

/-- A diagnostic at one unit is among those at all units. -/
theorem Resolution.mem_allDiagnostics {resolution : Resolution} {unit : Nat} {diagnostic : Diagnostic}
    (member : diagnostic ∈ resolution.diagnostics unit) : diagnostic ∈ resolution.allDiagnostics := by
  unfold diagnostics at member
  cases found : resolution.units[unit]? with
  | none =>
    rw [found] at member
    exact absurd member List.not_mem_nil
  | some part =>
    rw [found] at member
    exact List.mem_flatMap.mpr ⟨part, List.mem_of_getElem? found, member⟩

/-! ## Runs that print -/

namespace Run

variable {α : Type} {run next last : Run Unit}

/-- The run prints something or nothing and then goes on as `last`. -/
def PrintsThen (run last : Run Unit) : Prop := ∀ output, ∃ printed, run output = last printed

theorem bind_of_ok {run : Run α} {next : α → Run Unit} {value : α} {output more : Output}
    (ran : run output = .ok value more) : (run >>= next) output = next value more := by
  simp only [bind, EStateM.bind, ran]

theorem PrintsThen.refl (run : Run Unit) : run.PrintsThen run := fun output => ⟨output, rfl⟩

theorem PrintsThen.bind (first : run.PrintsThen (pure ())) (second : next.PrintsThen last) :
    PrintsThen (run >>= fun _ => next) last := by
  intro output
  obtain ⟨middle, ran⟩ := first output
  obtain ⟨printed, ended⟩ := second middle
  exact ⟨printed, (bind_of_ok ran).trans ended⟩

theorem prints_line (text : String) : (line text).PrintsThen (pure ()) := fun _ => ⟨_, rfl⟩

theorem prints_message (text : String) : (message text).PrintsThen (pure ()) := fun _ => ⟨_, rfl⟩

theorem prints_lines (texts : List String) : (lines texts).PrintsThen (pure ()) := by
  induction texts with
  | nil => exact .refl _
  | cons text rest ih => exact (prints_line text).bind ih

theorem prints_report (colored : Bool) (diagnostics : List Diagnostic) :
    (report colored diagnostics).PrintsThen (pure ()) := by
  induction diagnostics with
  | nil => exact .refl _
  | cons diagnostic rest ih => exact (prints_message _).bind ih

end Run

namespace Setup

variable {setup : Setup} {path : Option String} {library : Library} {checks : Checks}

theorem prints_inform (text : String) : (setup.inform text).PrintsThen (pure ()) := by
  unfold inform
  split
  · exact Run.prints_message _
  · exact .refl _

/-- The problems that a check of the library collects. -/
def collected (library : Library) (checks : Checks) : List Diagnostic :=
  checkDiagnostics (.ofLibrary library checks) (Elaboration.ofLibrary library checks).runPragmas

/-- The end of a check: it fails if it has collected errors. -/
def verdict (diagnostics : List Diagnostic) : Run Unit :=
  match Diagnostic.countErrors diagnostics with
  | 0 => return
  | count => throw (.errorsFound count)

/-- Once the library is there, a check prints and comes to its verdict. -/
theorem exists_runCheck_eq (json quiet : Bool) {output loaded : Output} (ran : setup.loadLibrary path output = .ok library loaded) :
    ∃ printed, setup.runCheck path json quiet output = verdict (collected library setup.settings.checks) printed := by
  unfold runCheck
  rw [Run.bind_of_ok ran]
  refine (prints_inform _).bind ?_ loaded
  dsimp only
  split
  · exact (Run.prints_line _).bind (.refl _)
  · refine (Run.prints_report _ _).bind ?_
    split
    · exact (Run.prints_lines _).bind (.refl _)
    · exact .refl _

/-- A check fails as loading the library does, or because of the errors that it has collected. -/
theorem fault_runCheck (setup : Setup) (path : Option String) (json quiet : Bool) :
    (setup.runCheck path json quiet).outcome.fault =
    match setup.loadLibrary path ⟨"", ""⟩ with
    | .error fault _ => some fault
    | .ok library _ =>
        match Diagnostic.countErrors (collected library setup.settings.checks) with
        | 0 => none
        | count => some (.errorsFound count) := by
  unfold Run.outcome
  cases ran : setup.loadLibrary path ⟨"", ""⟩ with
  | error fault output =>
    have ended : setup.runCheck path json quiet ⟨"", ""⟩ = .error fault output := by
      simp only [runCheck, bind, EStateM.bind, ran]
    rw [ended]
  | ok library loaded =>
    obtain ⟨printed, ended⟩ := exists_runCheck_eq json quiet ran
    rw [ended, verdict]
    dsimp only
    cases Diagnostic.countErrors (collected library setup.settings.checks) <;> rfl

/-- Every diagnostic at a unit is collected. -/
theorem mem_collected_of_unit {unit : Nat} {diagnostic : Diagnostic}
    (atUnit : diagnostic ∈ (library.resolve checks).diagnostics unit) : diagnostic ∈ collected library checks := by
  unfold collected checkDiagnostics
  simp only [List.mem_append]
  exact .inl (.inl (.inr (Resolution.mem_allDiagnostics atUnit)))

/-- Whatever a report shows is collected. -/
theorem mem_collected_of_report {report : PragmaReport}
    (member : report ∈ (Elaboration.ofLibrary library checks).runPragmas) {diagnostic : Diagnostic}
    (shown : diagnostic ∈ report.failure.toList ++ report.diagnostics) : diagnostic ∈ collected library checks := by
  rcases List.mem_append.mp shown with isFailure | isFound
  · unfold collected checkDiagnostics
    simp only [List.mem_append]
    exact .inl (.inr (List.mem_filterMap.mpr ⟨report, member, Option.mem_toList.mp isFailure⟩))
  · obtain ⟨item, -, reports⟩ := Elaboration.mem_runPragmas_iff.mp member
    cases reports with
    | failed isTarget failed => exact absurd isFound List.not_mem_nil
    | planned isTarget planned =>
      obtain ⟨unit, -, atUnit⟩ := List.mem_flatMap.mp isFound
      exact mem_collected_of_unit atUnit

/-- Nothing that is collected is an error exactly if there is nothing wrong in any of the four places. -/
theorem noErrors_collected_iff :
    Diagnostic.NoErrors (collected library checks) ↔
      Diagnostic.NoErrors library.diagnostics ∧ Diagnostic.NoErrors (library.resolve checks).allDiagnostics ∧
        (∀ item ∈ library.pragmas, ∀ target ∈ item.pragma.target,
          ∃ order, (Elaboration.ofLibrary library checks).planFor target = .ok order) ∧
        ∃ order, (Elaboration.ofLibrary library checks).order = .ok order := by
  have pragmas := (Elaboration.noErrors_failures_iff (.ofLibrary library checks)).trans
    Elaboration.failure_eq_none_iff
  have parts : (Elaboration.ofLibrary library checks).library = library ∧
      (Elaboration.ofLibrary library checks).resolution = library.resolve checks := ⟨rfl, rfl⟩
  unfold collected checkDiagnostics
  simp only [Diagnostic.noErrors_append_iff, pragmas, parts, and_assoc]
  refine and_congr_right fun _ => and_congr_right fun _ => and_congr_right fun _ => ?_
  cases (Elaboration.ofLibrary library checks).order with
  | ok order => exact iff_of_true (List.forall_mem_nil _) ⟨order, rfl⟩
  | error fault => simp [Diagnostic.NoErrors, Diagnostic.isError]

end Setup

namespace Tangled

/-- A package whose use clause names no unit. -/
def broken : DesignUnit :=
  ⟨.basic "c", ⟨9, 1⟩, ⟨[], [⟨⟨.work, [.basic "missing"]⟩, true, ⟨8, 5⟩⟩], []⟩, [], .package [] [] none⟩

/-- The pragma `@elab c`. -/
def pragma : LibraryPragma := ⟨⟨"elab", some ⟨.basic "c", []⟩, ⟨1, 1⟩⟩, 0⟩

/-- Two packages that use each other, and a third one, for which a pragma asks. -/
def library : Library :=
  ⟨.basic "lib", ["tangled.vhd"], [⟨Knotted.first, 0⟩, ⟨Knotted.second, 0⟩, ⟨broken, 0⟩], [pragma], []⟩

/-- The error at the third package. -/
def missing : Diagnostic := .place .error (.notInLibrary (.basic "missing") (.basic "lib")) "tangled.vhd" ⟨8, 5⟩

theorem runPragmas_library : (Elaboration.ofLibrary library .standard).runPragmas =
    [⟨⟨.basic "c", []⟩, "tangled.vhd", ⟨1, 1⟩, none, [⟨"c", .package, "tangled.vhd"⟩], [missing]⟩] := by cbv

theorem plan_broken : (Elaboration.ofLibrary library .standard).plan 2 = .ok [2] := by cbv

end Tangled

namespace Setup

/-- The problems that a check collects have no error exactly if the sources and the names have none, the target of
every pragma is found and can be planned, and there is an order of all units. Whatever a pragma report shows is
collected, and so is every diagnostic at a unit of a plan; a report with errors therefore means that an error is
collected. A check fails because of the errors that it has collected, and only then or because there is no library
to check. -/
theorem check_finds_every_error (library : Library) (checks : Checks) :
    (Diagnostic.NoErrors (collected library checks) ↔
        Diagnostic.NoErrors library.diagnostics ∧ Diagnostic.NoErrors (library.resolve checks).allDiagnostics ∧
          (∀ item ∈ library.pragmas, ∀ target ∈ item.pragma.target,
            ∃ entry, library.find? target = some entry ∧
              ∃ order, (Elaboration.ofLibrary library checks).plan entry.index = .ok order) ∧
          ∃ order, (Elaboration.ofLibrary library checks).order = .ok order) ∧
      (∀ report ∈ (Elaboration.ofLibrary library checks).runPragmas,
        (∀ diagnostic ∈ report.failure.toList ++ report.diagnostics, diagnostic ∈ collected library checks) ∧
          (report.hasErrors = true → ¬ Diagnostic.NoErrors (collected library checks))) ∧
      (∀ target order, (Elaboration.ofLibrary library checks).plan target = .ok order →
        ∀ unit ∈ order, ∀ diagnostic ∈ (library.resolve checks).diagnostics unit,
          diagnostic ∈ collected library checks ∧
            (diagnostic.isError = true → ¬ Diagnostic.NoErrors (collected library checks))) ∧
      ∀ (setup : Setup) (path : Option String) (json quiet : Bool),
        match setup.loadLibrary path ⟨"", ""⟩ with
        | .error fault _ => (setup.runCheck path json quiet).outcome.fault = some fault
        | .ok loaded _ =>
            (Diagnostic.NoErrors (collected loaded setup.settings.checks) →
              (setup.runCheck path json quiet).outcome.fault = none) ∧
            (¬ Diagnostic.NoErrors (collected loaded setup.settings.checks) →
              (setup.runCheck path json quiet).outcome.fault =
                some (.errorsFound (Diagnostic.countErrors (collected loaded setup.settings.checks)))) := by
  have found {diagnostic : Diagnostic} (member : diagnostic ∈ collected library checks)
      (isError : diagnostic.isError = true) : ¬ Diagnostic.NoErrors (collected library checks) := by
    intro none
    rw [none diagnostic member] at isError
    cases isError
  refine ⟨?_, fun report member => ⟨fun diagnostic => mem_collected_of_report member, fun hasErrors => ?_⟩, ?_, ?_⟩
  · rw [noErrors_collected_iff]
    simp only [Elaboration.exists_planFor_iff]
    rfl
  · rcases Bool.or_eq_true_iff.mp hasErrors with failed | atUnit
    · obtain ⟨diagnostic, isFailure⟩ := Option.isSome_iff_exists.mp failed
      exact found (mem_collected_of_report member (List.mem_append_left _ (Option.mem_toList.mpr isFailure)))
        (Elaboration.isError_of_failure member isFailure)
    · obtain ⟨diagnostic, present, isError⟩ := List.any_eq_true.mp atUnit
      exact found (mem_collected_of_report member (List.mem_append_right _ present)) isError
  · intro target order planned unit inPlan diagnostic atUnit
    have member : diagnostic ∈ collected library checks := mem_collected_of_unit atUnit
    exact ⟨member, found member⟩
  · intro setup path json quiet
    have fault := fault_runCheck setup path json quiet
    cases ran : setup.loadLibrary path ⟨"", ""⟩ with
    | error cause output => rwa [ran] at fault
    | ok loaded output =>
      rw [ran] at fault
      dsimp only at fault ⊢
      rw [fault, ← Diagnostic.countErrors_eq_zero_iff]
      cases Diagnostic.countErrors (collected loaded setup.settings.checks) with
      | zero => exact ⟨fun _ => rfl, fun some => absurd rfl some⟩
      | succ count => exact ⟨fun none => absurd none (Nat.succ_ne_zero count), fun _ => rfl⟩

/-- The report on the third package shows the error at it, which is collected; the plan for the package is fine. -/
theorem check_finds_every_error_tangled :
    Tangled.missing ∈ collected Tangled.library .standard ∧
      ¬ Diagnostic.NoErrors (collected Tangled.library .standard) ∧
      (Elaboration.ofLibrary Tangled.library .standard).plan 2 = .ok [2] := by
  obtain ⟨-, reports, plans, -⟩ := check_finds_every_error Tangled.library .standard
  obtain ⟨shown, errors⟩ := reports _ (Tangled.runPragmas_library ▸ List.mem_cons_self)
  have atPackage : Tangled.missing ∈ (Tangled.library.resolve .standard).diagnostics 2 := by
    have only : (Tangled.library.resolve .standard).diagnostics 2 = [Tangled.missing] := by cbv
    exact only ▸ List.mem_cons_self
  have inPlan := plans 2 [2] Tangled.plan_broken 2 List.mem_cons_self Tangled.missing atPackage
  exact ⟨inPlan.1, errors rfl, Tangled.plan_broken⟩

end Setup

end VhdlOrder
