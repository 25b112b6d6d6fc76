import VhdlOrder.Proofs.Elaboration.SourceOrder
import VhdlOrder.Proofs.Library.Respelling

/-! # Letter case

Identifiers differ in letter case without naming different things. So two lists of sources whose tokens are the same
up to that are read into libraries that are spelled alike; what is resolved is the same up to the names that messages
show, and units are ordered in the same way, as the order depends on their numbers only.
-/

namespace VhdlOrder

/-- The dependency without the name that it comes from. -/
def Dependency.outline (dependency : Dependency) : Nat × DependencyKind × Position :=
  (dependency.unit, dependency.kind, dependency.position)

/-- The diagnostic without its problem. -/
def Diagnostic.outline (diagnostic : Diagnostic) : Severity × Option String × Option Position :=
  (diagnostic.severity, diagnostic.file, diagnostic.position)

/-- The units are the same up to the spelling of the identifiers in them. -/
def DesignUnit.Same (first second : DesignUnit) : Prop := ∃ f : Respelling, first.respell f = second.respell f

namespace Library

theorem Alike.rel_unit? {f : Respelling} {first second : Library} (alike : first.Alike f second) (index : Nat) :
    Option.Rel DesignUnit.Same (first.unit? index) (second.unit? index) := by
  have respelled := alike.unit? index
  rw [unit?_respell, unit?_respell] at respelled
  generalize first.unit? index = unit at respelled ⊢
  generalize second.unit? index = unit' at respelled ⊢
  cases unit with
  | none =>
    cases unit' with
    | none => exact .none
    | some unit' => cases respelled
  | some unit =>
    cases unit' with
    | none => cases respelled
    | some unit' => exact .some ⟨f, Option.some.inj respelled⟩

variable {f : Respelling} {first second : Library} {checks : Checks}

namespace Corresponds

/-! ## Libraries that correspond without a change of numbers -/

variable (same : first.Corresponds ⟨f, .refl Nat⟩ second)

include same

theorem dependencies_outline (checks : Checks) (index : Nat) :
    ((second.resolve checks).dependencies index).map Dependency.outline =
      ((first.resolve checks).dependencies index).map Dependency.outline := by
  have outlined : List.Forall₂ (fun dependency image => image.outline = dependency.outline)
      ((first.resolve checks).dependencies index) ((second.resolve checks).dependencies index) :=
    (same.dependencies_resolve checks index).imp fun dependency image corresponds => by
      rw [Dependency.outline, corresponds.unit, corresponds.kind, corresponds.position]
      rfl
  rw [← List.forall₂_eq_eq_eq, List.forall₂_map_right_iff, List.forall₂_map_left_iff]
  exact outlined.flip

theorem diagnostics_outline (checks : Checks) (index : Nat) :
    ((second.resolve checks).diagnostics index).map Diagnostic.outline =
      ((first.resolve checks).diagnostics index).map Diagnostic.outline := by
  have respelled : (second.resolve checks).diagnostics index =
      ((first.resolve checks).diagnostics index).map (Diagnostic.respell f) := same.diagnostics_resolve checks index
  rw [respelled, List.map_map]
  rfl

theorem edges_eq (checks : Checks) :
    (Elaboration.ofLibrary second checks).edges = (Elaboration.ofLibrary first checks).edges := by
  have edges (library : Library) : (Elaboration.ofLibrary library checks).edges =
      (List.range library.size).flatMap fun index =>
        (((library.resolve checks).dependencies index).map Dependency.unit).map fun unit => (unit, index) := by
    simp only [Elaboration.edges, List.map_map]
    rfl
  have units (index : Nat) : ((second.resolve checks).dependencies index).map Dependency.unit =
      ((first.resolve checks).dependencies index).map Dependency.unit :=
    (same.units_dependencies checks index).trans (List.map_id _)
  simp only [edges, units, same.size_eq]

theorem alike_graph (checks : Checks) :
    (Elaboration.ofLibrary first checks).graph.Alike (Elaboration.ofLibrary second checks).graph := by
  have labels : (Graph.ofLabels (first.units.map LibraryUnit.unit)).Alike
      (Graph.ofLabels (second.units.map LibraryUnit.unit)) := by
    refine ⟨?_, rfl⟩
    simpa [Graph.size, Graph.ofLabels, Library.size] using same.size_eq.symm
  have edges : (Elaboration.ofLibrary first checks).edges = (Elaboration.ofLibrary second checks).edges :=
    (same.edges_eq checks).symm
  rw [Elaboration.graph, Elaboration.graph, edges]
  exact labels.addEdges _

/-- Where the numbers stay, the same units are needed. -/
theorem orderWithin_needed (checks : Checks) (target : Nat) :
    (Elaboration.ofLibrary first checks).graph.orderWithin ((Elaboration.ofLibrary first checks).needed target) =
      (Elaboration.ofLibrary second checks).graph.orderWithin ((Elaboration.ofLibrary second checks).needed target) :=
  (same.alike_graph checks).orderWithin fun _ => same.mem_needed_iff.symm

theorem order_graph (checks : Checks) :
    (Elaboration.ofLibrary first checks).graph.order = (Elaboration.ofLibrary second checks).graph.order := by
  have alike := same.alike_graph checks
  refine alike.orderWithin fun node => ?_
  rw [Graph.mem_nodes, Graph.mem_nodes, alike.size]

end Corresponds

end Library

namespace Resolution.Sample

/-- The two sources with most of their letters in capitals. -/
def capitalSources : List (String × String) :=
  [("a.vhd", "\nUSE Work.X.y; PACKAGE P IS END;"), ("b.vhd", "Package BODY P is end;")]

theorem sameTokens_capitalSources : List.Forall₂ Library.SameTokens sources capitalSources :=
  .cons ⟨rfl, by decide +kernel⟩ (.cons ⟨rfl, by decide +kernel⟩ .nil)

theorem plan_twoFiles : (Elaboration.ofLibrary twoFiles .standard).plan 0 = .ok [0, 1] := by cbv

end Resolution.Sample

namespace Elaboration

/-- Two answers with the same numbers: an order, or a cycle on which each elaboration shows the names of its own
units. -/
inductive SameNumbers (first second : Elaboration) : Except OrderFault (List Nat) → Except OrderFault (List Nat) → Prop
  | order (order : List Nat) : SameNumbers first second (.ok order) (.ok order)
  | cycle (cycle : List Nat) :
      SameNumbers first second (.error (first.cycleFault cycle)) (.error (second.cycleFault cycle))

theorem SameNumbers.of_eq {first second : Elaboration} {answer answer' : Except (List Nat) (List Nat)}
    (same : answer = answer') :
    SameNumbers first second (answer.mapError first.cycleFault) (answer'.mapError second.cycleFault) := by
  subst same
  cases answer with
  | ok order => exact .order order
  | error cycle => exact .cycle cycle

/-- The letter case of identifiers does not matter: of sources with the same tokens, the units have the same numbers,
stand in the same files, and depend on each other for the same reasons at the same places. There are as many
diagnostics, of the same severity and at the same places, and orders and plans have the same numbers. -/
theorem sources_in_any_letter_case {sources sources' : List (String × String)}
    (same : List.Forall₂ Library.SameTokens sources sources') (name : Identifier) (directive : String) :
    (∀ index,
      Option.Rel DesignUnit.Same ((Library.ofSources name directive sources).unit? index)
          ((Library.ofSources name directive sources').unit? index) ∧
        (Library.ofSources name directive sources).fileOf index =
          (Library.ofSources name directive sources').fileOf index) ∧
      ∀ checks : Checks,
        (∀ index,
          (((Library.ofSources name directive sources).resolve checks).dependencies index).map Dependency.outline =
              (((Library.ofSources name directive sources').resolve checks).dependencies index).map
                Dependency.outline ∧
            (((Library.ofSources name directive sources).resolve checks).diagnostics index).map Diagnostic.outline =
              (((Library.ofSources name directive sources').resolve checks).diagnostics index).map
                Diagnostic.outline) ∧
        SameNumbers (ofLibrary (Library.ofSources name directive sources) checks)
          (ofLibrary (Library.ofSources name directive sources') checks)
          (ofLibrary (Library.ofSources name directive sources) checks).order
          (ofLibrary (Library.ofSources name directive sources') checks).order ∧
        ∀ target,
          SameNumbers (ofLibrary (Library.ofSources name directive sources) checks)
            (ofLibrary (Library.ofSources name directive sources') checks)
            ((ofLibrary (Library.ofSources name directive sources) checks).plan target)
            ((ofLibrary (Library.ofSources name directive sources') checks).plan target) := by
  have alike := Library.alike_ofSources (same.imp fun _ _ => Library.SameTokens.alike) name directive
  -- both libraries correspond to the first one in the canonical spelling
  have first := (Library.Alike.refl .canonical _).corresponds (Library.unambiguous_ofSources name directive sources)
  have second := alike.corresponds (Library.unambiguous_ofSources name directive sources')
  refine ⟨fun index => ⟨?_, ?_⟩, fun checks => ⟨fun index => ⟨?_, ?_⟩, ?_, fun target => ?_⟩⟩
  · exact alike.rel_unit? index
  · exact (first.fileOf index).symm.trans (second.fileOf index)
  · exact (first.dependencies_outline checks index).symm.trans (second.dependencies_outline checks index)
  · exact (first.diagnostics_outline checks index).symm.trans (second.diagnostics_outline checks index)
  · exact .of_eq ((first.order_graph checks).trans (second.order_graph checks).symm)
  · exact .of_eq ((first.orderWithin_needed checks target).trans (second.orderWithin_needed checks target).symm)

/-- In capitals, the body still depends on its package, is warned of the clause that it inherits, and is planned
behind the package. -/
theorem sources_in_any_letter_case_capitals :
    List.Forall₂ Library.SameTokens Resolution.Sample.sources Resolution.Sample.capitalSources ∧
      (((Library.ofSources .work "elab" Resolution.Sample.capitalSources).resolve .standard).dependencies 1).map
          Dependency.outline = [(0, .primary, ⟨1, 1⟩)] ∧
      Resolution.Sample.misplaced.outline ∈
        (((Library.ofSources .work "elab" Resolution.Sample.capitalSources).resolve .standard).diagnostics 1).map
          Diagnostic.outline ∧
      (ofLibrary (Library.ofSources .work "elab" Resolution.Sample.capitalSources) .standard).plan 0 = .ok [0, 1] := by
  have same := Resolution.Sample.sameTokens_capitalSources
  obtain ⟨-, resolved⟩ := sources_in_any_letter_case same .work "elab"
  obtain ⟨outlines, -, plans⟩ := resolved .standard
  obtain ⟨dependencies, diagnostics⟩ := outlines 1
  refine ⟨same, ?_, ?_, ?_⟩
  · rw [← dependencies, Resolution.Sample.ofSources_sources, Resolution.Sample.dependencies_body]
    rfl
  · rw [← diagnostics]
    exact List.mem_map_of_mem Resolution.Sample.misplaced_mem
  · have planned := plans 0
    rw [Resolution.Sample.ofSources_sources, Resolution.Sample.plan_twoFiles] at planned
    generalize (ofLibrary (Library.ofSources .work "elab" Resolution.Sample.capitalSources) .standard).plan 0 = answer
      at planned ⊢
    cases planned
    rfl

end Elaboration

end VhdlOrder
