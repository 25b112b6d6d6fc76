import VhdlOrder.Proofs.Design.PlaceByPlace
import VhdlOrder.Proofs.Elaboration.Threading
import VhdlOrder.Proofs.Library.Naming

/-! # Nothing out of bounds

Whatever the sources are, however they are read and linked, and whatever the checks are, no step takes more from a
counter than there is and none looks at a place outside a list. A text is read character by character and a file token
by token, without places; places come in where the tokens of a statement are at hand as a list, where names are taken
apart, and where units, files, nodes and edges are known by numbers. At all of these the step-by-step form has an
answer, and it is that of the definition without places.
-/

namespace VhdlOrder

open Stepwise

/-- What is read from a list of tokens by places and with counts of parentheses is what the definitions that know
neither read from it. -/
structure Stepwise.ReadsWithinBounds (tokens : List PlacedToken) : Prop where
  references : collect? tokens = some (References.collect tokens)
  mentions : mentions? tokens = some (References.mentions tokens)
  objects (position : Position) (word : Keyword) :
    objects? position word tokens = some (SimpleDeclaration.objects position word tokens)
  attributeValue : attributeValue? tokens =
    some (References.collect ((Interface.behind? (.keyword .is) tokens).getD []))
  recordElement : recordElement? tokens =
    some (References.collect (tokens.dropWhile fun token => !token.value.isDelimiter .colon))
  interfaceElement : element? tokens = some (Interface.element tokens)
  interfaceList (depth : Nat) (current : List PlacedToken) :
    listFrom? depth current tokens = some (Interface.parseFrom depth current tokens)
  header : header? tokens = some (Interface.header tokens)
  pragmas (directive : String) : pragmas? tokens directive = some (Pragma.scan tokens directive)

theorem Stepwise.readsWithinBounds (tokens : List PlacedToken) : ReadsWithinBounds tokens where
  references := collect?_eq tokens
  mentions := mentions?_eq tokens
  objects position word := objects?_eq position word tokens
  attributeValue := attributeValue?_eq tokens
  recordElement := recordElement?_eq tokens
  interfaceElement := element?_eq tokens
  interfaceList depth current := listFrom?_eq depth current tokens
  header := header?_eq tokens
  pragmas directive := pragmas?_eq tokens directive

/-- The library of a catalog is found in by numbers as it is without them. -/
structure Catalog.FindsWithinBounds (catalog : Catalog) (library : Library) : Prop where
  isLibrary : catalog.library = library
  find (name : SelectedName) : catalog.find? name = some ((library.find? name).map Entry.index)
  display {number : Nat} : number < library.size → library.display? number = some (library.display number)
  fileOf {number : Nat} : number < library.size → library.fileOf? number = some (library.fileOf number)
  locate {number : Nat} : number < library.size → library.locate? number = some (library.locate number)

theorem Catalog.Sound.findsWithinBounds {catalog : Catalog} (sound : catalog.Sound) :
    catalog.FindsWithinBounds catalog.library where
  isLibrary := rfl
  find := sound.inStep.find?_eq
  display := Library.display?_eq
  fileOf := sound.filed.fileOf?_eq
  locate := sound.filed.locate?_eq

namespace ThreadedElaboration

/-- Orders, plans, reports and trees of an elaboration with threads, for all units that there are, are those of the
elaboration without. -/
structure AnswersWithinBounds (elaboration : ThreadedElaboration) (whole : Elaboration) : Prop where
  resolution : elaboration.resolution = whole.resolution
  order : elaboration.order? = some whole.order
  plan {number : Nat} : number < whole.library.size → elaboration.plan? number = some (whole.plan number)
  planFor (name : SelectedName) : elaboration.planFor? name = some (whole.planFor name)
  steps {order : List Nat} : (∀ number ∈ order, number < whole.library.size) →
    elaboration.steps? order = some (whole.steps order)
  diagnosticsOf {order : List Nat} : (∀ number ∈ order, number < whole.library.size) →
    elaboration.diagnosticsOf? order = some (whole.diagnosticsOf order)
  pragmas : elaboration.runPragmas? = some whole.runPragmas
  dependenciesOf {number : Nat} : number < whole.library.size →
    elaboration.dependenciesOf? number = some (whole.dependenciesOf number)
  dependentsOf {number : Nat} : number < whole.library.size →
    elaboration.dependentsOf? number = some (whole.dependentsOf number)
  roots : elaboration.graph.roots = whole.roots
  tree {number : Nat} : number < whole.library.size → elaboration.tree? number = some (whole.tree number)

theorem Shows.answersWithinBounds {elaboration : ThreadedElaboration} {library : Library} {checks : Checks}
    (shows : elaboration.Shows library checks) :
    elaboration.AnswersWithinBounds (.ofLibrary library checks) where
  resolution := shows.isResolution
  order := shows.order?_eq
  plan := shows.plan?_eq
  planFor := shows.planFor?_eq
  steps := shows.steps?_eq
  diagnosticsOf := shows.diagnosticsOf?_eq
  pragmas := shows.runPragmas?_eq
  dependenciesOf := shows.dependenciesOf?_eq
  dependentsOf := shows.dependentsOf?_eq
  roots := shows.roots_eq
  tree := shows.tree?_eq

end ThreadedElaboration

namespace Library

/-- Reading any tokens, and reading, linking, resolving, ordering, planning and drawing any library, under any
checks, stays within bounds. -/
theorem nothing_out_of_bounds :
    (∀ tokens, ReadsWithinBounds tokens) ∧
      ∀ name steps, ∃ catalog, Catalog.run? name steps = some catalog ∧
        catalog.FindsWithinBounds (run name steps) ∧
        ∀ checks, catalog.resolve? checks = some ((run name steps).resolve checks) ∧
          ∃ elaboration, ThreadedElaboration.ofCatalog? catalog checks = some elaboration ∧
            elaboration.AnswersWithinBounds (.ofLibrary (run name steps) checks) := by
  refine ⟨readsWithinBounds, fun name steps => ?_⟩
  obtain ⟨ran, sound⟩ := Catalog.run?_eq name steps
  have same : (Catalog.run name steps).library = run name steps := (Catalog.inStep_run name steps).1
  refine ⟨_, ran, same ▸ sound.findsWithinBounds, fun checks => ?_⟩
  obtain ⟨elaboration, elaborated, shows⟩ := ThreadedElaboration.exists_ofCatalog? sound checks
  exact ⟨same ▸ sound.resolve?_eq checks, elaboration, elaborated, same ▸ shows.answersWithinBounds⟩

/-- The architecture of the sample is planned and its tree is drawn, and there is no file for a unit that is not
there. -/
theorem nothing_out_of_bounds_sample :
    1 < (run .work Sample.steps).size ∧ (run .work Sample.steps).fileOf? 4 = none ∧
      ∃ catalog elaboration, Catalog.run? .work Sample.steps = some catalog ∧
        ThreadedElaboration.ofCatalog? catalog .standard = some elaboration ∧
        elaboration.plan? 1 = some ((Elaboration.ofLibrary (run .work Sample.steps) .standard).plan 1) ∧
        elaboration.tree? 1 = some ((Elaboration.ofLibrary (run .work Sample.steps) .standard).tree 1) := by
  obtain ⟨-, runs⟩ := nothing_out_of_bounds
  obtain ⟨catalog, ran, -, elaborates⟩ := runs .work Sample.steps
  obtain ⟨-, elaboration, elaborated, answers⟩ := elaborates .standard
  have inside : 1 < (run .work Sample.steps).size := by decide +kernel
  exact ⟨inside, by decide +kernel, catalog, elaboration, ran, elaborated, answers.plan inside, answers.tree inside⟩

end Library

end VhdlOrder
