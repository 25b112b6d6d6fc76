import VhdlOrder.Proofs.Visibility.Correspondence

/-! # Names in corresponding libraries

Names in corresponding units are looked up with corresponding findings, and so are templates of instances and
constants without a value: what is found for a unit corresponds to what is found for the unit that corresponds
to it.
-/

namespace VhdlOrder

variable {c : Correspondence} {first second : Library} {scope scope' : Scope}

theorem Standard.declares_congr {first second : Identifier} (same : first.key = second.key) :
    declares first = declares second := by
  obtain ⟨isExtended, text⟩ := Prod.mk.inj same
  cases first with
  | basic first =>
    cases second with
    | basic second =>
      have lower : Text.lower first.toList = Text.lower second.toList := text
      simp only [declares, lower]
    | extended second => cases isExtended
  | extended first =>
    cases second with
    | basic second => cases isExtended
    | extended second => rfl

@[simp] theorem Correspondence.number_beq (c : Correspondence) (first second : Nat) :
    (c.number first == c.number second) = (first == second) := by
  rw [Bool.eq_iff_iff, beq_iff_eq, beq_iff_eq, c.number.injective.eq_iff]

namespace Lookup

/-- What an import that corresponds to the one of a provider declares. -/
def providerImage (c : Correspondence) (provider : AllImport × List Declaration) : AllImport × List Declaration :=
  (provider.1.image c, provider.2.map (Declaration.respell c.spelling))

section

variable (c : Correspondence) (providers : List (AllImport × List Declaration))

theorem sources_map_providerImage : (providers.map (providerImage c)).map (fun provider => provider.1.source.index) =
    (providers.map fun provider => provider.1.source.index).map c.number := by
  rw [List.map_map, List.map_map]
  rfl

theorem flatMap_snd_map_providerImage : (providers.map (providerImage c)).flatMap Prod.snd =
    (providers.flatMap Prod.snd).map (Declaration.respell c.spelling) := by
  rw [List.flatMap_map, List.map_flatMap]
  rfl

theorem origins_map_providerImage : (providers.map (providerImage c)).map allOrigin =
    (providers.map allOrigin).map (Origin.respell c.spelling) := by
  rw [List.map_map, List.map_map]
  rfl

end

@[simp] theorem differ_map (c : Correspondence) (sources : List Nat) : differ (sources.map c.number) = differ sources := by
  cases sources with
  | nil => rfl
  | cons source rest => simp [differ, Function.comp_def, bne]

@[simp] theorem allOverloadable_map (f : Respelling) (declarations : List Declaration) :
    allOverloadable (declarations.map (Declaration.respell f)) = allOverloadable declarations := by
  simp [allOverloadable, Function.comp_def]

theorem corresponds_ambiguity {name : Identifier} {position : Position} {sources : List Nat}
    {declarations : List Declaration} {origins : List Origin} :
    (ambiguity name position sources declarations origins).Corresponds c
      (ambiguity (c.spelling name) position (sources.map c.number) (declarations.map (Declaration.respell c.spelling))
        (origins.map (Origin.respell c.spelling))) := by
  simp only [ambiguity, differ_map, allOverloadable_map]
  split
  · exact .error
  · exact .empty

theorem provider?_image (name : Identifier) (item : AllImport) :
    provider? (c.spelling name) (item.image c) = (provider? name item).map (providerImage c) := by
  have found : (item.image c).items.filter (fun declaration => declaration.name.same (c.spelling name)) =
      (item.items.filter fun declaration => declaration.name.same name).map (Declaration.respell c.spelling) := by
    simp [AllImport.image, List.filter_map, Function.comp_def]
  simp only [provider?, found, List.isEmpty_map]
  split <;> rfl

section

variable (scopes : scope.Corresponds c scope')

include scopes

theorem providers_apply (name : Identifier) :
    providers scope' (c.spelling name) = (providers scope name).map (providerImage c) := by
  simp [providers, scopes.all, List.filterMap_map, List.map_filterMap, provider?_image]

theorem candidates_apply (name : Identifier) :
    candidates scope' (c.spelling name) = (candidates scope name).map (SelectedImport.image c) := by
  simp [candidates, scopes.selected, List.filter_map, Function.comp_def, SelectedImport.image]

theorem importers_apply (name : Identifier) :
    (candidates scope' (c.spelling name)).filterMap SelectedImport.key =
      ((candidates scope name).filterMap SelectedImport.key).map (ClauseKey.image c) := by
  rw [candidates_apply scopes, List.filterMap_map, List.map_filterMap]
  rfl

theorem corresponds_predefined (reference : Reference) :
    (predefined scope reference).Corresponds c (predefined scope' (reference.respell c.spelling)) := by
  have declares (name : Identifier) : Standard.declares (c.spelling name) = Standard.declares name :=
    Standard.declares_congr (c.spelling.key_apply name)
  simp only [predefined, Reference.name_respell, SelectedName.first_respell, declares, scopes.foreignAll,
    Reference.position_respell]
  split
  · exact .empty
  · exact .error

end

theorem corresponds_selected (same : first.Corresponds c second) (scopes : scope.Corresponds c scope')
    (name : Identifier) (position : Position) (items : List SelectedImport) :
    (selected first scope name position items).Corresponds c
      (selected second scope' (c.spelling name) position (items.map (SelectedImport.image c))) := by
  have sources : (items.map (SelectedImport.image c)).map (fun item => item.source.index) =
      (items.map fun item => item.source.index).map c.number := by
    simp [Function.comp_def, SelectedImport.image]
  have others : (providers scope' (c.spelling name)).filter (fun provider =>
      !((items.map fun item => item.source.index).map c.number).contains provider.1.source.index) =
        ((providers scope name).filter fun provider =>
          !(items.map fun item => item.source.index).contains provider.1.source.index).map (providerImage c) := by
    simp only [providers_apply scopes, List.filter_map]
    congr 2
    funext provider
    simp [providerImage, AllImport.image]
  have origins : (items.map (SelectedImport.image c)).map (selectedOrigin second) =
      (items.map (selectedOrigin first)).map (Origin.respell c.spelling) := by
    simp [Function.comp_def, selectedOrigin, SelectedImport.image, Origin.respell, SelectedName.respell, same.name]
  have items_declarations : (items.map (SelectedImport.image c)).flatMap SelectedImport.declarations =
      (items.flatMap SelectedImport.declarations).map (Declaration.respell c.spelling) := by
    rw [List.flatMap_map, List.map_flatMap]
    rfl
  have keys : (items.map (SelectedImport.image c)).filterMap SelectedImport.key =
      (items.filterMap SelectedImport.key).map (ClauseKey.image c) := by
    rw [List.filterMap_map, List.map_filterMap]
    rfl
  simp only [selected, sources, others, origins, items_declarations, keys, sources_map_providerImage,
    flatMap_snd_map_providerImage, origins_map_providerImage, ← List.map_append]
  exact Findings.Corresponds.ofUse.append corresponds_ambiguity

variable (same : first.Corresponds c second)

include same

theorem corresponds_inUnit (reference : Reference) (entry : Entry) (rest : List Identifier) :
    (inUnit first reference entry rest).Corresponds c
      (inUnit second (reference.respell c.spelling) (entry.image c) (rest.map c.spelling)) := by
  have depend : (Findings.dependency entry .name reference.name.render reference.position).Corresponds c
      (.dependency (entry.image c) .name (reference.name.respell c.spelling).render reference.position) :=
    .dependency fun isKeep => SelectedName.render_respell_of_keep isKeep _
  cases rest with
  | nil => exact depend
  | cons item rest =>
    simp only [inUnit, List.map_cons, List.head?_cons, Entry.isPackage_image, same.packageItems,
      Declaration.declares_map, Declaration.declares_apply, Reference.name_respell, Reference.position_respell]
    split
    · exact .error
    · exact depend

theorem corresponds_inWorking (reference : Reference) (names : List Identifier) :
    (inWorking first reference names).Corresponds c
      (inWorking second (reference.respell c.spelling) (names.map c.spelling)) := by
  cases names with
  | nil => exact .empty
  | cons name rest =>
    simp only [inWorking, List.map_cons, same.primary?]
    cases first.primary? name with
    | none => exact same.name ▸ .error
    | some entry => exact corresponds_inUnit same reference entry rest

variable (scopes : scope.Corresponds c scope')

include scopes

theorem corresponds_expanded (reference : Reference) :
    (expanded first scope reference).Corresponds c (expanded second scope' (reference.respell c.spelling)) := by
  simp only [expanded, Reference.name_respell, SelectedName.isExpanded_respell, SelectedName.first_respell,
    SelectedName.suffix_respell, same.isWorking, scopes.prefixed?, scopes.hasLibrary, scopes.foreignPrefixes,
    List.any_map, Function.comp_def, Respelling.same_left, Respelling.same_right]
  split
  · exact corresponds_predefined scopes reference
  · split
    · exact corresponds_inWorking same reference reference.name.suffix
    · cases scope.prefixed? reference.name.first with
      | some entry => exact corresponds_inUnit same reference entry reference.name.suffix
      | none =>
        simp only [Option.map_none]
        split
        · exact .empty
        · exact corresponds_predefined scopes reference

theorem corresponds_imported (reference : Reference) :
    (imported first scope reference).Corresponds c (imported second scope' (reference.respell c.spelling)) := by
  simp only [imported, Reference.name_respell, SelectedName.first_respell, Reference.position_respell,
    candidates_apply scopes, providers_apply scopes, scopes.foreignNames, List.any_map, Function.comp_def,
    Respelling.same_left, Respelling.same_right]
  cases candidates scope reference.name.first with
  | cons item items => exact corresponds_selected same scopes _ _ (item :: items)
  | nil =>
    simp only [List.map_nil]
    split
    · exact .empty
    · cases providers scope reference.name.first with
      | nil => exact corresponds_expanded same scopes reference
      | cons provider more =>
        have found : (ambiguity reference.name.first reference.position
            ((provider :: more).map fun provider => provider.1.source.index) ((provider :: more).flatMap Prod.snd)
            ((provider :: more).map allOrigin)).Corresponds c _ := corresponds_ambiguity
        rw [← sources_map_providerImage, ← flatMap_snd_map_providerImage, ← origins_map_providerImage] at found
        exact found

/-- A reference is looked up with corresponding findings. -/
theorem corresponds_find (unit : DesignUnit) (locals : List Declaration) (reference : Reference) :
    (find first scope unit locals reference).Corresponds c
      (find second scope' (unit.respell c.spelling) (locals.map (Declaration.respell c.spelling))
        (reference.respell c.spelling)) := by
  simp only [find, Reference.name_respell, SelectedName.first_respell, Declaration.declares_map,
    Declaration.declares_apply, DesignUnit.name_respell, DesignUnit.owner?_respell, Respelling.same_left,
    Respelling.same_right, Option.any_map]
  split
  · exact .empty
  · split
    · exact .empty
    · exact corresponds_imported same scopes reference

theorem corresponds_findAll (unit : DesignUnit) (locals : List Declaration) (references : List Reference) :
    (findAll first scope unit locals references).Corresponds c
      (findAll second scope' (unit.respell c.spelling) (locals.map (Declaration.respell c.spelling))
        (references.map (Reference.respell c.spelling))) := by
  apply Findings.Corresponds.flatten
  rw [List.map_map, List.forall₂_map_left_iff, List.forall₂_map_right_iff, List.forall₂_same]
  exact fun reference _ => corresponds_find same scopes unit locals reference

omit same in
theorem corresponds_mentioned (locals : List Declaration) (declaration : Declaration) :
    (mentioned scope locals declaration).Corresponds c
      (mentioned scope' (locals.map (Declaration.respell c.spelling)) (declaration.respell c.spelling)) := by
  have outside : (declaration.respell c.spelling).allMentions.filter
      (fun name => !Declaration.declares (locals.map (Declaration.respell c.spelling)) name) =
        (declaration.allMentions.filter fun name => !Declaration.declares locals name).map c.spelling := by
    simp [List.filter_map, Function.comp_def]
  simp only [mentioned, outside, List.flatMap_map, importers_apply scopes, ← List.map_flatMap]
  exact .ofUse

/-- Corresponding declarations are looked at with corresponding findings. -/
theorem corresponds_declarations (unit : DesignUnit) (locals items : List Declaration) :
    (declarations first scope unit locals items).Corresponds c
      (declarations second scope' (unit.respell c.spelling) (locals.map (Declaration.respell c.spelling))
        (items.map (Declaration.respell c.spelling))) := by
  induction items generalizing locals with
  | nil => exact .empty
  | cons declaration rest ih =>
    have own : (rest.map (Declaration.respell c.spelling)).takeWhile (fun next => next.kind.belongsToType) =
        (rest.takeWhile fun next => next.kind.belongsToType).map (Declaration.respell c.spelling) := by
      simp [List.takeWhile_map, Function.comp_def]
    have visible : locals.map (Declaration.respell c.spelling) ++ declaration.respell c.spelling ::
        (rest.takeWhile fun next => next.kind.belongsToType).map (Declaration.respell c.spelling) =
          (locals ++ declaration :: rest.takeWhile fun next => next.kind.belongsToType).map
            (Declaration.respell c.spelling) := by
      simp
    have before : locals.map (Declaration.respell c.spelling) ++ [declaration.respell c.spelling] =
        (locals ++ [declaration]).map (Declaration.respell c.spelling) := by
      simp
    simp only [List.map_cons, declarations, own, visible, before, Declaration.references_respell]
    exact ((corresponds_findAll same scopes _ _ _).append (corresponds_mentioned scopes _ _)).append (ih _)

end Lookup

end VhdlOrder
