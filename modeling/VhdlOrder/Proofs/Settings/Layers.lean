import Mathlib.Data.List.Basic
import VhdlOrder.Settings.Settings
import VhdlOrder.Stepwise.Bounds

/-! # The first layer that sets a setting wins

Layers put together are a layer again, and it does not matter which of them are put together first. Every setting is
taken over from the first layer that sets it, through sections that are missing or set only other settings. Layers of
different localities are put together as if they had been sorted before, without a change of the order within a
locality. Taking them out of the list one by one, as long as there is one of the locality, comes to the same.
-/

namespace VhdlOrder

namespace Settings

/-! ## Putting layers together -/

section

variable {α β : Type} {merge : α → α → α}

theorem mergeSection_assoc (assoc : ∀ a b c, merge (merge a b) c = merge a (merge b c))
    (first second third : Option α) :
    mergeSection merge (mergeSection merge first second) third =
      mergeSection merge first (mergeSection merge second third) := by
  cases first <;> cases second <;> cases third <;> simp [mergeSection, assoc]

theorem mergeSection_none (settings : Option α) : mergeSection merge settings none = settings := by
  cases settings <;> rfl

/-- A setting of two sections is that of the first one, unless the section or the setting is missing there. -/
theorem bind_mergeSection {setting : α → Option β}
    (merges : ∀ a b, setting (merge a b) = (setting a).or (setting b)) (first second : Option α) :
    (mergeSection merge first second).bind setting = (first.bind setting).or (second.bind setting) := by
  cases first <;> cases second <;> simp [mergeSection, merges]

end

theorem append_assoc (first second third : Settings) :
    (first.append second).append third = first.append (second.append third) := by
  have general (a b c : GeneralSettings) : (a.merge b).merge c = a.merge (b.merge c) := by
    simp [GeneralSettings.merge, Option.or_assoc]
  have pragma (a b c : PragmaSettings) : (a.merge b).merge c = a.merge (b.merge c) := by
    simp [PragmaSettings.merge, Option.or_assoc]
  have check (a b c : CheckSettings) : (a.merge b).merge c = a.merge (b.merge c) := by
    simp [CheckSettings.merge, Option.or_assoc]
  simp only [append, mergeSection_assoc general, mergeSection_assoc pragma, mergeSection_assoc check]

theorem empty_append (settings : Settings) : empty.append settings = settings := rfl

theorem append_empty (settings : Settings) : settings.append empty = settings := by
  simp only [append, empty, mergeSection_none]

/-- What can be found in settings is, in several layers put together, that of the first one in which it is found. -/
theorem find_foldl_append {α : Type} (setting : Settings → Option α)
    (appends : ∀ a b, setting (a.append b) = (setting a).or (setting b)) (start : Settings) (layers : List Settings) :
    setting (layers.foldl append start) = (setting start).or (layers.findSome? setting) := by
  induction layers generalizing start with
  | nil => simp
  | cons layer rest ih =>
    rw [List.foldl_cons, ih, appends, Option.or_assoc, List.findSome?_cons]
    cases setting layer <;> rfl

/-- A setting of a section of several layers put together is that of the first layer that has the section and sets it
there. -/
theorem bind_foldl_append {α β : Type} {part : Settings → Option α} {merge : α → α → α} {setting : α → Option β}
    (parts : ∀ a b, part (a.append b) = mergeSection merge (part a) (part b))
    (merges : ∀ a b, setting (merge a b) = (setting a).or (setting b)) (missing : part empty = none)
    (layers : List Settings) :
    (part (layers.foldl append empty)).bind setting = layers.findSome? fun layer => (part layer).bind setting := by
  have appends (a b : Settings) :
      (part (a.append b)).bind setting = ((part a).bind setting).or ((part b).bind setting) := by
    rw [parts, bind_mergeSection merges]
  rw [find_foldl_append (fun layer => (part layer).bind setting) appends, missing]
  rfl

end Settings

/-! ## Layers in the order of their localities -/

/-- How many localities count before this one. -/
def Locality.rank : Locality → Nat
  | .commandLine => 0
  | .directory => 1
  | .home => 2

/-- Whether the first layer does not come from a locality that counts after that of the second. -/
def Layer.precedes (first second : Layer) : Bool := first.locality.rank ≤ second.locality.rank

theorem Layer.precedes_trans (a b c : Layer) (first : a.precedes b = true) (second : b.precedes c = true) :
    a.precedes c = true := by
  simp only [precedes, decide_eq_true_eq] at *
  exact Nat.le_trans first second

theorem Layer.precedes_total (a b : Layer) : (a.precedes b || b.precedes a) = true := by
  simpa [precedes] using Nat.le_total a.locality.rank b.locality.rank

namespace Settings

/-- Sorting keeps the layers of a locality in their order. -/
theorem layersOf_mergeSort (locality : Locality) (layers : List Layer) :
    layersOf locality (layers.mergeSort Layer.precedes) = layersOf locality layers := by
  have alike : (layersOf locality layers).Pairwise fun a b => a.precedes b = true := by
    refine List.pairwise_of_forall_mem_list fun a isOf b isOf' => ?_
    have same : a.locality = locality := beq_iff_eq.mp (List.mem_filter.mp isOf).2
    have same' : b.locality = locality := beq_iff_eq.mp (List.mem_filter.mp isOf').2
    simp [Layer.precedes, same, same']
  have within : (layersOf locality layers).Sublist (layers.mergeSort Layer.precedes) :=
    List.sublist_mergeSort Layer.precedes_trans Layer.precedes_total alike List.filter_sublist
  have kept : (layersOf locality layers).Sublist (layersOf locality (layers.mergeSort Layer.precedes)) := by
    simpa [layersOf] using within.filter fun layer => layer.locality == locality
  exact (kept.eq_of_length ((List.mergeSort_perm layers Layer.precedes).filter _).length_eq.symm).symm

theorem layersOf_cons (locality : Locality) (layer : Layer) (rest : List Layer) :
    layersOf locality (layer :: rest) =
      if layer.locality = locality then layer :: layersOf locality rest else layersOf locality rest := by
  simp [layersOf, List.filter_cons]

/-- Layers in the order of their localities are those of the first one, those of the second one and those of the third
one in turn. -/
theorem eq_layersOf_append {layers : List Layer} (sorted : layers.Pairwise fun a b => a.precedes b = true) :
    layers = layersOf .commandLine layers ++ layersOf .directory layers ++ layersOf .home layers := by
  induction layers with
  | nil => rfl
  | cons layer rest ih =>
    obtain ⟨least, sorted⟩ := List.pairwise_cons.mp sorted
    have before (locality : Locality) (less : locality.rank < layer.locality.rank) : layersOf locality rest = [] := by
      refine List.filter_eq_nil_iff.mpr fun other member isOf => ?_
      have after : layer.locality.rank ≤ other.locality.rank := of_decide_eq_true (least other member)
      obtain rfl : other.locality = locality := beq_iff_eq.mp isOf
      exact absurd after (Nat.not_le_of_lt less)
    have others := ih sorted
    cases origin : layer.locality with
    | commandLine => simpa [layersOf, origin] using others
    | directory =>
      rw [before .commandLine (by simp [origin, Locality.rank])] at others
      have none : layersOf .commandLine rest = [] := before _ (by simp [origin, Locality.rank])
      simpa [layersOf_cons, origin, none] using others
    | home =>
      have none : layersOf .commandLine rest = [] := before _ (by simp [origin, Locality.rank])
      have none' : layersOf .directory rest = [] := before _ (by simp [origin, Locality.rank])
      rw [none, none'] at others
      simpa [layersOf_cons, origin, none, none'] using others

/-- Layers are put together as if they had been sorted before. -/
theorem ofLayers_eq (layers : List Layer) :
    ofLayers layers = ((layers.mergeSort Layer.precedes).map Layer.settings).foldl append empty := by
  have sorted := eq_layersOf_append (List.pairwise_mergeSort Layer.precedes_trans Layer.precedes_total layers)
  simp only [layersOf_mergeSort] at sorted
  rw [sorted, List.foldl_map]
  rfl

end Settings

/-! ## Taking layers out one by one -/

namespace Stepwise

open Settings (layersOf)

/-- Takes the first layer of a locality out of those that are left, and appends it to the settings so far. -/
def layerRound (locality : Locality) :
    List Layer × Settings → Option (Round (List Layer × Settings) (List Layer × Settings))
  | (left, settings) =>
      match left.findIdx? fun layer => layer.locality == locality with
      | none => some (.done (left, settings))
      | some place => do
          let layer ← left[place]?
          return .again (left.eraseIdx place, settings.append layer.settings)

/-- The settings of all layers, which are put together locality by locality. -/
def ofLayers? (layers : List Layer) : Option Settings := do
  let (_, settings) ← [Locality.commandLine, .directory, .home].foldlM
    (fun state locality => loop (layerRound locality) (layers.length + 1) state) (layers, Settings.empty)
  return settings

theorem exists_split_of_findIdx? {α : Type} {fits : α → Bool} {items : List α} {place : Nat}
    (found : items.findIdx? fits = some place) :
    ∃ front item back, items = front ++ item :: back ∧ front.length = place ∧ fits item = true ∧
      ∀ other ∈ front, fits other = false := by
  obtain ⟨inside, isFit, unfit⟩ := List.findIdx?_eq_some_iff_getElem.mp found
  refine ⟨items.take place, items[place], items.drop (place + 1), ?_, ?_, isFit, fun other member => ?_⟩
  · rw [← List.drop_eq_getElem_cons inside, List.take_append_drop]
  · rw [List.length_take, Nat.min_eq_left (Nat.le_of_lt inside)]
  · obtain ⟨index, less, rfl⟩ := List.mem_take_iff_getElem.mp member
    exact Bool.eq_false_iff.mpr (unfit index (by omega))

/-- The layers of the other localities, and the settings with those of this locality appended. -/
def takeOut (locality : Locality) (state : List Layer × Settings) : List Layer × Settings :=
  (state.1.filter fun layer => layer.locality != locality,
    (layersOf locality state.1).foldl (fun settings layer => settings.append layer.settings) state.2)

/-- All layers of a locality are taken out and appended in their order. -/
theorem loop_layerRound (locality : Locality) {rounds : Nat} {state : List Layer × Settings}
    (enough : state.1.length < rounds) : loop (layerRound locality) rounds state = some (takeOut locality state) := by
  refine loop_eq (fun _ => True) (fun state => state.1.length) (takeOut locality) ?_ trivial enough
  rintro ⟨left, settings⟩ -
  cases found : left.findIdx? fun layer => layer.locality == locality with
  | none =>
    have others := List.findIdx?_eq_none_iff.mp found
    have none : layersOf locality left = [] :=
      List.filter_eq_nil_iff.mpr fun layer member => by simp [others layer member]
    have all : (left.filter fun layer => layer.locality != locality) = left :=
      List.filter_eq_self.mpr fun layer member => by simp [bne, others layer member]
    exact .inl (by simp [layerRound, takeOut, found, none, all])
  | some place =>
    obtain ⟨front, layer, back, rfl, rfl, fits, unfit⟩ := exists_split_of_findIdx? found
    have none : layersOf locality front = [] :=
      List.filter_eq_nil_iff.mpr fun layer member => by simp [unfit layer member]
    have first : layersOf locality (front ++ layer :: back) = layer :: layersOf locality (front ++ back) := by
      rw [layersOf, List.filter_append, List.filter_cons, if_pos fits, layersOf, List.filter_append, ← layersOf, none]
      rfl
    have passed : (layer.locality != locality) = false := by simp [bne, fits]
    refine .inr ⟨(front ++ back, settings.append layer.settings), ?_, trivial, ?_, by simp⟩
    · simp [layerRound, found, List.eraseIdx_append_of_length_le]
    · simp [takeOut, first, passed]

/-- The layers of one locality are still there when those of another one have been taken out. -/
theorem layersOf_filter {first second : Locality} (different : first ≠ second) (left : List Layer) :
    layersOf second (left.filter fun layer => layer.locality != first) = layersOf second left := by
  rw [layersOf, List.filter_filter]
  refine List.filter_congr fun layer _ => ?_
  cases isOf : layer.locality == second with
  | false => rfl
  | true =>
    obtain rfl := beq_iff_eq.mp isOf
    simpa using different.symm

/-- Taking the layers out one by one, locality by locality, stays inside the list and puts all of them together. -/
theorem ofLayers?_eq (layers : List Layer) : ofLayers? layers = some (Settings.ofLayers layers) := by
  have taken : [Locality.commandLine, .directory, .home].foldlM
      (fun state locality => loop (layerRound locality) (layers.length + 1) state) (layers, Settings.empty) =
      some (takeOut .home (takeOut .directory (takeOut .commandLine (layers, Settings.empty)))) :=
    (foldlM_eq_foldl (fun state : List Layer × Settings => state.1.length < layers.length + 1)
      (fun _ few locality _ => ⟨loop_layerRound locality few, Nat.lt_of_le_of_lt (List.length_filter_le ..) few⟩)
      (Nat.lt_succ_self _)).1
  have home : layersOf .home ((layers.filter fun layer => layer.locality != .commandLine).filter
      fun layer => layer.locality != .directory) = layersOf .home layers := by
    rw [layersOf_filter (by decide), layersOf_filter (by decide)]
  have directory : layersOf .directory (layers.filter fun layer => layer.locality != .commandLine) =
      layersOf .directory layers := layersOf_filter (by decide) layers
  rw [ofLayers?, taken]
  simp only [takeOut, home, directory, Settings.ofLayers, List.foldl_append]
  rfl

end Stepwise

namespace Settings

/-- Layers can be put together in any grouping, and no settings change nothing. However many layers are appended, each
setting has the value of the first layer that sets it, or its standard value if none does. The layers of a run, taken
out of their list one by one, give what appending them gives after they have been sorted by locality, where those of one
locality keep their order. -/
theorem first_layer_wins :
    (∀ first second third : Settings,
      (first.append second).append third = first.append (second.append third)) ∧
      (∀ settings : Settings, empty.append settings = settings ∧ settings.append empty = settings) ∧
      (∀ layers : List Settings,
        (layers.foldl append empty).library =
            (layers.findSome? fun layer => layer.general.bind GeneralSettings.library).getD "work" ∧
          (layers.foldl append empty).patterns =
            (layers.findSome? fun layer => layer.general.bind GeneralSettings.patterns).getD ["*.vhd", "*.vhdl"] ∧
          (layers.foldl append empty).directive =
            (layers.findSome? fun layer => layer.pragma.bind PragmaSettings.directive).getD "elab" ∧
          (layers.foldl append empty).deferredConstants =
            (layers.findSome? fun layer => layer.check.bind CheckSettings.deferredConstants).getD .warn ∧
          (layers.foldl append empty).unusedImports =
            (layers.findSome? fun layer => layer.check.bind CheckSettings.unusedImports).getD true) ∧
      ∀ layers : List Layer,
        Stepwise.ofLayers? layers = some (ofLayers layers) ∧
          ofLayers layers = ((layers.mergeSort Layer.precedes).map Layer.settings).foldl append empty := by
  refine ⟨append_assoc, fun settings => ⟨empty_append settings, append_empty settings⟩, fun layers => ?_, fun layers =>
    ⟨Stepwise.ofLayers?_eq layers, ofLayers_eq layers⟩⟩
  have general {β : Type} {setting : GeneralSettings → Option β}
      (merges : ∀ a b, setting (a.merge b) = (setting a).or (setting b)) :
      (layers.foldl append empty).general.bind setting = layers.findSome? fun layer => layer.general.bind setting :=
    bind_foldl_append (fun _ _ => rfl) merges rfl layers
  have pragma : (layers.foldl append empty).pragma.bind PragmaSettings.directive =
      layers.findSome? fun layer => layer.pragma.bind PragmaSettings.directive :=
    bind_foldl_append (fun _ _ => rfl) (fun _ _ => rfl) rfl layers
  have check {β : Type} {setting : CheckSettings → Option β}
      (merges : ∀ a b, setting (a.merge b) = (setting a).or (setting b)) :
      (layers.foldl append empty).check.bind setting = layers.findSome? fun layer => layer.check.bind setting :=
    bind_foldl_append (fun _ _ => rfl) merges rfl layers
  refine ⟨?_, ?_, ?_, ?_, ?_⟩
  · rw [library, general fun _ _ => rfl]
  · rw [patterns, general fun _ _ => rfl]
  · rw [directive, pragma]
  · rw [deferredConstants, check fun _ _ => rfl]
    rfl
  · rw [unusedImports, check fun _ _ => rfl]
    rfl

/-- A section that is there but sets nothing does not hide what a later layer sets. -/
example : (([⟨some ⟨none, some []⟩, none, none⟩, ⟨some ⟨some "lib", none⟩, some ⟨none⟩, none⟩] : List Settings).foldl
    append empty).library = "lib" := rfl

end Settings

end VhdlOrder
