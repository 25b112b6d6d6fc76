import VhdlOrder.Settings.TomlText
import VhdlOrder.Visibility.Resolution

/-! # Settings

Settings come from several layers, and each layer may set some of them. A setting has the value of the
first layer that sets it, and a standard value if none does. Only settings that are known may be set,
and only to values of their kind.
-/

namespace VhdlOrder

/-- The section `general`: the name of the working library and the patterns of source files. -/
structure GeneralSettings where
  library : Option String
  patterns : Option (List String)
deriving DecidableEq

/-- The section `pragma`: the directive that asks for a plan. -/
structure PragmaSettings where
  directive : Option String
deriving DecidableEq

/-- The section `check`: how strict the checks are. -/
structure CheckSettings where
  deferredConstants : Option Level
  unusedImports : Option Bool
deriving DecidableEq

/-- The sections of a layer, or of several layers put together. -/
structure Settings where
  general : Option GeneralSettings
  pragma : Option PragmaSettings
  check : Option CheckSettings
deriving DecidableEq

/-- A section with the values of `first`, and those of `second` where `first` has none. -/
def GeneralSettings.merge (first second : GeneralSettings) : GeneralSettings :=
  ⟨first.library.or second.library, first.patterns.or second.patterns⟩

/-- A section with the value of `first`, or that of `second` if `first` has none. -/
def PragmaSettings.merge (first second : PragmaSettings) : PragmaSettings :=
  ⟨first.directive.or second.directive⟩

/-- A section with the values of `first`, and those of `second` where `first` has none. -/
def CheckSettings.merge (first second : CheckSettings) : CheckSettings :=
  ⟨first.deferredConstants.or second.deferredConstants, first.unusedImports.or second.unusedImports⟩

/-- Where a layer comes from, the first that counts first: a file named on the command line, the file
in the current directory, the file in the home directory. -/
inductive Locality where
  | commandLine | directory | home
deriving DecidableEq

/-- A file with settings. -/
structure Layer where
  path : String
  settings : Settings
  locality : Locality
deriving DecidableEq

namespace Settings

/-- No settings. -/
def empty : Settings := ⟨none, none, none⟩

/-- Two sections merged, or the one that is there. -/
def mergeSection {α : Type} (merge : α → α → α) : Option α → Option α → Option α
  | some first, some second => some (merge first second)
  | some first, none => some first
  | none, second => second

/-- The settings of two layers, the first of which wins. -/
def append (first second : Settings) : Settings :=
  { general := mergeSection GeneralSettings.merge first.general second.general
    pragma := mergeSection PragmaSettings.merge first.pragma second.pragma
    check := mergeSection CheckSettings.merge first.check second.check }

/-- The name of the working library. -/
def library (settings : Settings) : String :=
  (settings.general.bind GeneralSettings.library).getD "work"

/-- The patterns of the source files in directories. -/
def patterns (settings : Settings) : List String :=
  (settings.general.bind GeneralSettings.patterns).getD ["*.vhd", "*.vhdl"]

/-- The directive that asks for a plan. -/
def directive (settings : Settings) : String :=
  (settings.pragma.bind PragmaSettings.directive).getD "elab"

/-- What to do about a deferred constant without a package body. -/
def deferredConstants (settings : Settings) : Level :=
  (settings.check.bind CheckSettings.deferredConstants).getD Checks.standard.deferredConstants

/-- Whether unused imports are reported. -/
def unusedImports (settings : Settings) : Bool :=
  (settings.check.bind CheckSettings.unusedImports).getD Checks.standard.unusedImports

/-- The settings of the checks. -/
def checks (settings : Settings) : Checks := ⟨settings.deferredConstants, settings.unusedImports⟩

/-! ## Reading -/

def readString : TomlValue → Option String
  | .string text => some text
  | _ => none

def readBool : TomlValue → Option Bool
  | .bool value => some value
  | _ => none

def readStrings : TomlValue → Option (List String)
  | .array items => items.mapM readString
  | _ => none

/-- The level of a word. -/
def levelOf? : String → Option Level
  | "allow" => some .allow
  | "warn" => some .warn
  | "error" => some .error
  | _ => none

/-- A level is a word, or a table with that word as its only key and nothing in it. -/
def readLevel : TomlValue → Option Level
  | .string word => levelOf? word
  | .table _ [(word, .table _ [])] | .table _ [(word, .array [])] => levelOf? word
  | _ => none

/-- The value of a setting that may be missing. -/
def readField {α : Type} (read : TomlValue → Option α) (entries : TomlEntries) (key : String) :
    Option (Option α) :=
  match Toml.get? entries key with
  | none => some none
  | some value => (read value).map some

/-- The entries, if all keys are among `keys`. -/
def known (keys : List String) (entries : TomlEntries) : Option TomlEntries :=
  if entries.all fun entry => keys.contains entry.1 then some entries else none

/-- The entries of a section. It is a table, or an array of the values of all settings in order. -/
def sectionEntries (keys : List String) : TomlValue → Option TomlEntries
  | .table _ entries => known keys entries
  | .array items => if keys.length ≤ items.length then some (keys.zip items) else none
  | _ => none

def readGeneral (value : TomlValue) : Option GeneralSettings := do
  let entries ← sectionEntries ["library", "patterns"] value
  return ⟨← readField readString entries "library", ← readField readStrings entries "patterns"⟩

def readPragma (value : TomlValue) : Option PragmaSettings := do
  let entries ← sectionEntries ["directive"] value
  return ⟨← readField readString entries "directive"⟩

def readCheck (value : TomlValue) : Option CheckSettings := do
  let entries ← sectionEntries ["deferred-constants", "unused-imports"] value
  return ⟨← readField readLevel entries "deferred-constants",
    ← readField readBool entries "unused-imports"⟩

/-- The settings that a text sets; it must be a TOML document of known settings. -/
def read (text : String) : Option Settings := do
  let entries ← known ["general", "pragma", "check"] (← Toml.read text)
  return ⟨← readField readGeneral entries "general", ← readField readPragma entries "pragma",
    ← readField readCheck entries "check"⟩

/-! ## Layers -/

/-- The layers of one locality. -/
def layersOf (locality : Locality) (layers : List Layer) : List Layer :=
  layers.filter fun layer => layer.locality == locality

/-- The settings of all layers, those of one locality in their order. -/
def ofLayers (layers : List Layer) : Settings :=
  let sorted := layersOf .commandLine layers ++ layersOf .directory layers ++ layersOf .home layers
  sorted.foldl (fun settings layer => settings.append layer.settings) empty

end Settings

end VhdlOrder
