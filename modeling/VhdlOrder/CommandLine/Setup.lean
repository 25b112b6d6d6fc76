import VhdlOrder.CommandLine.Output
import VhdlOrder.Elaboration.Plan
import VhdlOrder.Library.Source
import VhdlOrder.Settings.Settings

/-! # Settings and sources of a run

A run reads its settings from up to three files and its sources from the path on the command line, which
is the current directory if there is none.
-/

namespace VhdlOrder

/-- What the commands of a run have in common. -/
structure Setup where
  files : FileSystem
  layers : List Layer
  verbose : Bool
  colored : Bool

namespace Setup

def settings (setup : Setup) : Settings := Settings.ofLayers setup.layers

/-- The settings in a node, which is a file. -/
def readLayer (path : String) (locality : Locality) (node : Option FileNode) : Run Layer :=
  match node with
  | some (.file bytes) =>
      match String.fromUTF8? bytes with
      | none => throw .settingsUnreadable
      | some text =>
          match Settings.read text with
          | some settings => return ⟨path, settings, locality⟩
          | none => throw (.settingsRejected path)
  | _ => throw (.settingsMissing path)

/-- The settings in a node, if it is a file. -/
def readIfFile (path : String) (locality : Locality) (node : Option FileNode) : Run (List Layer) := do
  if node.any FileNode.isFile then return [← readLayer path locality node] else return []

/-- The layers of settings: the file `config`, which must be there, and those in the current directory
and the home directory as far as they are there. -/
def readLayers (files : FileSystem) (config : Option String) : Run (List Layer) := do
  let named ← match config with
    | some path => pure [← readLayer path .commandLine (files.node? path)]
    | none => pure []
  let current ← readIfFile nearbySettings .directory (files.node? nearbySettings)
  let fromHome ← match files.home with
    | some home =>
        let path := joinPath home homeSettings
        readIfFile path .home (files.node? path)
    | none => pure []
  return named ++ current ++ fromHome

/-- Prints a message about progress, if such messages are wanted. -/
def inform (setup : Setup) (text : String) : Run Unit := do
  if setup.verbose then Run.message (Paint.cyan.apply setup.colored "info" ++ ": " ++ text)

/-- Names the files that the settings are from. -/
def informLayers (setup : Setup) : List Layer → Run Unit
  | [] => pure ()
  | layer :: rest => do
      setup.inform ("using configuration " ++ Text.quoted layer.path)
      informLayers setup rest

/-- Adds source files to a library. -/
def addFiles (setup : Setup) (library : Library) : List SourceFile → Run Library
  | [] => return library
  | file :: rest => do
      match file.text with
      | none => throw (.sourceUnreadable file.path)
      | some text =>
          let (count, library) := library.addSource file.path text setup.settings.directive
          setup.inform
            ("read " ++ toString count ++ " unit(s) from " ++ Text.quoted file.path)
          addFiles setup library rest

/-- The linked library of all source files that the path names. -/
def loadLibrary (setup : Setup) (path : Option String) : Run Library := do
  let path := path.getD "."
  setup.informLayers setup.layers
  let set ← Run.ofExcept .badFileset (Fileset.read setup.settings.patterns)
  match setup.files.sources? set path with
  | none => throw (.pathMissing path)
  | some [] => throw .noSourceFiles
  | some found =>
      let library ← Run.ofExcept .badLibraryName (Library.named setup.settings.library)
      return (← setup.addFiles library found).link

/-- The unit of a name. -/
def findUnit (elaboration : Elaboration) (name : SelectedName) : Run Nat :=
  match elaboration.library.find? name with
  | some entry => return entry.index
  | none => throw (.unitNotFound name elaboration.library.name)

end Setup

end VhdlOrder
