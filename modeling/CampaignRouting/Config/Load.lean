import CampaignRouting.Config.Environment
import CampaignRouting.Config.Section
import CampaignRouting.Files
import CampaignRouting.Json.Codec
import CampaignRouting.Toml.Document

/-! Loading the engine's settings. They come from three layers: the defaults, a file over them,
and the environment over both. -/

namespace CampaignRouting
open Json

/-- A format of configuration files. -/
structure ConfigFormat where
  /-- The endings of the names of such files. -/
  endings : List String
  /-- The value of a text. -/
  parse? : String → Option Json

namespace ConfigFormat

def toml : ConfigFormat := ⟨["toml"], Toml.ofText?⟩

def json : ConfigFormat := ⟨["json"], fun text => (Codec.json.ofText text).toOption⟩

/-- The formats for which there are readers here. A program may be given readers of others. -/
def standard : List ConfigFormat := [toml, json]

/-- The format of a file, by the ending of its name. A name that is all ending has none. -/
def ofPath? (formats : List ConfigFormat) (path : String) : Option ConfigFormat :=
  let name := ((Text.split '/' path.toList).getLast?).getD []
  let ending := (name.reverse.takeWhile (· ≠ '.')).reverse
  if ending.length + 1 < name.length then
    formats.find? fun format => String.ofList ending ∈ format.endings
  else none

/-- The paths at which the file at a path is looked for if there is none, with their formats. -/
def alternatives (formats : List ConfigFormat) (path : String) : List (ConfigFormat × String) :=
  formats.flatMap fun format => format.endings.map fun ending => (format, path ++ "." ++ ending)

end ConfigFormat

/-- The text without a byte order mark in front. -/
def withoutMark (text : String) : String :=
  match text.toList with
  | '\ufeff' :: cs => String.ofList cs
  | _ => text

/-- The settings of a text; a key with dots or brackets is a path. -/
def fileEntries? (format : ConfigFormat) (text : String) : Option (List (List PathStep × Json)) :=
  match format.parse? (withoutMark text) with
  | some (.object members) => some (members.map fun (key, v) => (keyPath key, v))
  | _ => none

/-- The format and the text of the file at a path, whose ending may be left out. -/
def findConfig (formats : List ConfigFormat) (read : String → Except FileError String)
    (path : String) : Except ConfigError (ConfigFormat × String) :=
  match read path with
  | .ok text =>
    match ConfigFormat.ofPath? formats path with
    | some format => .ok (format, text)
    | none => .error (.unknownFormat path)
  | .error _ =>
    let found := (ConfigFormat.alternatives formats path).findSome? fun (format, path) =>
      (read path).toOption.map fun text => (format, text)
    match found with
    | some r => .ok r
    | none => .error (.unreadable path)

/-- The paths where the file at a path is looked for. -/
def configPaths (formats : List ConfigFormat) (path : String) : List String :=
  path :: (ConfigFormat.alternatives formats path).map (·.2)

/-- Loads the settings, given how files are read and of which formats they may be. -/
def EngineConfig.load (read : String → Except FileError String) (path? : Option String)
    (env : Environment) (formats : List ConfigFormat := ConfigFormat.standard) :
    Except ConfigError EngineConfig := do
  let file ← match path? with
    | none => pure []
    | some path => do
      let (format, text) ← findConfig formats read path
      match fileEntries? format text with
      | some entries => pure entries
      | none => throw (.malformed path)
  EngineConfig.ofLayers (layered (file ++ env.entries))

end CampaignRouting
