import CostBasis.Text.Basic
import CostBasis.Json.Reading
import CostBasis.Json.Parser
import CostBasis.Log
import CostBasis.Method
import CostBasis.Text.Quoted

/-!
# Settings

The settings of a session.  They come from a JSON text in which every field may be missing, and hold
only if the channel capacity is positive and the log level is one of the known ones.
-/

namespace CostBasis

def defaultChannelCapacity : Nat := 4096

/-- The settings of a session. -/
structure Settings where
  /-- The method of new positions. -/
  defaultMethod : Method := Method.default
  /-- The capacity of update channels. -/
  channelCapacity : Nat := defaultChannelCapacity
  /-- The name of the least level that is logged. -/
  logLevel : String := Level.info.name
  /-- Whether log lines are JSON. -/
  jsonLogs : Bool := false
deriving DecidableEq, Repr

/-- What is wrong with settings. -/
inductive SettingsError where
  /-- Their text is no JSON, or not of the right form. -/
  | malformed
  | zeroCapacity
  | unknownLevel (name : String)
deriving DecidableEq, Repr

def SettingsError.message : SettingsError → String
  | malformed => "Failed to deserialize configuration"
  | zeroCapacity => "update_channel_capacity must be positive"
  | unknownLevel name =>
    let known := ", ".intercalate (Level.all.map fun level => Text.quoted level.name)
    s!"Invalid log level '{name}', must be one of: [{known}]"

namespace Settings

def validate (s : Settings) : Except SettingsError Unit :=
  if s.channelCapacity = 0 then .error .zeroCapacity
  else if (Level.all.map Level.name).contains s.logLevel then .ok ()
  else .error (.unknownLevel s.logLevel)

def logs (s : Settings) (level : Level) : Bool :=
  Level.all.any fun least => least.name == s.logLevel && decide (least.rank ≤ level.rank)

/-! ## JSON -/

def fieldNames : List String :=
  ["default_cost_basis_method", "update_channel_capacity", "log_level", "json_logs"]

def toJson (s : Settings) : Json :=
  .record
    [("default_cost_basis_method", s.defaultMethod.toJson),
      ("update_channel_capacity", .count s.channelCapacity), ("log_level", .text s.logLevel),
      ("json_logs", .bool s.jsonLogs)]

/-- Reads settings from JSON, whether they hold or not. -/
def ofJson? (j : Json) : Option Settings := do
  let defaults : Settings := {}
  let fields ← j.fields? fieldNames
  let defaultMethod ←
    Json.optional? fields "default_cost_basis_method" Method.ofJson? defaults.defaultMethod
  let channelCapacity ←
    Json.optional? fields "update_channel_capacity" Json.count? defaults.channelCapacity
  let logLevel ← Json.optional? fields "log_level" Json.text? defaults.logLevel
  let jsonLogs ← Json.optional? fields "json_logs" Json.bool? defaults.jsonLogs
  return { defaultMethod, channelCapacity, logLevel, jsonLogs }

def parse (s : String) : Except SettingsError Settings :=
  match (Json.parse? s).bind ofJson? with
  | none => .error .malformed
  | some settings => do
    settings.validate
    return settings

end Settings

/-! ## Loading -/

/-- Why settings cannot be loaded. -/
inductive LoadError where
  /-- There is no such file, or it is no text. -/
  | unreadable (path : String)
  | invalidFile (path : String) (error : SettingsError)
  /-- The settings do not hold with the options that override them. -/
  | invalid (error : SettingsError)
deriving DecidableEq, Repr

def LoadError.messages : LoadError → List String
  | unreadable path => [s!"Failed to read configuration {path}"]
  | invalidFile path error => [s!"Invalid configuration {path}", error.message]
  | invalid error => [error.message]

/-- Options that override settings. -/
structure Overrides where
  logLevel : Option String := none
  /-- Turns JSON log lines on, never off. -/
  jsonLogs : Bool := false
deriving DecidableEq, Repr

def Settings.override (s : Settings) (o : Overrides) : Settings :=
  { s with logLevel := o.logLevel.getD s.logLevel, jsonLogs := s.jsonLogs || o.jsonLogs }

/-- A file that may hold settings: its path, and its text if it can be read. -/
structure SettingsFile where
  path : String
  text : Option String
deriving DecidableEq, Repr

def SettingsFile.ofFile (path : String) (file : File) : SettingsFile := { path, text := file.text? }

def SettingsFile.settings (file : SettingsFile) : Except LoadError Settings :=
  match file.text with
  | none => .error (.unreadable file.path)
  | some text => (Settings.parse text).mapError (.invalidFile file.path)

/-- Loads settings: those of the file, which have to hold by themselves, or the defaults without a
file, and then the overrides. -/
def Settings.load (file : Option SettingsFile) (o : Overrides) : Except LoadError Settings := do
  let base ← match file with
    | some file => file.settings
    | none => pure {}
  let settings := base.override o
  settings.validate.mapError .invalid
  return settings

end CostBasis
