import CostBasis.Replay.Basic
import CostBasis.Replay.Mark

/-!
# The command line

`replay` takes a journal and prints a snapshot of each position and a summary, one JSON line each.
Positions are marked at the marks given, and otherwise at the last fill price of their symbol.  An
option is written `--name value`, `--name=value`, `-n value`, `-nvalue` or `-n=value`.
-/

namespace CostBasis.CommandLine

/-! ## Options -/

/-- Options without a value. -/
inductive Switch where
  | jsonLogs
  | strict
deriving DecidableEq, Repr

/-- Options with a value. -/
inductive Setting where
  | config
  | logLevel
  | input
  | method
  | mark
deriving DecidableEq, Repr

/-- Any option. -/
inductive Flag where
  | switch (s : Switch)
  | setting (s : Setting)
deriving DecidableEq, Repr

def longFlag? : String → Option Flag
  | "json-logs" => some (.switch .jsonLogs)
  | "strict" => some (.switch .strict)
  | "config" => some (.setting .config)
  | "log-level" => some (.setting .logLevel)
  | "input" => some (.setting .input)
  | "method" => some (.setting .method)
  | "mark" => some (.setting .mark)
  | _ => none

/-- The option of a one-letter name. -/
def shortSetting? : Char → Option Setting
  | 'c' => some .config
  | 'l' => some .logLevel
  | 'i' => some .input
  | 'm' => some .method
  | _ => none

/-- Why a command line is refused. -/
inductive UsageError where
  | unexpectedArgument (argument : String)
  | missingValue (setting : Setting)
  | unexpectedValue (switch : Switch)
  | repeated (flag : Flag)
  | missingInput
  | emptyPath (setting : Setting)
  | badMethod (message : String)
  | badMark (error : MarkError)
deriving DecidableEq, Repr

def Flag.name : Flag → String
  | switch .jsonLogs => "--json-logs"
  | switch .strict => "--strict"
  | setting .config => "--config"
  | setting .logLevel => "--log-level"
  | setting .input => "--input"
  | setting .method => "--method"
  | setting .mark => "--mark"

def UsageError.message : UsageError → String
  | unexpectedArgument argument => s!"unexpected argument '{argument}' found"
  | missingValue setting => s!"a value is required for '{(Flag.setting setting).name}'"
  | unexpectedValue switch => s!"no value is allowed for '{(Flag.switch switch).name}'"
  | repeated flag => s!"'{flag.name}' cannot be used more than once"
  | missingInput => s!"'{(Flag.setting .input).name}' is required"
  | emptyPath setting => s!"the value for '{(Flag.setting setting).name}' is empty"
  | badMethod message => s!"invalid value for '{(Flag.setting .method).name}': {message}"
  | badMark error => s!"invalid value for '{(Flag.setting .mark).name}': {error.message}"

/-! ## Arguments

Each option but `--mark` is given at most once, and a path is not empty.  A separate value may be a
dash but does not start with one. -/

/-- An option as it is given. -/
inductive Item where
  | switch (s : Switch)
  | setting (s : Setting) (value : String)
deriving DecidableEq, Repr

def Item.flag : Item → Flag
  | switch s => .switch s
  | setting s _ => .setting s

/-- Whether an argument can be the value of the option before it. -/
def isValue (argument : String) : Bool :=
  match argument.toList with
  | '-' :: _ :: _ => false
  | _ => true

/-- The head of an argument: an option and the value attached to it, or the end of the options. -/
inductive Head where
  | flag (f : Flag) (attached : Option String)
  | endOfOptions

/-- The head of an argument; none if it is no option. -/
def Head.of? (argument : String) : Option Head :=
  match argument.toList with
  | ['-', '-'] => some .endOfOptions
  | '-' :: '-' :: body => do
    let (name, attached) := match Mark.splitEquals body with
      | some (name, value) => (name, some (String.ofList value))
      | none => (body, none)
    some (.flag (← longFlag? (String.ofList name)) attached)
  | '-' :: c :: body => do
    let attached := match body with
      | [] => none
      | '=' :: value => some (String.ofList value)
      | value => some (String.ofList value)
    some (.flag (.setting (← shortSetting? c)) attached)
  | _ => none

def items : List String → Except UsageError (List Item)
  | [] => .ok []
  | argument :: rest =>
    match Head.of? argument with
    | none => .error (.unexpectedArgument argument)
    | some .endOfOptions =>
      match rest with
      | [] => .ok []
      | next :: _ => .error (.unexpectedArgument next)
    | some (.flag (.switch s) none) => do return .switch s :: (← items rest)
    | some (.flag (.switch s) (some _)) => .error (.unexpectedValue s)
    | some (.flag (.setting s) (some value)) => do return .setting s value :: (← items rest)
    | some (.flag (.setting s) none) =>
      match rest with
      | [] => .error (.missingValue s)
      | value :: rest =>
        if isValue value then do return .setting s value :: (← items rest)
        else .error (.missingValue s)

/-- What a command line asks for. -/
structure Arguments where
  /-- The path of the settings. -/
  config : Option String := none
  overrides : Overrides := {}
  /-- The path of the journal. -/
  input : String
  method : Option Method := none
  marks : List Mark := []
  strict : Bool := false

/-- Refuses an option given twice, marks apart. -/
def checkRepeats : List Item → Except UsageError Unit
  | [] => .ok ()
  | item :: rest =>
    if item.flag ≠ .setting .mark ∧ rest.any fun other => other.flag = item.flag then
      .error (.repeated item.flag)
    else checkRepeats rest

def valuesOf (setting : Setting) (given : List Item) : List String :=
  given.filterMap fun
    | .setting s value => if s = setting then some value else none
    | .switch _ => none

def path (setting : Setting) (given : List Item) : Except UsageError (Option String) :=
  match (valuesOf setting given).head? with
  | some "" => .error (.emptyPath setting)
  | value => .ok value

def Arguments.parse (arguments : List String) : Except UsageError Arguments := do
  let given ← items arguments
  checkRepeats given
  let config ← path .config given
  let method ← (valuesOf .method given).head?.mapM fun s =>
    (Method.parse s).mapError UsageError.badMethod
  let marks ← (valuesOf .mark given).mapM fun s => (Mark.parse s).mapError UsageError.badMark
  let some input ← path .input given | throw .missingInput
  return {
    config, input, method, marks
    overrides :=
      { logLevel := (valuesOf .logLevel given).head?
        jsonLogs := given.contains (.switch .jsonLogs) }
    strict := given.contains (.switch .strict) }

/-! ## Running -/

/-- Why a run fails. -/
inductive RunError where
  | usage (error : UsageError)
  | settings (error : LoadError)
  | cannotOpen (path : String)
  | stopped (stop : Stop)
  | noRecords
deriving DecidableEq

def RunError.exitCode : RunError → Nat
  | usage _ => 2
  | _ => 1

def RunError.messages : RunError → List String
  | usage error => [error.message]
  | settings error => error.messages
  | cannotOpen path => [s!"Failed to open {path}"]
  | stopped stop => stop.messages
  | noRecords => [noRecordsMessage]

/-- What a run prints. -/
inductive Print where
  | event (e : Event)
  | line (s : String)
deriving DecidableEq, Repr

/-- What a run leaves: what it printed, in order, and the error that it ended with. -/
structure Outcome where
  settings : Settings := {}
  output : List Print := []
  error : Option RunError := none

def Outcome.lines (o : Outcome) : List String :=
  o.output.filterMap fun
    | .line s => some s
    | .event _ => none

abbrev Files := String → File

/-- The lines of a report: snapshots, then the summary. -/
def reportLines (snapshots : List Snapshot) (summary : Summary) : List String :=
  snapshots.map (fun s => s.toJson.render) ++ [summary.toJson.render]

def Arguments.settings (a : Arguments) (files : Files) : Except LoadError Settings := do
  let file := a.config.map fun path => SettingsFile.ofFile path (files path)
  let settings ← Settings.load file a.overrides
  return { settings with defaultMethod := a.method.getD settings.defaultMethod }

def Arguments.report (a : Arguments) (replay : Replay) : List Print :=
  let prices := replay.lastPrices.withMarks a.marks
  let summary := replay.book.summary prices
  (reportLines (replay.book.snapshots prices) summary).map .line
    ++ (Book.summaryEvents summary ++ replay.stats.events summary).map .event

def Arguments.replay (a : Arguments) (files : Files) (settings : Settings) : Outcome :=
  let started : List Event := [⟨.info, "=== Ledger: Fill Replay ==="⟩, ⟨.info, s!"Input: {a.input}"⟩]
  match (files a.input).journal? with
  | none => { settings, output := started.map .event, error := some (.cannotOpen a.input) }
  | some lines =>
    let opened := Book.ofSettings settings
    let replay := opened.value.replayLines a.strict lines
    let output := (started ++ opened.events ++ replay.events.toList).map Print.event
    match replay.stop with
    | some stop => { settings, output, error := some (.stopped stop) }
    | none =>
      if replay.stats.HasRecords then { settings, output := output ++ a.report replay }
      else { settings, output, error := some .noRecords }

def run (files : Files) (arguments : List String) : Outcome :=
  match Arguments.parse arguments with
  | .error e => { error := some (.usage e) }
  | .ok a =>
    match a.settings files with
    | .error e => { error := some (.settings e) }
    | .ok settings => a.replay files settings

/-! ## Printing -/

def eventLine (json : Bool) (e : Event) : String :=
  if json then
    (Json.record [("level", .text e.level.label), ("message", .text e.message)]).render
  else s!"{e.level.label} {e.message}"

/-- All that a run shows: the lines of its report, and the events that its settings ask for. -/
def Outcome.shown (o : Outcome) : List String :=
  o.output.filterMap fun
    | .line s => some s
    | .event e => if o.settings.logs e.level then some (eventLine o.settings.jsonLogs e) else none

def Arguments.paths (a : Arguments) : List String := a.config.toList ++ [a.input]

end CostBasis.CommandLine
