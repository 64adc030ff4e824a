import HandlerComplexity.Command.Arguments
import HandlerComplexity.ConfigFile
import HandlerComplexity.Scan

/-!
# Running the command

A run reads the configuration, scans the path and writes the report. It ends with one of three codes:
all is well, something could not be measured, or the configuration is wrong.
-/

namespace HandlerComplexity.Command

/-! ## Log levels -/

/-- Why the name of a log level is refused. -/
inductive LevelError
  /-- The name is taken by a text. -/
  | text (value : String)
  /-- The name is taken by something that is neither a number nor a text. -/
  | other
deriving DecidableEq, Repr

def LevelError.message : LevelError → String
  | text value => "Unknown level: " ++ Text.quoted value
  | other => "the level is not a number"

/-- The threshold of a level. Two names are taken by other things, and a name that is not taken stands
for warnings. -/
def threshold (name : Text.Points) : Except LevelError Nat :=
  match ((Text.chars? name).map String.ofList).getD "" with
  | "CRITICAL" | "FATAL" => .ok 50
  | "ERROR" => .ok 40
  | "WARNING" | "WARN" => .ok 30
  | "INFO" => .ok 20
  | "DEBUG" => .ok 10
  | "NOTSET" => .ok 0
  | "BASIC_FORMAT" => .error (.text "%(levelname)s:%(name)s:%(message)s")
  | "_STYLES" => .error .other
  | _ => .ok 30

/-- The threshold that the command line asks for, or else the configuration. -/
def thresholdFor (verbosity : Nat) (name : Text.Points) : Except LevelError Nat :=
  if 2 ≤ verbosity then .ok 10
  else if verbosity = 1 then .ok 20
  else threshold name

/-- An entry as a line, behind the time. -/
def logLine (time : String) (e : Log.Entry) : String :=
  time ++ " " ++ e.level.name ++ " " ++ e.source.name ++ ": " ++ e.message ++ "\n"

/-! ## Outcomes -/

/-- A failure that the command does not handle. -/
inductive Crash
  | load (e : LoadError)
  | config (e : ConfigError)
  | level (e : LevelError)
  | scan (e : ScanError)
  /-- The format cannot be looked up. -/
  | badFormat
  | report (e : ReportError)
  | write (p : Path) (e : Workspace.WriteError)

def Crash.message : Crash → String
  | load e => e.message
  | config e => e.message
  | level e => e.message
  | scan (.config e) => e.message
  | scan (.policy e) => (Failure.policy e).message
  | scan (.refused r) => r.message
  | scan (.grammar e) => e.message
  | scan (.nameless p) => p.emptyNameMessage
  | scan (.measuring f) => f.message
  | badFormat => "the report format is not a name"
  | report .tooLarge => "a value is too large"
  | write p e => e.message p

/-- A file that was written. -/
structure Written where
  path : Path
  place : Place
  text : String

/-- A run that came to its end. -/
structure Finished where
  exitCode : Nat
  stdout : String := ""
  /-- The log entries that are shown. -/
  log : Log := []
  /-- What is said when the run fails. -/
  complaint : Option String := none
  written : Option Written := none

/-- The text on the error stream. -/
def Finished.stderr (time : String) (f : Finished) : String :=
  String.join (f.log.map (logLine time)) ++
    match f.complaint with
    | some message => Program.top.name ++ ": " ++ message ++ "\n"
    | none => ""

inductive Outcome
  | stopped (s : Stop)
  | finished (f : Finished)
  | crashed (c : Crash)

/-! ## The run -/

/-- The overrides that the command line makes. -/
def Arguments.engineEntries (a : Arguments) : Entries :=
  (match a.workers with
    | some n => [(Config.key "max_workers", .ofInt n)]
    | none => []) ++
  if a.failFast then [(Config.key "fail_fast", .ofBool true)] else []

/-- The configuration that the command line asks for. -/
def Arguments.configure (a : Arguments) (w : Workspace) : Except LoadError Config := do
  let c ← Config.load w a.config
  let c := match a.engineEntries with
    | [] => c
    | entries => c.overlay [(Config.key "engine", .map entries)]
  let _ ← c.maxWorkers.mapError .config
  return c

/-- Whether a failure to load is reported as one of the configuration. -/
def isReportedLoad : LoadError → Bool
  | .notFound _ => true
  | .config e => e.isReported
  | e => e.isFormat

/-- The text of a failure to scan that is reported, none for one that is not handled. -/
def reportedScan? : ScanError → Option String
  | .grammar e => some e.message
  | .refused r => some r.message
  | .measuring f => if f.isOfClass then some f.message else none
  | .config e => if e.isReported then some e.message else none
  | .policy _ | .nameless _ => none

/-- The name of the format. What can be looked up but is no text names no format. -/
def formatOf (a : Arguments) (c : Config) : Except Crash String :=
  match a.format with
  | some format => .ok format
  | none =>
    match c.setting? "reporting" "format" with
    | .error e => .error (.config e)
    | .ok none => .ok "text"
    | .ok (some (.scalar (.text format))) => .ok format
    | .ok (some d) => if d.canBeElement then .ok "text" else .error .badFormat

/-- The report in a format; an unknown format stands for lines. -/
def render (format : String) (r : Report) : Except ReportError String :=
  if format = "json" then .ok r.toJson
  else if format = "csv" then r.toCsv
  else r.toText

def isShown (threshold : Nat) (e : Log.Entry) : Bool := threshold ≤ e.level.rank

/-- Write the report where it is asked for. -/
def deliver (a : Arguments) (w : Workspace) (log : Log) (r : Report) (text : String) : Outcome :=
  let exitCode := if r.ok then 0 else 1
  match a.output.filter (· ≠ "") with
  | none => .finished { exitCode := exitCode, stdout := text, log := log }
  | some output =>
    let path := Path.ofString output
    match w.write path text.toUTF8.toList with
    | .error e => .crashed (.write path e)
    | .ok (_, place) =>
      .finished { exitCode := exitCode, log := log, written := some ⟨path, place, text⟩ }

/-- Scan and report. -/
def measure (schedule : Schedule) (w : Workspace) (g : Grammars) (a : Arguments) (c : Config)
    (threshold : Nat) : Outcome :=
  let (p, result) := scan schedule w g c a.path .empty
  let log := p.log.filter (isShown threshold)
  match result with
  | .error e =>
    match reportedScan? e with
    | some message => .finished { exitCode := 1, log := log, complaint := some message }
    | none => .crashed (.scan e)
  | .ok r =>
    match formatOf a c with
    | .error e => .crashed e
    | .ok format =>
      match render format r with
      | .error e => .crashed (.report e)
      | .ok text => deliver a w log r text

/-- Run the command with its arguments. -/
def run (schedule : Schedule) (w : Workspace) (g : Grammars) (args : List String) : Outcome :=
  match Arguments.parse args with
  | .error s => .stopped s
  | .ok a =>
    match a.configure w with
    | .error e =>
      if isReportedLoad e then .finished { exitCode := 2, complaint := some e.message }
      else .crashed (.load e)
    | .ok c =>
      match c.logLevel with
      | .error e => .crashed (.config e)
      | .ok name =>
        match thresholdFor a.verbosity name with
        | .error e => .crashed (.level e)
        | .ok threshold => measure schedule w g a c threshold

end HandlerComplexity.Command
