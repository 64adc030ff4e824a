import HandlerComplexity.Policy
import HandlerComplexity.Text.UpperCase

/-!
# Configuration

A configuration is the default document with other documents laid over it. Nothing is checked before
it is asked for.
-/

namespace HandlerComplexity

/-- Why a configuration cannot be made or asked. -/
inductive ConfigError
  /-- The document is not a mapping. -/
  | notMapping
  /-- The number of workers is not a positive integer. -/
  | badWorkers (value : Document)
  /-- A section is not a mapping. -/
  | badSection
  /-- The languages are not a collection that a set can be made of. -/
  | badLanguages
  /-- An override is for a section that cannot be overridden. -/
  | ownSection
  /-- A value holds an integer that is too long to be shown. -/
  | tooLong

/-- Whether the error is the user's to mend and is reported as such. -/
def ConfigError.isReported : ConfigError → Bool
  | notMapping | badWorkers _ => true
  | badSection | badLanguages | ownSection | tooLong => false

def ConfigError.message : ConfigError → String
  | notMapping => "Config document must be a mapping"
  | badWorkers value => "engine.max_workers must be a positive integer, got " ++ value.shown
  | badSection => "a section must be a mapping"
  | badLanguages => "languages must be a list"
  | ownSection => "this section cannot be overridden"
  | tooLong => Digits.tooLongToShowMessage

structure Config where
  entries : Entries

namespace Config

def key (name : String) : Scalar := .text name

def defaultEntries : Entries :=
  [(key "version", .ofInt 1),
    (key "languages", .map [(key "enabled", .list (["java", "csharp", "javascript", "typescript",
      "python"].map .ofText))]),
    (key "eligibility", .map [(key "exclude_tests", .ofBool true),
      (key "exclude_generated", .ofBool true), (key "exclude_patterns", .list [])]),
    (key "engine", .map [(key "max_workers", .ofInt 1), (key "fail_fast", .ofBool false)]),
    (key "reporting", .map [(key "format", .ofText "text")]),
    (key "logging", .map [(key "level", .ofText "WARNING")])]

def default : Config := ⟨defaultEntries⟩

/-- Lay a document over a configuration. -/
def overlay (c : Config) (layer : Entries) : Config := ⟨Document.overlay c.entries layer⟩

/-- Override sections of a configuration. The name `self` stands for the configuration itself, so that
no section of that name can be overridden. -/
def withOverrides (c : Config) (layer : Entries) : Except ConfigError Config :=
  if (Document.get? (key "self") layer).isSome then .error .ownSection else .ok (c.overlay layer)

/-- The configuration of a document: the document laid over the default. -/
def ofDocument : Document → Except ConfigError Config
  | .map layer => .ok (default.overlay layer)
  | _ => .error .notMapping

/-- A section as it stands, an empty mapping if there is none. -/
def sectionOf (c : Config) (name : String) : Document :=
  (Document.get? (key name) c.entries).getD (.map [])

/-- A setting of a section. -/
def setting? (c : Config) (name setting : String) : Except ConfigError (Option Document) :=
  match c.sectionOf name with
  | .map entries => .ok (Document.get? (key setting) entries)
  | _ => .error .badSection

/-! ## Settings -/

/-- The scalars among the elements of a set, none if something cannot be an element. -/
def scalarElements? (ds : List Document) : Option (List Scalar) :=
  if ds.all Document.canBeElement then
    some (ds.filterMap fun d => match d with
      | .scalar s => some s
      | _ => none)
  else none

/-- Without the scalars that are the same as an earlier one. -/
def distinct (xs : List Scalar) : List Scalar :=
  (xs.foldl (fun seen x => if seen.any (·.same x) then seen else x :: seen) []).reverse

/-- The enabled languages, each once. A pair is the name of no language. -/
def languages (c : Config) : Except ConfigError (List Scalar) :=
  match c.setting? "languages" "enabled" with
  | .error e => .error e
  | .ok enabled =>
    match (Policy.members? (enabled.getD (.list []))).bind scalarElements? with
    | none => .error .badLanguages
    | some members => .ok (distinct members)

def eligibility (c : Config) : Document := c.sectionOf "eligibility"

/-- The complaint about a number of workers, if it can be shown. -/
def badWorkers (value : Document) : ConfigError :=
  if value.canBeShown then .badWorkers value else .tooLong

/-- The number of workers in the form in which it was given; a truth value counts as a number. -/
def maxWorkers (c : Config) : Except ConfigError Scalar :=
  match c.setting? "engine" "max_workers" with
  | .error e => .error e
  | .ok value =>
    let value := value.getD (.ofInt 1)
    match value with
    | .scalar s =>
      match s.toInt? with
      | some n => if 1 ≤ n then .ok s else .error (badWorkers value)
      | none => .error (badWorkers value)
    | _ => .error (badWorkers value)

/-- The number of workers. -/
def workers (c : Config) : Except ConfigError Int :=
  c.maxWorkers.map fun s => s.toInt?.getD 1

/-- Whether the first failure ends a scan. -/
def failFast (c : Config) : Except ConfigError Bool :=
  (c.setting? "engine" "fail_fast").map fun value => (value.getD (.ofBool false)).holds

def reporting (c : Config) : Document := c.sectionOf "reporting"

/-- The name of the log level in capitals. -/
def logLevel (c : Config) : Except ConfigError Text.Points :=
  match c.setting? "logging" "level" with
  | .error e => .error e
  | .ok value =>
    let value := value.getD (.ofText "WARNING")
    if value.canBeShown then .ok (Text.upperPoints value.text) else .error .tooLong

end Config

end HandlerComplexity
