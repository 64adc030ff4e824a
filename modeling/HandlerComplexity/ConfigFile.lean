import HandlerComplexity.Config
import HandlerComplexity.Json.Read
import HandlerComplexity.Text.Utf8
import HandlerComplexity.Workspace
import HandlerComplexity.Yaml.Value

/-!
# Configuration files

A file whose name ends in `.json` is read as JSON, every other file as YAML. Whatever does not hold in
a YAML file, such as an empty text, stands for the empty mapping.
-/

namespace HandlerComplexity

/-- Why a configuration cannot be loaded. -/
inductive LoadError
  | notFound (path : String)
  | isDirectory (path : Path)
  | refused (r : Refusal)
  | notUtf8
  | badJson (path : String) (text : List Char) (failure : Json.Failure)
  | badYaml (path : String) (fault : Yaml.Fault)
  | config (e : ConfigError)

/-- What is said of a text that is no integer in a base. Only the beginning of a long text is shown. -/
def badIntegerMessage (base : Nat) (text : Text.Points) : String :=
  "invalid literal for int() with base " ++ toString base ++ ": " ++
    String.ofList ((Text.quotedPoints text).toList.take 200)

namespace LoadError

def unparsedMessage (path detail : String) : String :=
  "Cannot parse config file " ++ path ++ ": " ++ detail

/-- Whether the file was read but is not in its format. -/
def isFormat : LoadError → Bool
  | badJson _ _ f => match f.cause with
    | .tooLong _ => false
    | _ => true
  | badYaml _ .malformed => true
  | _ => false

def message : LoadError → String
  | notFound path => "Config file not found: " ++ path
  | isDirectory p => p.complaint isDirectoryReason
  | refused r => r.message
  | notUtf8 => "the config file is not in UTF-8"
  | badJson path text f => match f.cause with
    | .tooLong digits => Digits.tooLongMessage digits
    | _ => unparsedMessage path (f.message text)
  | badYaml path .malformed => unparsedMessage path ""
  | badYaml _ (.codePoint _) => "chr() arg not in range(0x110000)"
  | badYaml _ (.integer base text) => badIntegerMessage base text
  | badYaml _ (.tooLong digits) => Digits.tooLongMessage digits
  | badYaml _ (.real text) => "could not convert string to float: " ++ Text.quotedPoints text
  | badYaml _ (.truth text) => Text.quotedPoints text
  | badYaml _ .emptyNumber => "string index out of range"
  | badYaml _ .overflow => "int too large to convert to float"
  | badYaml _ (.calendar f) => f.message
  | badYaml _ .notTimestamp => "the text is no date"
  | badYaml _ .notText => "a date must be a text"
  | config e => e.message

end LoadError

namespace Config

/-- Every line end as a line feed. -/
def unifyLineEnds : List Char → List Char
  | '\r' :: '\n' :: cs => '\n' :: unifyLineEnds cs
  | '\r' :: cs => '\n' :: unifyLineEnds cs
  | c :: cs => c :: unifyLineEnds cs
  | [] => []

/-- Whether a path names a JSON file, in any letter case. -/
def isJsonPath (p : Path) : Bool := lowerAscii p.suffix = ".json"

/-- The document in a file of a given name. -/
def readDocument (path : String) (text : List Char) : Except LoadError Document :=
  if isJsonPath (Path.ofString path) then
    match Json.read { nonFinite := true, digitLimit := some Digits.limit } text with
    | .ok d => .ok d
    | .error f => .error (.badJson path text f)
  else
    match Yaml.read text with
    | .ok d => .ok (if d.holds then d else .map [])
    | .error f => .error (.badYaml path f)

/-- The configuration in a file, the default one without a path. -/
def load (w : Workspace) (path : Option String) : Except LoadError Config :=
  match path.filter (· ≠ "") with
  | none => .ok default
  | some path =>
    let p := Path.ofString path
    match w.refusal? p, w.entry? p with
    | some r, _ => .error (.refused r)
    | none, none => .error (.notFound path)
    | none, some .directory => .error (.isDirectory p)
    | none, some (.file bytes) =>
      match Text.Utf8.decode? bytes with
      | none => .error .notUtf8
      | some cs => do
        let d ← readDocument path (unifyLineEnds cs)
        (ofDocument d).mapError .config

end Config

end HandlerComplexity
