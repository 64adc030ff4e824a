import HandlerComplexity.Collect
import HandlerComplexity.Csv
import HandlerComplexity.Json.Write
import HandlerComplexity.Number.Fixed
import HandlerComplexity.Text.Blank

/-!
# Reports

What a scan found, and its three written forms: lines for people, JSON, and records separated by
commas.
-/

namespace HandlerComplexity

/-- A measure of a class, with the file and the language that the class came from. -/
structure ClassMeasure where
  name : String
  path : String
  language : String
  measure : Measure
deriving DecidableEq, Repr

structure Report where
  measures : List ClassMeasure
  filesScanned : Int
  classesFound : Int
  skipped : Int
  errors : List Trouble
deriving DecidableEq, Repr

/-- A whole number too large to be measured as a real number. -/
inductive ReportError
  | tooLarge
deriving DecidableEq, Repr

/-- A value in a report: whole numbers without a point, all others with two places. -/
def Value.reported : Value → Except ReportError String
  | .int i =>
    match Binary64.ofInt i with
    | .infinity _ => .error .tooLarge
    | _ => .ok (toString i)
  | .flag b => .ok (if b then "1" else "0")
  | .real x => .ok (if x.isWhole then toString x.toInt else x.twoPlaces)

namespace Report

/-- Whether the scan had no errors. -/
def ok (r : Report) : Bool := r.errors.isEmpty

/-! ## Lines -/

/-- The length of the longest class name. -/
def width (r : Report) : Nat := (r.measures.map (·.name.length)).foldl max 0

/-- A text filled up with blanks. -/
def pad (width : Nat) (s : String) : String :=
  s ++ String.ofList (List.replicate (width - s.length) ' ')

def measureLine (width : Nat) (m : ClassMeasure) : Except ReportError String :=
  m.measure.value.reported.map fun v =>
    pad width m.name ++ "  " ++ m.measure.metric.name ++ " " ++ v

def errorLine (t : Trouble) : String := "ERROR " ++ t.target ++ ": " ++ t.message

/-- Lines with an empty line behind them, if there are any. -/
def block (lines : List String) : List String := if lines.isEmpty then [] else lines ++ [""]

def summaryLines (r : Report) : List String :=
  ["Files scanned: " ++ toString r.filesScanned,
    "Classes found: " ++ toString r.classesFound,
    "Classes measured: " ++ toString (r.measures.map (·.name)).eraseDups.length,
    "Classes skipped: " ++ toString r.skipped,
    "Errors: " ++ toString r.errors.length]

def toText (r : Report) : Except ReportError String := do
  let measures ← r.measures.mapM (measureLine r.width)
  let lines := block measures ++ block (r.errors.map errorLine) ++ r.summaryLines
  return Text.trim ("\n".intercalate lines) ++ "\n"

/-! ## JSON -/

def fields (entries : List (String × Document)) : Document :=
  .map (entries.map fun e => (.text e.1, e.2))

def measureDocument (m : ClassMeasure) : Document :=
  fields [("class", .ofText m.name), ("path", .ofText m.path), ("language", .ofText m.language),
    ("metric", .ofText m.measure.metric.name), ("value", .scalar m.measure.value.toScalar)]

def errorDocument (t : Trouble) : Document :=
  fields [("target", .ofText t.target), ("message", .ofText t.message)]

def toDocument (r : Report) : Document :=
  fields [
    ("summary", fields [("files_scanned", .ofInt r.filesScanned),
      ("classes_found", .ofInt r.classesFound), ("skipped", .ofInt r.skipped),
      ("errors", .ofInt r.errors.length)]),
    ("measures", .list (r.measures.map measureDocument)),
    ("errors", .list (r.errors.map errorDocument))]

def toJson (r : Report) : String := Json.render r.toDocument

/-! ## Records -/

def header : List String := ["class", "metric", "value", "path"]

def measureRecord (m : ClassMeasure) : Except ReportError (List String) :=
  m.measure.value.reported.map fun v => [m.name, m.measure.metric.name, v, m.path]

def records (r : Report) : Except ReportError (List (List String)) :=
  (r.measures.mapM measureRecord).map (header :: ·)

def toCsv (r : Report) : Except ReportError String :=
  r.records.map fun rs => String.ofList (Csv.write rs)

end Report

end HandlerComplexity
