import HandlerComplexity.Config
import HandlerComplexity.Discovery
import HandlerComplexity.PartialClass
import HandlerComplexity.Report
import HandlerComplexity.Source.Units

/-!
# Scanning

A scan reads the source files that a path stands for, puts the parts of classes together, measures
all classes and reports what the store then holds. A file that cannot be read or parsed is reported,
or ends the scan at once if that is asked for; a search that cannot be finished ends it in any case.
-/

namespace HandlerComplexity

/-- Why a scan has no report. -/
inductive ScanError
  | config (e : ConfigError)
  | policy (e : PolicyError)
  /-- The system does not say what the path leads to, or what an entry below it is. -/
  | refused (r : Refusal)
  | grammar (e : GrammarError)
  | nameless (p : Path)
  | measuring (f : Failure)

/-- What has been read of the source files. -/
structure Reading where
  units : List ClassUnit := []
  errors : List Trouble := []
  filesScanned : Nat := 0
  log : Log := []

namespace Reading

def warn (r : Reading) (message : String) : Reading :=
  { r with log := r.log ++ [⟨.warning, .engine, message⟩] }

/-- Note a file that cannot be read or parsed. -/
def reject (r : Reading) (path : String) (e : GrammarError) : Reading :=
  { r.warn ("Cannot parse " ++ path ++ ": " ++ e.message) with
    errors := r.errors ++ [⟨path, e.message⟩] }

/-- Note a parsed file, before its classes are known. -/
def accept (r : Reading) (f : SourceFile) : Reading :=
  let r := { r with filesScanned := r.filesScanned + 1 }
  if f.hasError then
    r.warn ("Syntax errors in " ++ f.path ++ "; handlers in damaged regions may be missed")
  else r

/-- Note the classes of a file. -/
def add (r : Reading) (f : SourceFile) (units : List ClassUnit) : Reading :=
  { r with units := r.units ++ units, log := r.log ++ [f.foundEntry units] }

end Reading

/-- Read and parse a file that was found. -/
def parseFile (w : Workspace) (g : Grammars) (p : Path) : Except GrammarError SourceFile :=
  let path := p.toString
  match w.read p with
  | .error reason => .error (.unreadable path reason)
  | .ok bytes => SourceFile.parse g (((Language.ofPath? path).map (·.name)).getD "") path bytes

/-- Read the source files one after the other. -/
def readFiles (w : Workspace) (g : Grammars) (failFast : Bool) (moduleRoot : String)
    (r : Reading) : List Path → Reading × Except ScanError Unit
  | [] => (r, .ok ())
  | p :: ps =>
    match parseFile w g p with
    | .error e =>
      if failFast then (r, .error (.grammar e))
      else readFiles w g failFast moduleRoot (r.reject p.toString e) ps
    | .ok f =>
      let r := r.accept f
      match f.units (some moduleRoot) with
      | .error p => (r, .error (.nameless p))
      | .ok units => readFiles w g failFast moduleRoot (r.add f units) ps

/-- Read what a search has found. What ended the search early comes up only behind the files. -/
def readFound (w : Workspace) (g : Grammars) (failFast : Bool) (moduleRoot : String) (d : Discovery) :
    Reading × Except ScanError Unit :=
  match readFiles w g failFast moduleRoot {} d.files with
  | (r, .error e) => (r, .error e)
  | (r, .ok ()) =>
    match d.refusal with
    | some x => (r, .error (.refused x))
    | none => (r, .ok ())

/-- The directory from which module names are counted: the root, or the one around it if the root is
no directory. -/
def moduleRootOf (w : Workspace) (root : Path) : Path :=
  match w.entry? root with
  | some .directory => root
  | _ => root.parent

/-- The measures of a store, each with the file of the first unit of its class. -/
def classMeasures (units : List ClassUnit) (store : Store) : List ClassMeasure :=
  store.items.flatMap fun (name, measures) =>
    let origin := units.find? (·.qualifiedName = name)
    measures.map fun m =>
      ⟨name, (origin.map (·.path)).getD "", (origin.map (·.language)).getD "", m⟩

def measuredEntry (c : Collected) (classes files errors : Nat) : Log.Entry :=
  ⟨.info, .engine, "Measured " ++ toString c.measured ++ " of " ++ toString classes ++
    " classes in " ++ toString files ++ " files (" ++ toString c.skipped ++ " skipped, " ++
    toString errors ++ " errors)"⟩

/-- What a scan needs of a configuration. -/
structure ScanSettings where
  policy : Policy
  failFast : Bool
  workers : Int
  languages : List Scalar

/-- The settings for a scan from a root; the first thing that is wrong is reported. -/
def ScanSettings.ofConfig (w : Workspace) (root : Path) (c : Config) :
    Except ScanError ScanSettings := do
  let policy ← (Policy.ofSection c.eligibility).mapError .policy
  let failFast ← c.failFast.mapError .config
  let workers ← c.workers.mapError .config
  if let some r := w.refusal? root then throw (.refused r)
  let languages ← c.languages.mapError .config
  return ⟨policy, failFast, workers, languages⟩

/-- Measure what was read. -/
def measureAll (schedule : Schedule) (s : ScanSettings) (store : Store) (r : Reading) :
    Progress × Except ScanError Report :=
  let (units, merging) := mergePartial r.units
  let collector : Collector :=
    { eligibility := eligible (some s.policy), workers := s.workers, failFast := s.failFast }
  let (p, result) := collect schedule collector store units
  let log := r.log ++ merging ++ p.log
  match result with
  | .error f => (⟨p.store, log⟩, .error (.measuring f))
  | .ok c =>
    let errors := r.errors ++ c.errors
    (⟨p.store, log ++ [measuredEntry c units.length r.filesScanned errors.length]⟩,
      .ok {
        measures := classMeasures units p.store
        filesScanned := r.filesScanned
        classesFound := units.length
        skipped := c.skipped
        errors := errors })

/-- Scan what a path stands for: the store and the log afterwards, and the report. -/
def scan (schedule : Schedule) (w : Workspace) (g : Grammars) (c : Config) (path : String)
    (store : Store) : Progress × Except ScanError Report :=
  let root := Path.ofString path
  match ScanSettings.ofConfig w root c with
  | .error e => (⟨store, []⟩, .error e)
  | .ok s =>
    let found := discover w root s.languages
    match readFound w g s.failFast (moduleRootOf w root).toString found with
    | (r, .error e) => (⟨store, r.log⟩, .error e)
    | (r, .ok ()) => measureAll schedule s store r

end HandlerComplexity
