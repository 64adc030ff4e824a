import HandlerComplexity.Number.Numeral
import HandlerComplexity.Text.Quoted

/-!
# Command-line arguments

The command `measure` takes a path and options. A long option may be abbreviated as long as it stays
clear, and its value follows it or stands behind an equals sign. Short options can be written together.
Everything behind two dashes is no option.

* `Arguments.parse`: what the arguments ask for, or why they are refused.
-/

namespace HandlerComplexity.Command

/-! ## Options -/

inductive Switch
  | help
  | config
  | format
  | output
  | workers
  | failFast
  | verbose
deriving DecidableEq, Repr

namespace Switch

def names : Switch → List String
  | help => ["-h", "--help"]
  | config => ["--config"]
  | format => ["--format"]
  | output => ["--output"]
  | workers => ["--workers"]
  | failFast => ["--fail-fast"]
  | verbose => ["-v", "--verbose"]

def takesValue : Switch → Bool
  | config | format | output | workers => true
  | help | failFast | verbose => false

/-- How an option is named in a message. -/
def label (s : Switch) : String := "/".intercalate s.names

end Switch

/-- The options of the command. -/
def measureSwitches : List Switch :=
  [.help, .config, .format, .output, .workers, .failFast, .verbose]

/-- The options before the command. -/
def topSwitches : List Switch := [.help]

/-- The names of options, in order, with what they name. -/
def namesOf (switches : List Switch) : List (String × Switch) :=
  switches.flatMap fun s => s.names.map fun n => (n, s)

/-! ## Misuse -/

/-- The names of the report formats. -/
def formatNames : List String := ["csv", "json", "text"]

def commandNames : List String := ["measure"]

/-- Why arguments are refused. -/
inductive Misuse
  | ambiguous (argument : String) (matching : List String)
  | ignoredValue (s : Switch) (value : String)
  | missingValue (s : Switch)
  | badWorkers (value : String)
  | badFormat (value : String)
  | badCommand (value : String)
  | noCommand
  | unrecognized (arguments : List String)
deriving DecidableEq, Repr

/-- What is said of a value that is not one of the choices. -/
def badChoice (value : String) (choices : List String) : String :=
  "invalid choice: " ++ Text.quoted value ++ " (choose from " ++
    ", ".intercalate (choices.map Text.quoted) ++ ")"

def Misuse.message : Misuse → String
  | ambiguous argument matching =>
    "ambiguous option: " ++ argument ++ " could match " ++ ", ".intercalate matching
  | ignoredValue s value =>
    "argument " ++ s.label ++ ": ignored explicit argument " ++ Text.quoted value
  | missingValue s => "argument " ++ s.label ++ ": expected one argument"
  | badWorkers value =>
    "argument " ++ Switch.workers.label ++ ": invalid int value: " ++ Text.quoted value
  | badFormat value => "argument " ++ Switch.format.label ++ ": " ++ badChoice value formatNames
  | badCommand value => "argument command: " ++ badChoice value commandNames
  | noCommand => "the following arguments are required: command"
  | unrecognized arguments => "unrecognized arguments: " ++ " ".intercalate arguments

/-- The name of the program, alone or with its command. -/
inductive Program
  | top
  | measure
deriving DecidableEq, Repr

def Program.name : Program → String
  | top => "hccscan"
  | measure => "hccscan measure"

/-- Why nothing is run: help was asked for, or the arguments were refused. -/
inductive Stop
  | help (p : Program)
  | misuse (p : Program) (m : Misuse)
deriving DecidableEq, Repr

namespace Stop

def exitCode : Stop → Nat
  | help _ => 0
  | misuse .. => 2

/-- The complaint about the arguments; there is none when help was asked for. -/
def message : Stop → String
  | help _ => ""
  | misuse p m => p.name ++ ": error: " ++ m.message

end Stop

/-! ## Words -/

/-- An argument read as an option: what it names, under which name, and a value that is part of it. -/
structure OptionWord where
  switch : Option Switch
  name : String
  value : Option (List Char) := none

inductive Word
  | plain (text : String)
  | separator
  | option (text : String) (o : OptionWord)

def Word.text : Word → String
  | plain text => text
  | separator => "--"
  | option text _ => text

/-- Whether a text reads like a negative number; one line end behind it does not count. -/
def isNegativeNumber (cs : List Char) : Bool :=
  let isDigit (c : Char) : Bool := (Text.digitValue? c).isSome
  let body := if cs.getLast? = some '\n' then cs.dropLast else cs
  match body with
  | '-' :: digits =>
    match digits.dropWhile isDigit with
    | [] => !digits.isEmpty
    | '.' :: fraction => !fraction.isEmpty && fraction.all isDigit
    | _ => false
  | _ => false

/-- A text cut at its first equals sign. -/
def cutAtEquals (cs : List Char) : List Char × Option (List Char) :=
  let front := cs.takeWhile (· != '=')
  match cs.dropWhile (· != '=') with
  | [] => (front, none)
  | _ :: value => (front, some value)

/-- The options that an argument can abbreviate, or begin with if it has a single dash. -/
def candidates (switches : List Switch) (cs : List Char) : List OptionWord :=
  if cs.take 2 = ['-', '-'] then
    let (front, value) := cutAtEquals cs
    (namesOf switches).filterMap fun (name, s) =>
      if front.isPrefixOf name.toList then some ⟨some s, name, value⟩ else none
  else
    (namesOf switches).filterMap fun (name, s) =>
      if name.toList = cs.take 2 then some ⟨some s, name, some (cs.drop 2)⟩
      else if cs.isPrefixOf name.toList then some ⟨some s, name, none⟩
      else none

/-- How an argument is read. One that begins with a dash but names no option is an unknown option,
unless it reads like a negative number or holds a blank. -/
def readWord (switches : List Switch) (text : String) : Except Misuse Word :=
  let cs := text.toList
  let (front, value) := cutAtEquals cs
  if cs.head? ≠ some '-' then .ok (.plain text)
  else
    match (namesOf switches).lookup text with
    | some s => .ok (.option text ⟨some s, text, none⟩)
    | none =>
      if cs.length = 1 then .ok (.plain text)
      else
        match (namesOf switches).lookup (String.ofList front), value with
        | some s, some value => .ok (.option text ⟨some s, String.ofList front, some value⟩)
        | _, _ =>
          match candidates switches cs with
          | [o] => .ok (.option text o)
          | o :: os => .error (.ambiguous text ((o :: os).map (·.name)))
          | [] =>
            if isNegativeNumber cs || cs.contains ' ' then .ok (.plain text)
            else .ok (.option text ⟨none, text, none⟩)

def readWords (switches : List Switch) : List String → Except Misuse (List Word)
  | [] => .ok []
  | text :: rest =>
    if text = "--" then .ok (.separator :: rest.map .plain)
    else do
      let w ← readWord switches text
      let ws ← readWords switches rest
      return w :: ws

/-! ## Options in one word -/

/-- What one word asks for: options with their values, and an option whose value is the next word. -/
structure Cluster where
  requests : List (Switch × String) := []
  pending : Option Switch := none

/-- An option without a value of its own. -/
def Cluster.ofSwitch (s : Switch) : Cluster :=
  if s.takesValue then { pending := some s } else { requests := [(s, "")] }

def Cluster.add (s : Switch) (c : Cluster) : Cluster := { c with requests := (s, "") :: c.requests }

/-- An option with what is written behind its name. Behind a short option that takes no value, further
short options can follow; what follows must then be one. -/
def cluster (switches : List Switch) (s : Switch) (isShort : Bool) :
    List Char → Except Misuse Cluster
  | [] =>
    if s.takesValue then .ok { requests := [(s, "")] } else .error (.ignoredValue s "")
  | c :: cs =>
    if s.takesValue then .ok { requests := [(s, String.ofList (c :: cs))] }
    else
      match isShort, (namesOf switches).lookup (String.ofList ['-', c]) with
      | true, some t =>
        if cs.isEmpty then .ok ((Cluster.ofSwitch t).add s)
        else (cluster switches t true cs).map (·.add s)
      | _, _ => .error (.ignoredValue s (String.ofList (c :: cs)))

/-- What an option word asks for. -/
def OptionWord.cluster (switches : List Switch) (s : Switch) (o : OptionWord) :
    Except Misuse Cluster :=
  match o.value with
  | none => .ok (.ofSwitch s)
  | some value => Command.cluster switches s (o.name.toList[1]? ≠ some '-') value

/-! ## Arguments -/

/-- What is asked for. -/
structure Arguments where
  path : String := "."
  config : Option String := none
  format : Option String := none
  output : Option String := none
  workers : Option Int := none
  failFast : Bool := false
  verbosity : Nat := 0
deriving DecidableEq, Repr

/-- Do what an option asks for. -/
def Arguments.apply (a : Arguments) (s : Switch) (value : String) : Except Stop Arguments :=
  match s with
  | .help => .error (.help .measure)
  | .config => .ok { a with config := some value }
  | .format =>
    if formatNames.contains value then .ok { a with format := some value }
    else .error (.misuse .measure (.badFormat value))
  | .output => .ok { a with output := some value }
  | .workers =>
    match Numeral.integer 10 value.toList with
    | .ok n => .ok { a with workers := some n }
    | .error _ => .error (.misuse .measure (.badWorkers value))
  | .failFast => .ok { a with failFast := true }
  | .verbose => .ok { a with verbosity := a.verbosity + 1 }

/-- What has been read of the arguments of the command. -/
structure Progress where
  arguments : Arguments := {}
  hasPath : Bool := false
  /-- The words that nothing was made of. -/
  extras : List String := []

namespace Progress

def addExtra (p : Progress) (text : String) : Progress := { p with extras := p.extras ++ [text] }

def takePath (p : Progress) (text : String) : Progress :=
  { p with arguments := { p.arguments with path := text }, hasPath := true }

def applyAll (p : Progress) : List (Switch × String) → Except Stop Progress
  | [] => .ok p
  | (s, value) :: rest =>
    match p.arguments.apply s value with
    | .error e => .error e
    | .ok a => applyAll { p with arguments := a } rest

end Progress

/-- Read the words of the command. The first word that is no option is the path; a separator right
before or behind it goes with it. -/
def readMeasure (p : Progress) : List Word → Except Stop Progress
  | [] => .ok p
  | .option text o :: rest =>
    match o.switch with
    | none => readMeasure (p.addExtra text) rest
    | some s =>
      match o.cluster measureSwitches s with
      | .error m => .error (.misuse .measure m)
      | .ok c =>
        match c.pending, rest with
        | some t, .plain value :: rest =>
          match p.applyAll (c.requests ++ [(t, value)]) with
          | .error e => .error e
          | .ok p => readMeasure p rest
        | some t, _ => .error (.misuse .measure (.missingValue t))
        | none, rest =>
          match p.applyAll c.requests with
          | .error e => .error e
          | .ok p => readMeasure p rest
  | .plain text :: rest =>
    if p.hasPath then readMeasure (p.addExtra text) rest
    else
      match rest with
      | .separator :: rest => readMeasure (p.takePath text) rest
      | rest => readMeasure (p.takePath text) rest
  | .separator :: rest =>
    if p.hasPath then readMeasure (p.addExtra "--") rest
    else
      match rest with
      | .plain text :: rest => readMeasure (p.takePath text) rest
      | rest => readMeasure { p with hasPath := true } rest

/-- Read the words up to the command: the words that nothing was made of, and the command with
everything behind it. -/
def readTop (extras : List String) : List Word → Except Stop (List String × List String)
  | [] => .ok (extras, [])
  | .option text o :: rest =>
    match o.switch with
    | none => readTop (extras ++ [text]) rest
    | some s =>
      match o.cluster topSwitches s with
      | .error m => .error (.misuse .top m)
      | .ok _ => .error (.help .top)
  | [.separator] => .ok (extras ++ ["--"], [])
  | w :: rest => .ok (extras, (w :: rest).map Word.text)

/-- What the arguments ask for. -/
def Arguments.parse (args : List String) : Except Stop Arguments := do
  let words ← (readWords topSwitches args).mapError (.misuse .top)
  match ← readTop [] words with
  | (_, []) => throw (.misuse .top .noCommand)
  | (extras, command :: rest) =>
    if !commandNames.contains command then throw (.misuse .top (.badCommand command))
    let words ← (readWords measureSwitches rest).mapError (.misuse .measure)
    let p ← readMeasure {} words
    match extras ++ p.extras with
    | [] => return p.arguments
    | unknown => throw (.misuse .top (.unrecognized unknown))

end HandlerComplexity.Command
