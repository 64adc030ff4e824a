import HandlerComplexity.ClassUnit
import HandlerComplexity.Document
import HandlerComplexity.Path
import HandlerComplexity.Text.Glob

/-!
# Eligibility

Which classes are measured. A policy can leave out generated classes, tests, and classes whose
qualified name matches a pattern; it checks them in that order.

A class is a test if one of the directories above its file is a test directory, or if its simple name
reads like the name of a test.
-/

namespace HandlerComplexity

/-! ## Tests -/

/-- The names of test directories, in any letter case. -/
def testDirectories : List String := ["test", "tests", "__tests__", "testing"]

/-- Lower case of the ASCII letters. No other letter has a test directory's letter for its lower
case, so nothing more is needed. -/
def lowerAscii (s : String) : String := String.ofList (s.toList.map Char.toLower)

/-- Without one line end at the end. -/
def dropFinalNewline (cs : List Char) : List Char :=
  if cs.getLast? = some '\n' then cs.dropLast else cs

/-- Whether a name begins with `Test` and a capital letter, digit or underscore. -/
def beginsLikeTest : List Char → Bool
  | 'T' :: 'e' :: 's' :: 't' :: c :: _ => c.isUpper || c.isDigit || c == '_'
  | _ => false

/-- Whether a name ends in `Test`, in `Tests`, or in `IT` after a small letter or a digit. -/
def endsLikeTest (cs : List Char) : Bool :=
  match cs.reverse with
  | 't' :: 's' :: 'e' :: 'T' :: _ => true
  | 's' :: 't' :: 's' :: 'e' :: 'T' :: _ => true
  | 'T' :: 'I' :: c :: _ => c.isLower || c.isDigit
  | _ => false

/-- Whether a name reads like the name of a test. -/
def isTestName (name : String) : Bool :=
  beginsLikeTest name.toList || endsLikeTest (dropFinalNewline name.toList)

/-- Whether a file lies below a test directory. -/
def isTestPath (path : String) : Bool :=
  (Path.ofString path).components.dropLast.any fun part => testDirectories.contains (lowerAscii part)

def ClassUnit.isTest (u : ClassUnit) : Bool :=
  isTestPath u.path || isTestName u.simpleName

/-! ## Policies -/

/-- A policy. Its switches count by whether they hold, and its patterns are checked only when they
are used, because they come from a document. -/
structure Policy where
  excludeTests : Document := .ofBool true
  excludeGenerated : Document := .ofBool true
  patterns : List Document := []

/-- Why a policy cannot be made or used. -/
inductive PolicyError
  /-- The section is not a mapping. -/
  | notMapping
  /-- The patterns are not a collection. -/
  | notCollection
  /-- A pattern is not a text. -/
  | notText
deriving DecidableEq, Repr

namespace Policy

/-- The members of a collection: the characters of a text, the numbers of bytes, the keys of a
mapping. -/
def members? : Document → Option (List Document)
  | .scalar (.text s) => some (s.toList.map fun c => .ofText (String.singleton c))
  | .scalar (.broken ps) => some (ps.map fun p => .scalar (.ofPoints [p]))
  | .scalar (.bytes bs) => some (bs.map fun b => .ofInt b.toNat)
  | .scalar _ => none
  | .list items => some items
  | .map entries => some (entries.map fun e => .scalar e.1)
  | .set items => some (items.map .scalar)
  | .pair first second => some [first, second]

/-- The policy a section of a configuration asks for. -/
def ofSection : Document → Except PolicyError Policy
  | .map entries =>
    let entry (key : String) (default : Document) : Document :=
      (Document.get? (.text key) entries).getD default
    let patterns := entry "exclude_patterns" (.list [])
    match if patterns.holds then members? patterns else some [] with
    | none => .error .notCollection
    | some ps =>
      .ok ⟨entry "exclude_tests" (.ofBool true), entry "exclude_generated" (.ofBool true), ps⟩
  | _ => .error .notMapping

/-- Whether one of the patterns matches a name. -/
def matchesAny (name : String) : List Document → Except PolicyError Bool
  | [] => .ok false
  | .scalar s :: ps =>
    match s.points? with
    | some pattern => if Glob.matchesText pattern name then .ok true else matchesAny name ps
    | none => .error .notText
  | _ :: _ => .error .notText

/-- Whether a class is measured. -/
def accepts (p : Policy) (u : ClassUnit) : Except PolicyError Bool :=
  if p.excludeGenerated.holds && u.generated then .ok false
  else if p.excludeTests.holds && u.isTest then .ok false
  else (matchesAny u.qualifiedName p.patterns).map not

end Policy

/-- Which classes are measured; every class, without a policy. -/
def eligible (policy : Option Policy) (u : ClassUnit) : Except PolicyError Bool :=
  match policy with
  | none => .ok true
  | some p => p.accepts u

end HandlerComplexity
