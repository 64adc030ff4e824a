import HandlerComplexity.Document
import HandlerComplexity.Language
import HandlerComplexity.Workspace

/-!
# Finding source files

The files below a directory whose extension belongs to an enabled language and which do not lie in a
directory of build products, dependencies or tools. A path to a file stands for that file alone. The
search ends early at the first entry of which the system does not say what it is.
-/

namespace HandlerComplexity

/-- The names of directories that are not entered. -/
def ignoredDirectories : List String :=
  [".git", ".hg", ".svn", ".idea", ".vscode", ".venv", "venv", "__pycache__", "node_modules",
    "dist", "build", "target", "vendor", "bin", "obj", "out"]

/-- Whether a file with this path from the root lies in a directory that is not entered. -/
def isIgnored (relative : Place) : Bool :=
  relative.dropLast.any ignoredDirectories.contains

/-- Whether a file is in one of the languages. -/
def isEnabled (languages : List Scalar) (p : Path) : Bool :=
  match Language.ofPath? p.toString with
  | none => false
  | some l => languages.contains (.text l.name)

/-- The order of paths: by their first parts, then by the next. -/
def placeLe : Place → Place → Bool
  | [], _ => true
  | _ :: _, [] => false
  | a :: as, b :: bs => if a = b then placeLe as bs else decide (a ≤ b)

/-- What a search has come to: the source files in order, and what ended it early. -/
structure Discovery where
  files : List Path := []
  refusal : Option Refusal := none
deriving DecidableEq, Repr

/-- Whether the entry below a root is a source file of one of the languages, outside of the directories
that are not entered. -/
def isSource (w : Workspace) (root : Path) (place : Place) (languages : List Scalar) (rel : Place) : Bool :=
  (w.file? (place ++ rel)).isSome && !isIgnored rel && isEnabled languages (root.append rel)

/-- Look at the entries below a root one after the other, up to the first one of which the system does
not say what it is. -/
def look (w : Workspace) (root : Path) (place : Place) (languages : List Scalar) : List Place → Discovery
  | [] => {}
  | rel :: rels =>
    match w.entryRefusal? root place rel with
    | some r => { refusal := some r }
    | none =>
      let rest := look w root place languages rels
      if isSource w root place languages rel then
        { rest with files := root.append rel :: rest.files }
      else rest

/-- Search below a directory. All entries are listed before the first one is looked at, and a directory
whose path is too long cannot be listed. Which of several such directories comes first is up to the disk;
here it is the first one in order. -/
def searchDirectory (w : Workspace) (root : Path) (place : Place) (languages : List Scalar) : Discovery :=
  let entries := (w.entriesBelow place).mergeSort placeLe
  match entries.find? (w.isUnlistable root place) with
  | some rel => { refusal := some ⟨root.append rel, Absence.tooLong.reason⟩ }
  | none => look w root place languages entries

/-- Search for the source files that a root stands for. -/
def discover (w : Workspace) (root : Path) (languages : List Scalar) : Discovery :=
  match w.refusal? root, w.locate root with
  | some r, _ => { refusal := some r }
  | none, .ok (.inside place) =>
    match w.at? place with
    | some (.file _) => look w root place languages [[]]
    | some .directory => searchDirectory w root place languages
    | none => {}
  | none, _ => {}

/-- The source files that a root stands for, in order, as far as the search comes. -/
def sourceFiles (w : Workspace) (root : Path) (languages : List Scalar) : List Path :=
  (discover w root languages).files

/-- The same for a search that comes to its end. -/
def sourceFiles? (w : Workspace) (root : Path) (languages : List Scalar) : Option (List Path) :=
  if (discover w root languages).refusal.isSome then none else some (sourceFiles w root languages)

end HandlerComplexity
