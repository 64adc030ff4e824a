import HandlerComplexity.Path

/-!
# Workspaces

The files that a run can see, as a table from places to contents. A place is the list of names that
leads to it from the working directory, or from the root of the disk if it is known where on the disk
the working directory is. A directory is there if something is below it or if it is listed as empty.
One that is closed shows what it holds, but lets no path through.
-/

namespace HandlerComplexity

abbrev Place := List String

structure Workspace where
  files : List (Place × List UInt8) := []
  /-- Directories that need not have a file below them. -/
  directories : List Place := []
  /-- Files that are there but cannot be read as source, each with the reason that the system gives. -/
  unreadable : List (Place × String) := []
  /-- Directories that can be listed but not entered, each with the reason that the system gives. One that
  cannot be listed is as good as empty. -/
  closed : List (Place × String) := []
  /-- Where the working directory is, if places are counted from the root of the disk. -/
  home : Option Place := none

/-- What is at a place. -/
inductive Entry
  | file (bytes : List UInt8)
  | directory
deriving DecidableEq, Repr

/-- Why a path leads nowhere. -/
inductive Absence
  | noEntry
  | notDirectory
  /-- The path, or a name in it, is longer than any can be. -/
  | tooLong
  /-- The path holds a null character, which no path can. -/
  | nullChar
  /-- A directory on the way is closed, for the reason that the system gives. -/
  | closed (reason : String)
deriving DecidableEq, Repr

/-- What the system says of a path that leads nowhere. -/
def Absence.reason : Absence → String
  | noEntry => "[Errno 2] No such file or directory"
  | notDirectory => "[Errno 20] Not a directory"
  | tooLong => "[Errno 36] File name too long"
  | nullChar => "embedded null byte"
  | closed reason => reason

/-- What the system says of a directory that is opened as a file. -/
def isDirectoryReason : String := "[Errno 21] Is a directory"

/-- A path of which the system does not even say whether it leads somewhere, with the reason. -/
structure Refusal where
  path : Path
  reason : String
deriving DecidableEq, Repr

/-- What is said of a path for a reason. -/
def Path.complaint (p : Path) (reason : String) : String := reason ++ ": " ++ Text.quoted p.toString

def Refusal.message (r : Refusal) : String := r.path.complaint r.reason

namespace Workspace

def file? (w : Workspace) (place : Place) : Option (List UInt8) := w.files.lookup place

def isDirectory (w : Workspace) (place : Place) : Bool :=
  place.isEmpty || w.home.any (place.isPrefixOf ·) || w.directories.any (place.isPrefixOf ·) ||
    w.files.any fun f => place.isPrefixOf f.1 && place.length < f.1.length

/-- Where a path can lead: to a place in the table, or to a directory outside of it. -/
inductive Spot
  | inside (place : Place)
  | outside
deriving DecidableEq, Repr

/-- The most bytes that a name can have. -/
def nameLimit : Nat := 255

/-- The most bytes that a path can have. -/
def pathLimit : Nat := 4095

/-- One step along a path. Two dots lead back to the directory above. -/
def step (w : Workspace) (spot : Spot) (part : String) : Except Absence Spot :=
  match spot with
  | .outside =>
    if nameLimit < part.utf8ByteSize then .error .tooLong
    else if part = ".." then .ok .outside
    else .error .noEntry
  | .inside place =>
    if w.isDirectory place then
      match w.closed.lookup place with
      | some reason => .error (.closed reason)
      | none =>
        if nameLimit < part.utf8ByteSize then .error .tooLong
        else .ok (if part ≠ ".." then .inside (place ++ [part])
          else if place.isEmpty && w.home.isNone then .outside
          else .inside place.dropLast)
    else if (w.file? place).isSome then .error .notDirectory
    else .error .noEntry

/-- Where a path begins: at the working directory, or at the root of the disk. -/
def start (w : Workspace) (p : Path) : Spot :=
  if p.root = "" then .inside (w.home.getD [])
  else if w.home.isSome then .inside []
  else .outside

/-- The spot to which a path leads. There may be nothing there, but everything on the way is a
directory. Of what is outside the table, only the directories above the working directory are known. -/
def locate (w : Workspace) (p : Path) : Except Absence Spot :=
  if p.toString.contains '\x00' then .error .nullChar
  else if pathLimit < p.toString.utf8ByteSize then .error .tooLong
  else p.parts.foldlM w.step (w.start p)

/-- What is at a place. -/
def at? (w : Workspace) (place : Place) : Option Entry :=
  match w.file? place with
  | some bytes => some (.file bytes)
  | none => if w.isDirectory place then some .directory else none

/-- What a path leads to. -/
def entry? (w : Workspace) (p : Path) : Option Entry :=
  match w.locate p with
  | .ok (.inside place) => w.at? place
  | .ok .outside => some .directory
  | .error _ => none

/-- The content of the file that a path leads to, or else why it cannot be read as source. -/
def read (w : Workspace) (p : Path) : Except String (List UInt8) :=
  match w.locate p with
  | .error a => .error a.reason
  | .ok .outside => .error isDirectoryReason
  | .ok (.inside place) =>
    match w.unreadable.lookup place with
    | some reason => .error reason
    | none =>
      match w.at? place with
      | some (.file bytes) => .ok bytes
      | some .directory => .error isDirectoryReason
      | none => .error Absence.noEntry.reason

/-- Why the system does not say what a path leads to: it is too long, or it leads through a closed
directory. Any other path leads somewhere or nowhere. -/
def refusal? (w : Workspace) (p : Path) : Option Refusal :=
  match w.locate p with
  | .error .tooLong => some ⟨p, Absence.tooLong.reason⟩
  | .error (.closed reason) => some ⟨p, reason⟩
  | _ => none

/-! ## Listing -/

/-- The files below a directory, each with its path from there. -/
def below (w : Workspace) (place : Place) : List Place :=
  (w.files.filter fun f => place.isPrefixOf f.1 && place.length < f.1.length).map fun f =>
    f.1.drop place.length

/-- The ways to a place: the beginnings of its path, without the empty one. -/
def ways : Place → List Place
  | [] => []
  | part :: rel => [part] :: (ways rel).map (part :: ·)

/-- What is listed below a directory, files and directories, each once with its path from there. -/
def entriesBelow (w : Workspace) (place : Place) : List Place :=
  let known := w.files.map (·.1) ++ w.directories ++ w.home.toList
  ((known.filter (place.isPrefixOf ·)).flatMap fun q => ways (q.drop place.length)).eraseDups

/-- Why the way from a place leads nowhere: the first closed directory on it. -/
def barrier? (w : Workspace) (place : Place) : Place → Option String
  | [] => none
  | part :: rel => (w.closed.lookup place).or (w.barrier? (place ++ [part]) rel)

/-- Whether a path below a root is too long. -/
def isOverlong (root : Path) (rel : Place) : Bool := pathLimit < (root.append rel).toString.utf8ByteSize

/-- Why the system does not say what an entry listed below a root is. Its name is one that an entry can
have, so only the length of the whole path counts. -/
def entryRefusal? (w : Workspace) (root : Path) (place rel : Place) : Option Refusal :=
  if isOverlong root rel then some ⟨root.append rel, Absence.tooLong.reason⟩
  else (w.barrier? place rel).map (⟨root.append rel, ·⟩)

/-- Whether the entry below a root is a directory whose path is too long for it to be listed. What a directory
inside a closed one holds is not asked for. -/
def isUnlistable (w : Workspace) (root : Path) (place rel : Place) : Bool :=
  w.isDirectory (place ++ rel) && (w.barrier? place rel.dropLast).isNone && isOverlong root rel

/-! ## Writing -/

/-- Why a file cannot be written. -/
inductive WriteError
  | absent (a : Absence)
  | isDirectory
deriving DecidableEq, Repr

/-- What is said of a path that cannot be opened. -/
def WriteError.message (p : Path) : WriteError → String
  | absent .nullChar => Absence.nullChar.reason
  | absent a => p.complaint a.reason
  | isDirectory => p.complaint isDirectoryReason

/-- Give a place a content. -/
def put (place : Place) (bytes : List UInt8) : List (Place × List UInt8) → List (Place × List UInt8)
  | [] => [(place, bytes)]
  | f :: fs => if f.1 = place then (place, bytes) :: fs else f :: put place bytes fs

/-- Write a file: the workspace after it and the place it has. The directory must be there. -/
def write (w : Workspace) (p : Path) (bytes : List UInt8) :
    Except WriteError (Workspace × Place) :=
  match w.locate p with
  | .error a => .error (.absent a)
  | .ok .outside => .error .isDirectory
  | .ok (.inside place) =>
    if w.isDirectory place then .error .isDirectory
    else .ok ({ w with files := put place bytes w.files }, place)

end Workspace

end HandlerComplexity
