import HandlerComplexity.Text.Quoted
import HandlerComplexity.Text.Search

/-!
# Paths

A path has a root mark (none, `/`, or exactly two slashes) and parts. Empty parts and parts that are
a single dot are dropped when a path is read; two dots are kept, because where they lead is a matter
of the workspace.
-/

namespace HandlerComplexity

structure Path where
  /-- The root mark: empty, one slash or two. -/
  root : String := ""
  parts : List String := []
deriving DecidableEq, Repr

namespace Path

/-- Read a path. Exactly two leading slashes are kept as they are; more count as one. -/
def ofString (s : String) : Path :=
  let cs := s.toList
  let slashes := (cs.takeWhile (· == '/')).length
  let root := if slashes = 0 then "" else if slashes = 2 then "//" else "/"
  let parts := (Text.splitAt '/' cs).filter fun p => p ≠ [] ∧ p ≠ ['.']
  ⟨root, parts.map String.ofList⟩

/-- The path as text; a path without root and parts is a dot. -/
def toString (p : Path) : String :=
  if p.root = "" ∧ p.parts = [] then "." else p.root ++ "/".intercalate p.parts

/-- The root mark, if there is one, and the parts. -/
def components (p : Path) : List String :=
  if p.root = "" then p.parts else p.root :: p.parts

/-- The last part, empty if there is none. -/
def name (p : Path) : String := p.parts.getLastD ""

/-- Without the last part. -/
def parent (p : Path) : Path := { p with parts := p.parts.dropLast }

/-- Cut a name before its last dot. A dot at either end of the name does not count. -/
def splitName (name : String) : String × String :=
  let cs := name.toList
  let tail := (cs.reverse.takeWhile (· != '.')).reverse
  let stem := (cs.take (cs.length - tail.length - 1))
  if tail.length = cs.length ∨ tail = [] ∨ stem = [] then (name, "")
  else (String.ofList stem, String.ofList ('.' :: tail))

/-- The end of the name from its last dot on. -/
def suffix (p : Path) : String := (splitName p.name).2

/-- What is said of a path whose last part is to be changed though it has none. -/
def emptyNameMessage (p : Path) : String :=
  "PurePosixPath(" ++ Text.quoted p.toString ++ ") has an empty name"

/-- Without the suffix of the last part; the path itself is the error if it has no part. -/
def withoutSuffix (p : Path) : Except Path Path :=
  if p.name = "" then .error p
  else .ok { p with parts := p.parts.dropLast ++ [(splitName p.name).1] }

/-- The part of the path below another, if it lies below it. -/
def relativeTo? (p base : Path) : Option Path :=
  if p.root = base.root ∧ base.parts.isPrefixOf p.parts then
    some ⟨"", p.parts.drop base.parts.length⟩
  else none

/-- The path with further parts behind it. -/
def append (p : Path) (more : List String) : Path := { p with parts := p.parts ++ more }

end Path

end HandlerComplexity
