import HandlerComplexity.Calendar
import HandlerComplexity.Number.Digits
import HandlerComplexity.Number.Shortest
import HandlerComplexity.Text.Quoted

/-!
# Configuration documents

A document is a scalar, a list, a mapping, a set or a pair. The keys of a mapping are scalars and keep
the order in which they first came; `1`, `1.0` and `true` are the same key. A number that is none can
be a key too: where it is written by its name it is always the same one, and each one that is computed
is another.

* `Document.shown`: how a document is shown in a message.
* `Document.canBeShown`: whether it can be; an integer that is too long cannot.
* `Document.put`, `Document.get?`: one entry of a mapping.
* `Document.overlay`: one mapping laid over another, entry by entry where both are mappings.
-/

namespace HandlerComplexity

inductive Scalar
  | null
  | bool (b : Bool)
  | int (i : Int)
  | real (x : Binary64)
  /-- A number that is none and was computed. The mark tells it apart from the others. -/
  | nan (mark : Nat)
  | text (s : String)
  /-- A text that holds a half of a surrogate pair. -/
  | broken (ps : Text.Points)
  | date (d : Date)
  | moment (m : Moment)
  | bytes (bs : List UInt8)
deriving DecidableEq, Repr

inductive Document
  | scalar (s : Scalar)
  | list (items : List Document)
  | map (entries : List (Scalar × Document))
  | set (items : List Scalar)
  | pair (first second : Document)

instance : Inhabited Document := ⟨.scalar .null⟩

/-- The entries of a mapping in order. -/
abbrev Entries := List (Scalar × Document)

namespace Scalar

/-- The scalar of a text. -/
def ofPoints (ps : Text.Points) : Scalar :=
  match Text.chars? ps with
  | some cs => .text (String.ofList cs)
  | none => .broken ps

/-- The code points of a text. -/
def points? : Scalar → Option Text.Points
  | text s => some (Text.pointsOf s.toList)
  | broken ps => some ps
  | _ => none

/-- The scalar of a number that was computed. -/
def ofComputed (mark : Nat) (x : Binary64) : Scalar := if x = .nan then .nan mark else .real x

/-- Truth values count as the integers zero and one. -/
def toInt? : Scalar → Option Int
  | bool b => some (if b then 1 else 0)
  | int i => some i
  | _ => none

/-- Equality as keys: numbers by value, whatever their form, and moments by when they are. What is no
number has no value, and is the same only as itself. -/
def same (a b : Scalar) : Bool :=
  match a, b with
  | null, null => true
  | nan i, nan j => i = j
  | text s, text t => s = t
  | broken s, broken t => s = t
  | date d, date e => d = e
  | moment m, moment n => m.same n
  | bytes bs, bytes cs => bs = cs
  | real .nan, real .nan => true
  | real x, real y => x.same y
  | real x, b => match b.toInt? with
    | some j => x.sameInt j
    | none => false
  | a, real y => match a.toInt? with
    | some i => y.sameInt i
    | none => false
  | a, b => match a.toInt?, b.toInt? with
    | some i, some j => i = j
    | _, _ => false

/-- Nothing, zero, the empty text and no bytes do not hold; everything else does. -/
def holds : Scalar → Bool
  | null => false
  | bool b => b
  | int i => i ≠ 0
  | real x => !x.isZero
  | text s => s ≠ ""
  | bytes bs => !bs.isEmpty
  | nan _ | broken _ | date _ | moment _ => true

/-- Whether a scalar can be shown: an integer must not be too long. -/
def canBeShown : Scalar → Bool
  | int i => !Digits.isTooLong i
  | _ => true

/-- A scalar as it is shown in a message, texts between quotes. -/
def shown : Scalar → String
  | null => "None"
  | bool b => if b then "True" else "False"
  | int i => toString i
  | real x => x.text
  | nan _ => Binary64.nan.text
  | text s => Text.quoted s
  | broken ps => Text.quotedPoints ps
  | date d => d.shown
  | moment m => m.shown
  | bytes bs => Text.quotedBytes bs

end Scalar

namespace Document

def null : Document := .scalar .null

def ofBool (b : Bool) : Document := .scalar (.bool b)

def ofInt (i : Int) : Document := .scalar (.int i)

def ofText (s : String) : Document := .scalar (.text s)

/-- Empty collections do not hold, nor do scalars that do not. -/
def holds : Document → Bool
  | scalar s => s.holds
  | list items => !items.isEmpty
  | map entries => !entries.isEmpty
  | set items => !items.isEmpty
  | pair _ _ => true

/-! ## Text -/

mutual

/-- A document as it is shown in a message. -/
def shown : Document → String
  | scalar s => s.shown
  | list items => "[" ++ shownItems items ++ "]"
  | map entries => "\x7b" ++ shownEntries entries ++ "\x7d"
  | set [] => "set()"
  | set items => "\x7b" ++ ", ".intercalate (items.map Scalar.shown) ++ "\x7d"
  | pair first second => "(" ++ shown first ++ ", " ++ shown second ++ ")"

def shownItems : List Document → String
  | [] => ""
  | [d] => shown d
  | d :: ds => shown d ++ ", " ++ shownItems ds

def shownEntries : List (Scalar × Document) → String
  | [] => ""
  | [(k, v)] => k.shown ++ ": " ++ shown v
  | (k, v) :: es => k.shown ++ ": " ++ shown v ++ ", " ++ shownEntries es

end

mutual

/-- Whether a document can be shown. -/
def canBeShown : Document → Bool
  | scalar s => s.canBeShown
  | list items => canItemsBeShown items
  | map entries => canEntriesBeShown entries
  | set items => items.all Scalar.canBeShown
  | pair first second => canBeShown first && canBeShown second

def canItemsBeShown : List Document → Bool
  | [] => true
  | d :: ds => canBeShown d && canItemsBeShown ds

def canEntriesBeShown : List (Scalar × Document) → Bool
  | [] => true
  | (k, v) :: es => k.canBeShown && canBeShown v && canEntriesBeShown es

end

/-- The text of a document: a text as it is, a date and a moment for people, anything else as it is
shown in a message. -/
def text : Document → Text.Points
  | scalar (.text s) => Text.pointsOf s.toList
  | scalar (.broken ps) => ps
  | scalar (.date d) => Text.pointsOf d.text.toList
  | scalar (.moment m) => Text.pointsOf m.text.toList
  | d => Text.pointsOf d.shown.toList

/-- Whether a document can be an element of a set: a scalar, or a pair of such. -/
def canBeElement : Document → Bool
  | scalar _ => true
  | pair first second => canBeElement first && canBeElement second
  | _ => false

/-! ## Entries -/

/-- The value of a key. -/
def get? (key : Scalar) : Entries → Option Document
  | [] => none
  | (k, v) :: es => if k.same key then some v else get? key es

/-- Give a key a value: in its place and under its first form if it is there, else at the end. -/
def put (key : Scalar) (value : Document) : Entries → Entries
  | [] => [(key, value)]
  | (k, v) :: es => if k.same key then (k, value) :: es else (k, v) :: put key value es

/-- The mapping with the given entries, the last value of a key in the place of the first. -/
def ofEntries (es : Entries) : Entries :=
  es.foldl (fun acc e => put e.1 e.2 acc) []

mutual

/-- What an override makes of a value: a mapping is laid over a mapping, and anything else takes the
place of what was there. -/
def overlayValue (base : Option Document) : Document → Document
  | map layer =>
    match base with
    | some (map below) => map (overlay below layer)
    | _ => map layer
  | d => d

/-- Lay one mapping over another, entry by entry. -/
def overlay (base : Entries) : List (Scalar × Document) → Entries
  | [] => base
  | (k, v) :: es => overlay (put k (overlayValue (get? k base) v) base) es

end

end Document

end HandlerComplexity
