import HandlerComplexity.Base64
import HandlerComplexity.Document
import HandlerComplexity.Yaml.Kind

/-!
# Values of a YAML text

A node describes a document. If several of its parts are faulty, the fault nearest to the root is
reported, and the first one of those that are equally near.

* `scalarOf`: the scalar that a text is as one of a kind.
* `Node.toDocument`: the document that a node describes.
* `read`: the document of a text.
-/

namespace HandlerComplexity.Yaml

/-! ## Numbers -/

def isUnderscore (p : Text.Point) : Bool := p = .char '_'

def integerIn (base : Nat) (cs : List Char) : Except Fault Int :=
  match Numeral.integer base cs with
  | .ok n => .ok n
  | .error .invalid => .error (.integer base (Text.pointsOf cs))
  | .error (.tooLong digits) => .error (.tooLong digits)

/-- The integer of a scalar without its underscores. -/
def integer (cs : List Char) : Except Fault Int := do
  let (negative, body) := Numeral.sign cs
  let n ← match body with
    | [] => throw .emptyNumber
    | ['0'] => pure 0
    | '0' :: 'b' :: ds => integerIn 2 ds
    | '0' :: 'x' :: ds => integerIn 16 ds
    | '0' :: ds => integerIn 8 ('0' :: ds)
    | body => do
      let groups ← (Text.splitAt ':' body).mapM (integerIn 10)
      pure (groups.foldl (fun n g => n * 60 + g) 0)
  return if negative then -n else n

def realIn (cs : List Char) : Except Fault Binary64 :=
  match Numeral.real? cs with
  | some x => .ok x
  | none => .error (.real (Text.pointsOf cs))

/-- Groups of base sixty, the last one first, added up from the last. The weight of a group must not
be beyond all numbers. -/
def addSixties (sum : Binary64) (weight : Nat) : List Binary64 → Except Fault Binary64
  | [] => .ok sum
  | x :: xs =>
    match Binary64.ofNat weight with
    | .infinity _ => .error .overflow
    | w => addSixties (sum.add (x.mul w)) (weight * 60) xs

/-- The real number of a scalar in small letters and without its underscores. -/
def real (mark : Nat) (cs : List Char) : Except Fault Scalar := do
  let (negative, body) := Numeral.sign cs
  let signed (x : Binary64) : Scalar := .ofComputed mark (if negative then x.neg else x)
  if cs.isEmpty then throw .emptyNumber
  else if body = ".inf".toList then return signed (.infinity false)
  else if body = ".nan".toList then return .real .nan
  else match Text.splitAt ':' body with
    | [_] => return signed (← realIn body)
    | groups => return signed (← addSixties (.ofNat 0) 1 (← groups.mapM realIn).reverse)

/-! ## Scalars -/

def lower (ps : Text.Points) : Text.Points :=
  ps.map fun p => match p with
    | .char c => .char c.toLower
    | .half n => .half n

/-- The truth value of a scalar. -/
def truth (ps : Text.Points) : Except Fault Bool :=
  let word := ((Text.chars? (lower ps)).map String.ofList).getD ""
  if trueWords.contains word then .ok true
  else if falseWords.contains word then .ok false
  else .error (.truth (lower ps))

/-- The date or the moment of a scalar. -/
def timestamp (ps : Text.Points) : Except Fault Scalar :=
  match (Text.chars? ps).bind Stamp.read? with
  | none => .error .notTimestamp
  | some s =>
    match s.time with
    | none => (s.date.check.map fun _ => .date s.date).mapError .calendar
    | some t =>
      let m := Stamp.momentOf s.date t
      (m.check.map fun _ => .moment m).mapError .calendar

/-- The bytes of a scalar, which must be in ASCII. -/
def binary (ps : Text.Points) : Except Fault Scalar :=
  match (Text.chars? ps).filter (·.all fun c => c.toNat < 0x80) with
  | none => .error .malformed
  | some cs =>
    match Base64.decode? cs with
    | some bs => .ok (.bytes bs)
    | none => .error .malformed

/-- The scalar that a text is as one of a kind. The mark is for a number that is none. -/
def scalarOf (kind : Kind) (mark : Nat) (ps : Text.Points) : Except Fault Scalar :=
  let digits := ps.filter (!isUnderscore ·)
  match kind with
  | .null => .ok .null
  | .truth => (truth ps).map .bool
  | .integer =>
    match Text.chars? digits with
    | some cs => (integer cs).map .int
    | none => .error (.integer 10 digits)
  | .real =>
    match Text.chars? (lower digits) with
    | some cs => real mark cs
    | none => .error (.real (lower digits))
  | .timestamp => timestamp ps
  | .binary => binary ps
  | .text => .ok (.ofPoints ps)
  | .merge | .default | .sequence | .mapping | .set | .pairs => .error .malformed

/-! ## Faults at their places -/

/-- A fault, and how far from the root it was found. -/
abbrev Located := Nat × Fault

def atDepth (depth : Nat) (e : Except Fault α) : Except Located α := e.mapError (depth, ·)

/-- Two parts, of which the fault nearest to the root counts, or else the first. -/
def both (a : Except Located α) (b : Except Located β) : Except Located (α × β) :=
  match a, b with
  | .ok x, .ok y => .ok (x, y)
  | .error f, .ok _ => .error f
  | .ok _, .error g => .error g
  | .error f, .error g => .error (if g.1 < f.1 then g else f)

/-- All parts, of which the fault nearest to the root counts, or else the first. -/
def all : List (Except Located α) → Except Located (List α)
  | [] => .ok []
  | a :: as => (both a (all as)).map fun r => r.1 :: r.2

/-! ## Documents -/

mutual

/-- The text of a node: of a mapping, that of its default value. -/
def Node.text : Node → Except Fault Text.Points
  | .scalar _ _ _ text => .ok text
  | .sequence .. => .error .malformed
  | .mapping _ _ entries => defaultText entries

def defaultText : List (Node × Node) → Except Fault Text.Points
  | [] => .error .malformed
  | (k, v) :: es => if k.kind? = some .default then v.text else defaultText es

end

/-- The scalar that a node is as one of a kind. -/
def Node.scalarAs (kind : Kind) (n : Node) : Except Fault Scalar := do
  let text ← n.text
  match kind, n with
  | .timestamp, .mapping .. => throw .notText
  | kind, _ => scalarOf kind n.mark text

/-- The key that a node is. -/
def Node.key (n : Node) : Except Fault Scalar :=
  match n.kind? with
  | some .default => n.scalarAs .text
  | some kind => n.scalarAs kind
  | none => .error .malformed

/-- The entries of a mapping, those that are merged in apart, and whether something is merged in that
is no mapping. -/
structure Parts where
  merged : List (Except Located (Scalar × Document)) := []
  own : List (Except Located (Scalar × Document)) := []
  isBad : Bool := false

/-- All entries, the merged ones first: its own come later and count more. -/
def Parts.entries (p : Parts) : List (Except Located (Scalar × Document)) := p.merged ++ p.own

mutual

/-- The document that a node at a depth describes. -/
def Node.toDocument (depth : Nat) (n : Node) : Except Located Document :=
  match n, n.kind? with
  | _, none => atDepth depth (.error .malformed)
  | .sequence _ items, some .sequence => (all (documents (depth + 1) items)).map .list
  | .sequence _ items, some .pairs => (all (pairs (depth + 1) items)).map .list
  | .mapping _ _ entries, some .mapping =>
    let p := parts (depth + 1) entries
    if p.isBad then atDepth (depth + 1) (.error .malformed)
    else (all p.entries).map fun es => .map (Document.ofEntries es)
  | .mapping _ _ entries, some .set =>
    let p := parts (depth + 1) entries
    if p.isBad then atDepth (depth + 1) (.error .malformed)
    else (all p.entries).map fun es => .set ((Document.ofEntries es).map (·.1))
  | _, some .sequence | _, some .mapping | _, some .set | _, some .pairs =>
    atDepth (depth + 1) (.error .malformed)
  | n, some kind => (atDepth depth (n.scalarAs kind)).map .scalar

def documents (depth : Nat) : List Node → List (Except Located Document)
  | [] => []
  | n :: ns => n.toDocument depth :: documents depth ns

/-- The pairs that mappings of one entry are. -/
def pairs (depth : Nat) : List Node → List (Except Located Document)
  | [] => []
  | .mapping _ _ [(k, v)] :: ns =>
    (both (k.toDocument depth) (v.toDocument depth)).map (fun r => .pair r.1 r.2) :: pairs depth ns
  | _ :: ns => atDepth depth (.error .malformed) :: pairs depth ns

/-- The entries of a mapping. -/
def parts (depth : Nat) : List (Node × Node) → Parts
  | [] => {}
  | (k, v) :: es =>
    let rest := parts depth es
    if k.kind? = some .merge then
      let m := merged depth v
      { rest with merged := m.entries ++ rest.merged, isBad := m.isBad || rest.isBad }
    else { rest with own := both (atDepth depth k.key) (v.toDocument depth) :: rest.own }

/-- What is merged in for a value: the entries of a mapping, or of several mappings of which the
first one counts most. -/
def merged (depth : Nat) : Node → Parts
  | .mapping _ _ entries => parts depth entries
  | .sequence _ items => mergedAll depth items
  | .scalar .. => { isBad := true }

def mergedAll (depth : Nat) : List Node → Parts
  | [] => {}
  | .mapping _ _ entries :: ns =>
    let first := parts depth entries
    let others := mergedAll depth ns
    { own := others.entries ++ first.entries, isBad := first.isBad || others.isBad }
  | _ :: _ => { isBad := true }

end

/-- The document of a text, the null document if it has none. -/
def read (cs : List Char) : Except Fault Document := do
  match ← Node.ofScanned (.ofText cs) with
  | none => return .null
  | some n => (n.toDocument 0).mapError (·.2)

end HandlerComplexity.Yaml
