import HandlerComplexity.Number.Numeral
import HandlerComplexity.Text.Search
import HandlerComplexity.Yaml.Node
import HandlerComplexity.Yaml.Timestamp

/-!
# Kinds of YAML nodes

A node is of the kind that its tag asks for. Without a tag a collection is a sequence or a mapping, a
quoted scalar is a text, and a plain scalar is what it looks like. Integers can be binary, octal,
hexadecimal, or in groups of base sixty.

* `plainKind`: what a plain scalar looks like.
* `Node.kind?`: the kind of a node.
-/

namespace HandlerComplexity.Yaml

inductive Kind
  | null
  | truth
  | integer
  | real
  | timestamp
  | binary
  | text
  /-- The key under which other mappings are merged in. -/
  | merge
  /-- The key of a default value. -/
  | default
  | sequence
  | mapping
  | set
  /-- A sequence of mappings of one entry each. -/
  | pairs
deriving DecidableEq, Repr

/-! ## What a plain scalar looks like -/

def nullWords : List String := ["~", "null", "Null", "NULL", ""]

def trueWords : List String := ["yes", "Yes", "YES", "true", "True", "TRUE", "on", "On", "ON"]

def falseWords : List String := ["no", "No", "NO", "false", "False", "FALSE", "off", "Off", "OFF"]

def isDigitOf (base : Nat) (c : Char) : Bool := (Digits.hexValue? c).any (· < base)

/-- Digits of a base with underscores among them, at least one character. -/
def isDigits (base : Nat) (cs : List Char) : Bool :=
  !cs.isEmpty && cs.all fun c => isDigitOf base c || c == '_'

/-- A decimal digit with digits and underscores behind it. -/
def isWhole : List Char → Bool
  | [] => false
  | c :: cs => c.isDigit && cs.all fun d => d.isDigit || d == '_'

/-- A group of base sixty: one digit, or two of which the first is at most five. -/
def isSixty : List Char → Bool
  | [d] => d.isDigit
  | [d, e] => '0' ≤ d && d ≤ '5' && e.isDigit
  | _ => false

/-- Groups of base sixty, each behind a colon. -/
def areSixties (groups : List (List Char)) : Bool := !groups.isEmpty && groups.all isSixty

def isInteger (cs : List Char) : Bool :=
  let body := (Numeral.sign cs).2
  match body with
  | '0' :: 'b' :: ds => isDigits 2 ds
  | '0' :: 'x' :: ds => isDigits 16 ds
  | ['0'] => true
  | '0' :: ds => isDigits 8 ds
  | _ =>
    match Text.splitAt ':' body with
    | [] => false
    | whole :: groups => isWhole whole && (groups.isEmpty || areSixties groups)

/-- An exponent with its sign, or nothing. -/
def isExponent : List Char → Bool
  | [] => true
  | e :: s :: d :: ds =>
    (e == 'e' || e == 'E') && (s == '+' || s == '-') && (d :: ds).all Char.isDigit
  | _ => false

/-- Digits and underscores, then an exponent or nothing. -/
def isFraction (cs : List Char) : Bool :=
  isExponent (cs.dropWhile fun c => c.isDigit || c == '_')

def infinityWords : List String := [".inf", ".Inf", ".INF"]

def nanWords : List String := [".nan", ".NaN", ".NAN"]

def isReal (cs : List Char) : Bool :=
  let body := (Numeral.sign cs).2
  if infinityWords.contains (String.ofList body) then true
  else if nanWords.contains (String.ofList cs) then true
  else
    match cs with
    | '.' :: d :: rest => d.isDigit && isFraction (d :: rest)
    | _ =>
      let front := body.takeWhile (· != '.')
      match body.dropWhile (· != '.') with
      | [] => false
      | _ :: rest =>
        match Text.splitAt ':' front with
        | [] => false
        | whole :: groups =>
          isWhole whole &&
            (if groups.isEmpty then isFraction rest
            else areSixties groups && rest.all fun c => c.isDigit || c == '_')

/-- What a plain scalar looks like. One line end behind it does not count, but alone it is a text. -/
def plainKind (cs : List Char) : Kind :=
  let body := if cs.getLast? = some '\n' ∧ 1 < cs.length then cs.dropLast else cs
  let word := String.ofList body
  if trueWords.contains word || falseWords.contains word then .truth
  else if isReal body then .real
  else if isInteger body then .integer
  else if word = "<<" then .merge
  else if nullWords.contains word then .null
  else if Stamp.looksLike body then .timestamp
  else if word = "=" then .default
  else .text

/-! ## Tags -/

def tagFront : String := "tag:yaml.org,2002:"

/-- The kind that a tag asks for. -/
def tagKind? (tag : String) : Option Kind :=
  [("null", Kind.null), ("bool", .truth), ("int", .integer), ("float", .real),
    ("timestamp", .timestamp), ("binary", .binary), ("str", .text), ("merge", .merge),
    ("value", .default), ("seq", .sequence), ("map", .mapping), ("set", .set), ("omap", .pairs),
    ("pairs", .pairs)].findSome? fun (name, kind) =>
      if tag = tagFront ++ name then some kind else none

/-- The kind of a node, none if its tag asks for something else. -/
def Node.kind? : Node → Option Kind
  | .scalar (some tag) _ _ _ | .sequence (some tag) _ | .mapping (some tag) _ _ => tagKind? tag
  | .scalar none _ plain text =>
    match Text.chars? text with
    | some cs => some (if plain then plainKind cs else .text)
    | none => some .text
  | .sequence none _ => some .sequence
  | .mapping none _ _ => some .mapping

end HandlerComplexity.Yaml
