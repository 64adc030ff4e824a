import HandlerComplexity.Document
import HandlerComplexity.Number.Digits

/-!
# Reading JSON

The reader takes JSON and, if asked to, the three names for numbers that are not finite; it can be told
how long an integer may be. The last value of a repeated key counts. A failure says what was expected
and how much of the text was left.
-/

namespace HandlerComplexity.Json

/-- Where a reader departs from the standard. -/
structure Dialect where
  /-- Take the names of the numbers that are not finite. -/
  nonFinite : Bool := false
  /-- The most digits that an integer may have. -/
  digitLimit : Option Nat := none
deriving DecidableEq, Repr

inductive Cause
  | value
  | propertyName
  | comma
  | colon
  | extraData
  | badEscape
  | badUnitEscape
  | unterminated
  | controlChar
  | byteOrderMark
  /-- An integer of more digits than are allowed. -/
  | tooLong (digits : Nat)
deriving DecidableEq, Repr

/-- What went wrong, and the number of characters from there to the end. -/
structure Failure where
  cause : Cause
  left : Nat
deriving DecidableEq, Repr

def Cause.phrase : Cause → String
  | value => "Expecting value"
  | propertyName => "Expecting property name enclosed in double quotes"
  | comma => "Expecting ',' delimiter"
  | colon => "Expecting ':' delimiter"
  | extraData => "Extra data"
  | badEscape => "Invalid \\escape"
  | badUnitEscape => "Invalid \\uXXXX escape"
  | unterminated => "Unterminated string starting at"
  | controlChar => "Invalid control character at"
  | byteOrderMark => "Unexpected UTF-8 BOM (decode using utf-8-sig)"
  | tooLong digits => Digits.tooLongMessage digits

/-- The failure with its place in the text: line and column count from one, characters from zero. -/
def Failure.message (text : List Char) (f : Failure) : String :=
  match f.cause with
  | .tooLong _ => f.cause.phrase
  | _ =>
    let before := text.take (text.length - f.left)
    let line := before.count '\n' + 1
    let column := (before.reverse.takeWhile (· ≠ '\n')).length + 1
    f.cause.phrase ++ ": line " ++ toString line ++ " column " ++ toString column ++ " (char " ++
      toString before.length ++ ")"

/-! ## Blanks -/

def isBlank (c : Char) : Bool := c == ' ' || c == '\t' || c == '\n' || c == '\r'

def skipBlanks (cs : List Char) : List Char := cs.dropWhile isBlank

/-! ## Strings -/

/-- The character that a letter stands for behind a backslash. -/
def unescape? : Char → Option Char
  | '"' => some '"'
  | '\\' => some '\\'
  | '/' => some '/'
  | 'b' => some '\x08'
  | 'f' => some '\x0c'
  | 'n' => some '\n'
  | 'r' => some '\r'
  | 't' => some '\t'
  | _ => none

/-- The code unit of four digits of base sixteen. -/
def unit? (a b c d : Char) : Option Nat := do
  let a ← Digits.hexValue? a
  let b ← Digits.hexValue? b
  let c ← Digits.hexValue? c
  let d ← Digits.hexValue? d
  return ((a * 16 + b) * 16 + c) * 16 + d

def isHighHalf (n : Nat) : Bool := 0xd800 ≤ n && n < 0xdc00

def isLowHalf (n : Nat) : Bool := 0xdc00 ≤ n && n < 0xe000

/-- The code point of two halves. -/
def ofHalves (high low : Nat) : Text.Point :=
  .ofNat (0x10000 + (high - 0xd800) * 0x400 + (low - 0xdc00))

/-- The rest of a string up to its closing quote; `opening` characters were left at the quote that
opened it. A half of a surrogate pair without its other half stays one. -/
def stringBody (opening : Nat) : List Char → Except Failure (Text.Points × List Char)
  | [] => .error ⟨.unterminated, opening⟩
  | ['\\'] => .error ⟨.unterminated, opening⟩
  | '\\' :: 'u' :: a :: b :: c :: d :: rest =>
    match unit? a b c d with
    | none => .error ⟨.badUnitEscape, rest.length + 5⟩
    | some n =>
      if rest.isEmpty then .error ⟨.badUnitEscape, 5⟩
      else
        match isHighHalf n, rest with
        | true, '\\' :: 'u' :: e :: f :: g :: h :: x :: more =>
          match unit? e f g h with
          | none => .error ⟨.badUnitEscape, more.length + 6⟩
          | some m =>
            if isLowHalf m then
              (stringBody opening (x :: more)).map fun r => (ofHalves n m :: r.1, r.2)
            else
              (stringBody opening ('\\' :: 'u' :: e :: f :: g :: h :: x :: more)).map fun r =>
                (.ofNat n :: r.1, r.2)
        | _, rest => (stringBody opening rest).map fun r => (.ofNat n :: r.1, r.2)
  | '\\' :: 'u' :: rest => .error ⟨.badUnitEscape, rest.length + 1⟩
  | '\\' :: c :: rest =>
    match unescape? c with
    | none => .error ⟨.badEscape, rest.length + 2⟩
    | some e => (stringBody opening rest).map fun r => (.char e :: r.1, r.2)
  | c :: rest =>
    if c == '"' then .ok ([], rest)
    else if c.toNat ≤ 0x1f then .error ⟨.controlChar, rest.length + 1⟩
    else (stringBody opening rest).map fun r => (.char c :: r.1, r.2)
termination_by cs => cs.length
decreasing_by all_goals simp_wf <;> omega

/-! ## Numbers -/

/-- A minus sign, if there is one. -/
def minusSign : List Char → Bool × List Char
  | '-' :: rest => (true, rest)
  | cs => (false, cs)

/-- The sign of an exponent, if there is one. -/
def exponentSign : List Char → Bool × List Char
  | '+' :: rest => (false, rest)
  | cs => minusSign cs

/-- The whole part: a zero, or digits that do not begin with one. -/
def wholePart : List Char → List Char × List Char
  | '0' :: rest => (['0'], rest)
  | cs => Digits.span cs

/-- A point with digits behind it, if there is one. -/
def fractionPart : List Char → List Char × List Char
  | '.' :: rest =>
    match Digits.span rest with
    | ([], _) => ([], '.' :: rest)
    | (ds, rest) => (ds, rest)
  | cs => ([], cs)

/-- An exponent with its digits, if there is one. -/
def exponentPart (cs : List Char) : Option Int × List Char :=
  match cs with
  | e :: rest =>
    if e == 'e' || e == 'E' then
      let (negative, digits) := exponentSign rest
      match Digits.span digits with
      | ([], _) => (none, cs)
      | (ds, more) =>
        let n : Int := Digits.decimal ds
        (some (if negative then -n else n), more)
    else (none, cs)
  | [] => (none, [])

/-- A number at the front of a text. -/
def number (dialect : Dialect) (cs : List Char) : Except Failure (Document × List Char) :=
  let (negative, digits) := minusSign cs
  match wholePart digits with
  | ([], _) => .error ⟨.value, cs.length⟩
  | (whole, rest) =>
    let (fraction, rest) := fractionPart rest
    let (exponent, rest) := exponentPart rest
    if fraction.isEmpty ∧ exponent = none then
      if dialect.digitLimit.any (· < whole.length) then .error ⟨.tooLong whole.length, cs.length⟩
      else
        let n : Int := Digits.decimal whole
        .ok (.ofInt (if negative then -n else n), rest)
    else
      .ok (.scalar (.real (.ofDecimal negative (Digits.decimal (whole ++ fraction))
        (exponent.getD 0 - fraction.length))), rest)

/-! ## Values -/

/-- The names that stand for values. -/
def names (dialect : Dialect) : List (String × Scalar) :=
  [("null", .null), ("true", .bool true), ("false", .bool false)] ++
    if dialect.nonFinite then
      [("NaN", .real .nan), ("Infinity", .real (.infinity false)),
        ("-Infinity", .real (.infinity true))]
    else []

/-- A name at the front of a text, and what is left behind it. -/
def name? (dialect : Dialect) (cs : List Char) : Option (Scalar × List Char) :=
  ((names dialect).find? fun p => p.1.toList.isPrefixOf cs).map fun p =>
    (p.2, cs.drop p.1.length)

mutual

/-- A value at the front of a text, and what is left behind it. Each level of the value and each of
its entries needs one unit of fuel; the length of the text is enough. -/
def readValue (dialect : Dialect) : Nat → List Char → Except Failure (Document × List Char)
  | 0, cs => .error ⟨.value, cs.length⟩
  | fuel + 1, cs =>
    match cs with
    | [] => .error ⟨.value, 0⟩
    | c :: rest =>
      if c == '"' then
        (stringBody cs.length rest).map fun r => (.scalar (.ofPoints r.1), r.2)
      else if c == '[' then
        match skipBlanks rest with
        | ']' :: rest => .ok (.list [], rest)
        | rest => (readItems dialect fuel rest).map fun r => (.list r.1, r.2)
      else if c == '\x7b' then
        match skipBlanks rest with
        | '\x7d' :: rest => .ok (.map [], rest)
        | rest =>
          (readEntries dialect fuel rest).map fun r => (.map (Document.ofEntries r.1), r.2)
      else
        match name? dialect cs with
        | some (s, rest) => .ok (.scalar s, rest)
        | none => number dialect cs

/-- The items of a list from the first one on, up to the closing bracket. -/
def readItems (dialect : Dialect) : Nat → List Char → Except Failure (List Document × List Char)
  | 0, cs => .error ⟨.value, cs.length⟩
  | fuel + 1, cs => do
    let (d, rest) ← readValue dialect fuel cs
    match skipBlanks rest with
    | ']' :: rest => .ok ([d], rest)
    | ',' :: rest =>
      let (ds, rest) ← readItems dialect fuel (skipBlanks rest)
      .ok (d :: ds, rest)
    | rest => .error ⟨.comma, rest.length⟩

/-- The entries of a mapping from the first one on, up to the closing brace. -/
def readEntries (dialect : Dialect) : Nat → List Char → Except Failure (Entries × List Char)
  | 0, cs => .error ⟨.propertyName, cs.length⟩
  | fuel + 1, cs =>
    match cs with
    | '"' :: rest => do
      let (k, rest) ← stringBody cs.length rest
      match skipBlanks rest with
      | ':' :: rest =>
        let (d, rest) ← readValue dialect fuel (skipBlanks rest)
        let entry : Scalar × Document := (.ofPoints k, d)
        match skipBlanks rest with
        | '\x7d' :: rest => .ok ([entry], rest)
        | ',' :: rest =>
          let (es, rest) ← readEntries dialect fuel (skipBlanks rest)
          .ok (entry :: es, rest)
        | rest => .error ⟨.comma, rest.length⟩
      | rest => .error ⟨.colon, rest.length⟩
    | cs => .error ⟨.propertyName, cs.length⟩

end

/-- The document that a whole text is. -/
def read (dialect : Dialect) (cs : List Char) : Except Failure Document :=
  if cs.head? = some '\ufeff' then .error ⟨.byteOrderMark, cs.length⟩
  else
    match readValue dialect (cs.length + 1) (skipBlanks cs) with
    | .error f => .error f
    | .ok (d, rest) =>
      match skipBlanks rest with
      | [] => .ok d
      | rest => .error ⟨.extraData, rest.length⟩

end HandlerComplexity.Json
