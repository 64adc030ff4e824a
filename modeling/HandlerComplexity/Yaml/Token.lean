import HandlerComplexity.Text.Utf8
import HandlerComplexity.Yaml.Text

/-!
# Tokens of a YAML text

Indentation becomes tokens that open and close collections, and a key that only its colon gives away
gets its token when the colon is found. Such a key stands on one line, is not too long, and must be a
key if nothing else can stand where it stands.

Reading goes only as far as the tokens that are asked for. Where a key may have begun, it has to go on
until it is known whether it was one, so that a fault shows before the tokens from that place on.

* `Scanned.ofText`: the tokens of a text, up to its end or the first fault.
-/

namespace HandlerComplexity.Yaml

inductive Token
  /-- The version that a text is in, by its first number. -/
  | version (major : Nat)
  /-- A short form for the front of tags. -/
  | tagHandle (handle front : String)
  /-- A directive that is not known. -/
  | directive
  | documentStart
  | documentEnd
  | blockSequenceStart
  | blockMappingStart
  | blockEnd
  | flowSequenceStart
  | flowSequenceEnd
  | flowMappingStart
  | flowMappingEnd
  | blockEntry
  | flowEntry
  | key
  | value
  | alias (name : String)
  | anchor (name : String)
  | tag (handle : Option String) (suffix : String)
  | scalar (plain : Bool) (text : Text.Points)
deriving DecidableEq, Repr

/-! ## Names and tags -/

/-- The name of an anchor or an alias behind its mark. -/
def anchorName (c : Cursor) : Except Fault (String × Cursor) :=
  let (name, c) := c.run isNameChar
  if name.isEmpty then .error .malformed
  else if endsWord c.peek? || c.next (isOneOf "?:,]\x7d%@`") then .ok (String.ofList name, c)
  else .error .malformed

def isTagChar (c : Char) : Bool := c.isAlphanum || isOneOf "-;/?:@&=+$,_.!~*'()[]%" c

/-- The bytes of escapes that follow each other. -/
def escapedBytes : Nat → Cursor → Except Fault (List UInt8 × Cursor)
  | 0, c => .ok ([], c)
  | n + 1, c =>
    match c.rest with
    | '%' :: a :: b :: _ =>
      match Digits.hexValue? a, Digits.hexValue? b with
      | some a, some b =>
        (escapedBytes n (c.advanceBy 3)).map fun r => (UInt8.ofNat (a * 16 + b) :: r.1, r.2)
      | _, _ => .error .malformed
    | '%' :: _ => .error .malformed
    | _ => .ok ([], c)

/-- The characters of a tag, with its escapes resolved. -/
def tagChars : Nat → Cursor → Except Fault (List Char × Cursor)
  | 0, c => .ok ([], c)
  | n + 1, c =>
    let (word, c) := c.run fun x => isTagChar x && x != '%'
    if c.next (· == '%') then
      match escapedBytes c.fuel c with
      | .error f => .error f
      | .ok (bytes, c) =>
        match Text.Utf8.decode? bytes with
        | none => .error .malformed
        | some cs => (tagChars n c).map fun r => (word ++ cs ++ r.1, r.2)
    else .ok (word, c)

/-- The text of a tag, which is not empty. -/
def tagText (c : Cursor) : Except Fault (String × Cursor) :=
  if c.next isTagChar then (tagChars c.fuel c).map fun r => (String.ofList r.1, r.2)
  else .error .malformed

/-- A handle between two exclamation marks, or a single one before a blank. -/
def tagHandle (c : Cursor) : Except Fault (String × Cursor) :=
  match c.rest with
  | '!' :: rest =>
    if rest.head? = some ' ' then .ok ("!", c.advance)
    else
      let (name, d) := c.advance.run isNameChar
      if d.next (· == '!') then .ok (String.ofList ('!' :: name ++ ['!']), d.advance)
      else .error .malformed
  | _ => .error .malformed

/-- Whether the tag here begins with a handle: another mark comes before its end. -/
def hasHandle (c : Cursor) : Bool :=
  (c.advance.rest.takeWhile fun x => !(x == ' ' || isBreak x)).contains '!'

def tag (c : Cursor) : Except Fault (Token × Cursor) := do
  let following := c.rest[1]?
  let (token, c) ←
    if following = some '<' then do
      let (suffix, c) ← tagText (c.advanceBy 2)
      if c.next (· == '>') then pure (Token.tag none suffix, c.advance) else throw .malformed
    else if endsWord following then pure (Token.tag none "!", c.advance)
    else if hasHandle c then do
      let (handle, c) ← tagHandle c
      let (suffix, c) ← tagText c
      pure (Token.tag (some handle) suffix, c)
    else do
      let (suffix, c) ← tagText c.advance
      pure (Token.tag (some "!") suffix, c)
  if endsField c.peek? then return (token, c) else throw .malformed

/-! ## Directives -/

def directiveNumber (c : Cursor) : Except Fault (Nat × Cursor) :=
  let (digits, c) := c.run Char.isDigit
  if digits.isEmpty then .error .malformed
  else if Digits.limit < digits.length then .error (.tooLong digits.length)
  else .ok (Digits.decimal digits, c)

/-- A directive behind its mark, with its line. -/
def directive (c : Cursor) : Except Fault (Token × Cursor) := do
  let (name, c) := c.run isNameChar
  if name.isEmpty || !endsField c.peek? then throw .malformed
  let (token, c) ←
    if name = "YAML".toList then do
      let (major, c) ← directiveNumber c.skipSpaces
      if !c.next (· == '.') then throw .malformed
      let (_, c) ← directiveNumber c.advance
      if !endsField c.peek? then throw .malformed
      pure (Token.version major, c)
    else if name = "TAG".toList then do
      let (handle, c) ← tagHandle c.skipSpaces
      if !c.next (· == ' ') then throw .malformed
      let (front, c) ← tagText c.skipSpaces
      if !endsField c.peek? then throw .malformed
      pure (Token.tagHandle handle front, c)
    else pure (Token.directive, c.skip (!isBreak ·))
  return (token, ← emptyLine c)

/-! ## The state of reading -/

/-- A place where a key may have begun: the number of tokens before it, whether it must be a key,
and where it stands. -/
structure KeyMark where
  position : Nat
  required : Bool
  index : Nat
  line : Nat
  column : Nat

structure Scan where
  cursor : Cursor
  /-- The tokens so far, the last one first. -/
  tokens : List Token := []
  count : Nat := 0
  /-- The number of brackets that are open. -/
  flow : Nat := 0
  indent : Int := -1
  /-- The indentations of the collections around, the nearest first. -/
  indents : List Int := []
  /-- Whether a key may begin here. -/
  keyAllowed : Bool := true
  /-- For each number of open brackets, the last place where a key may have begun. -/
  keys : List (Nat × KeyMark) := []

namespace Scan

def push (s : Scan) (t : Token) : Scan := { s with tokens := t :: s.tokens, count := s.count + 1 }

def moveTo (s : Scan) (c : Cursor) : Scan := { s with cursor := c }

/-- The longest distance between the beginning of a key and its colon. -/
def keyReach : Nat := 1024

/-- Whether the colon of a key can no longer come. -/
def isStale (s : Scan) (k : KeyMark) : Bool :=
  k.line != s.cursor.line || keyReach < s.cursor.index - k.index

/-- Forget the keys whose colon can no longer come. -/
def dropStaleKeys (s : Scan) : Except Fault Scan :=
  if s.keys.any fun k => s.isStale k.2 && k.2.required then .error .malformed
  else .ok { s with keys := s.keys.filter (!s.isStale ·.2) }

/-- How many tokens can be handed out without reading on. -/
def settled (s : Scan) : Nat :=
  ((s.keys.filter (!s.isStale ·.2)).map (·.2.position)).foldl min s.count

/-- Forget the key inside the current brackets. -/
def dropKey (s : Scan) : Except Fault Scan :=
  if s.keys.any fun k => k.1 = s.flow && k.2.required then .error .malformed
  else .ok { s with keys := s.keys.filter (·.1 ≠ s.flow) }

/-- Remember that a key may begin here. -/
def saveKey (s : Scan) : Except Fault Scan :=
  if s.keyAllowed then do
    let s ← s.dropKey
    let mark : KeyMark :=
      { position := s.count
        required := s.flow = 0 && s.indent = s.cursor.column
        index := s.cursor.index
        line := s.cursor.line
        column := s.cursor.column }
    return { s with keys := (s.flow, mark) :: s.keys }
  else .ok s

/-- Close the collections that are indented further than a column. -/
def closeBlocks (column : Int) : List Int → Scan → Scan
  | [], s => s
  | outer :: indents, s =>
    if column < s.indent then
      closeBlocks column indents { s.push .blockEnd with indent := outer, indents := indents }
    else s

/-- Indentation counts only outside brackets. -/
def unindent (column : Int) (s : Scan) : Scan :=
  if s.flow = 0 then closeBlocks column s.indents s else s

/-- Begin a collection at a column, if it is indented further than the one around. -/
def indentTo (column : Nat) (opening : Token) (s : Scan) : Scan :=
  if s.indent < column then
    { s.push opening with indent := column, indents := s.indent :: s.indents }
  else s

/-- Add tokens before the one with a given number. -/
def insert (position : Nat) (added : List Token) (s : Scan) : Scan :=
  let later := s.count - position
  { s with
    tokens := s.tokens.take later ++ added.reverse ++ s.tokens.drop later
    count := s.count + added.length }

/-! ## One token -/

/-- Go to the next token. Outside brackets a key may begin on a new line. -/
def skipToToken : Nat → Scan → Scan
  | 0, s => s
  | n + 1, s =>
    let c := s.cursor.skipSpaces.skipComment
    match c.lineBreak? with
    | none => s.moveTo c
    | some (_, c) =>
      skipToToken n { s.moveTo c with keyAllowed := s.keyAllowed || s.flow = 0 }

/-- A token that ends everything before it. -/
def boundary (s : Scan) : Except Fault Scan := do
  let s ← (s.unindent (-1)).dropKey
  return { s with keyAllowed := false }

def fetchDirective (s : Scan) : Except Fault Scan := do
  let s ← s.boundary
  let (token, c) ← directive s.cursor.advance
  return (s.moveTo c).push token

def fetchMark (token : Token) (s : Scan) : Except Fault Scan := do
  let s ← s.boundary
  return (s.moveTo (s.cursor.advanceBy 3)).push token

def fetchOpening (token : Token) (s : Scan) : Except Fault Scan := do
  let s ← s.saveKey
  return { (s.moveTo s.cursor.advance).push token with flow := s.flow + 1, keyAllowed := true }

def fetchClosing (token : Token) (s : Scan) : Except Fault Scan := do
  if s.flow = 0 then throw .malformed
  let s ← s.dropKey
  return { (s.moveTo s.cursor.advance).push token with flow := s.flow - 1, keyAllowed := false }

def fetchFlowEntry (s : Scan) : Except Fault Scan := do
  let s ← s.dropKey
  return { (s.moveTo s.cursor.advance).push .flowEntry with keyAllowed := true }

def fetchBlockEntry (s : Scan) : Except Fault Scan := do
  if s.flow = 0 && !s.keyAllowed then throw .malformed
  let s := if s.flow = 0 then s.indentTo s.cursor.column .blockSequenceStart else s
  let s ← s.dropKey
  return { (s.moveTo s.cursor.advance).push .blockEntry with keyAllowed := true }

def fetchKey (s : Scan) : Except Fault Scan := do
  if s.flow = 0 && !s.keyAllowed then throw .malformed
  let s := if s.flow = 0 then s.indentTo s.cursor.column .blockMappingStart else s
  let s ← s.dropKey
  return { (s.moveTo s.cursor.advance).push .key with keyAllowed := s.flow = 0 }

/-- A colon. If a key may have begun before it, that was one. -/
def fetchValue (s : Scan) : Except Fault Scan := do
  match s.keys.lookup s.flow with
  | some mark =>
    let s := { s with keys := s.keys.filter (·.1 ≠ s.flow), keyAllowed := false }
    let opens := s.flow = 0 && s.indent < (mark.column : Int)
    let s := s.insert mark.position (if opens then [.blockMappingStart, .key] else [.key])
    let s := if opens then
        { s with indent := mark.column, indents := s.indent :: s.indents } else s
    return (s.moveTo s.cursor.advance).push .value
  | none =>
    if s.flow = 0 && !s.keyAllowed then throw .malformed
    let s := if s.flow = 0 then s.indentTo s.cursor.column .blockMappingStart else s
    let s ← s.dropKey
    return { (s.moveTo s.cursor.advance).push .value with keyAllowed := s.flow = 0 }

def fetchAlias (s : Scan) : Except Fault Scan := do
  let s ← s.saveKey
  let (name, c) ← anchorName s.cursor.advance
  return { (s.moveTo c).push (.alias name) with keyAllowed := false }

def fetchAnchor (s : Scan) : Except Fault Scan := do
  let s ← s.saveKey
  let (name, c) ← anchorName s.cursor.advance
  return { (s.moveTo c).push (.anchor name) with keyAllowed := false }

def fetchTag (s : Scan) : Except Fault Scan := do
  let s ← s.saveKey
  let (token, c) ← tag s.cursor
  return { (s.moveTo c).push token with keyAllowed := false }

def fetchBlock (folded : Bool) (s : Scan) : Except Fault Scan := do
  let s ← s.dropKey
  let (text, c) ← block folded s.indent s.cursor.advance
  return { (s.moveTo c).push (.scalar false (Text.pointsOf text)) with keyAllowed := true }

def fetchQuoted (double : Bool) (s : Scan) : Except Fault Scan := do
  let s ← s.saveKey
  let (text, c) ← quoted double s.cursor.fuel s.cursor.advance
  return { (s.moveTo c).push (.scalar false text) with keyAllowed := false }

def fetchPlain (s : Scan) : Except Fault Scan := do
  let s ← s.saveKey
  let (text, lineEnded, c) := plain (s.flow ≠ 0) (s.indent + 1) s.cursor.fuel [] false s.cursor
  return { (s.moveTo c).push (.scalar true (Text.pointsOf text)) with keyAllowed := lineEnded }

/-- Whether a plain text can begin here. -/
def beginsPlain (s : Scan) (x : Char) (following : Option Char) : Bool :=
  !(isBlank x || isBreak x || isOneOf "-?:,[]\x7b\x7d#&*!|>'\"%@`" x) ||
    (!endsWord following && (x == '-' || (s.flow = 0 && (x == '?' || x == ':'))))

/-- Read one token, which begins with a given character. -/
def fetch (s : Scan) (x : Char) : Except Fault Scan :=
  let following := s.cursor.rest[1]?
  let atStart := s.cursor.column = 0
  let bare := s.flow = 0
  if x == '%' && atStart then s.fetchDirective
  else if atStart && s.cursor.atMark '-' then s.fetchMark .documentStart
  else if atStart && s.cursor.atMark '.' then s.fetchMark .documentEnd
  else if x == '[' then s.fetchOpening .flowSequenceStart
  else if x == '\x7b' then s.fetchOpening .flowMappingStart
  else if x == ']' then s.fetchClosing .flowSequenceEnd
  else if x == '\x7d' then s.fetchClosing .flowMappingEnd
  else if x == ',' then s.fetchFlowEntry
  else if x == '-' && endsWord following then s.fetchBlockEntry
  else if x == '?' && (!bare || endsWord following) then s.fetchKey
  else if x == ':' && (!bare || endsWord following) then s.fetchValue
  else if x == '*' then s.fetchAlias
  else if x == '&' then s.fetchAnchor
  else if x == '!' then s.fetchTag
  else if x == '|' && bare then s.fetchBlock false
  else if x == '>' && bare then s.fetchBlock true
  else if x == '\'' then s.fetchQuoted false
  else if x == '"' then s.fetchQuoted true
  else if s.beginsPlain x following then s.fetchPlain
  else .error .malformed

/-- Read on by one token. The flag says whether there was none, and everything is closed then. -/
def next (s : Scan) : Except Fault (Scan × Bool) := do
  let s ← (skipToToken s.cursor.fuel s).dropStaleKeys
  let s := s.unindent s.cursor.column
  match s.cursor.rest with
  | [] => return (← s.boundary, true)
  | x :: _ => return (← s.fetch x, false)

end Scan

/-- The tokens of a text, and the fault behind them, if there is one. -/
structure Scanned where
  tokens : List Token
  fault : Option Fault := none

/-- Read all tokens up to the end or a fault. -/
def Scan.run : Nat → Scan → Scanned
  | 0, _ => { tokens := [], fault := some .malformed }
  | n + 1, s =>
    match s.next with
    | .error f => { tokens := s.tokens.reverse.take s.settled, fault := some f }
    | .ok (s, true) => { tokens := s.tokens.reverse }
    | .ok (s, false) => run n s

/-- Read a text. A byte order mark at its beginning is no part of it. -/
def Scanned.ofText (cs : List Char) : Scanned :=
  if cs.all isAllowed then
    let start : Cursor := { rest := cs }
    let c := if start.next (· == '\ufeff') then start.advance else start
    Scan.run (cs.length + 2) { cursor := c }
  else { tokens := [], fault := some .malformed }

end HandlerComplexity.Yaml
