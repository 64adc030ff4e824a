import HandlerComplexity.Number.Digits
import HandlerComplexity.Yaml.Cursor

/-!
# Scalars in a YAML text

Plain texts, quoted texts, and blocks of lines. In the first two a line end between words stands for
one blank, and more line ends for one line end less.
-/

namespace HandlerComplexity.Yaml

/-- What stands for a line end and the line ends behind it. -/
def fold (lineEnd : Char) (more : List Char) : List Char :=
  if lineEnd ≠ '\n' then lineEnd :: more
  else if more.isEmpty then [' ']
  else more

/-! ## Quoted texts -/

/-- The line ends here, with the blanks around them dropped. A mark between documents is an error. -/
def quotedBreaks : Nat → Cursor → Except Fault (List Char × Cursor)
  | 0, c => .ok ([], c)
  | n + 1, c =>
    if c.atSeparator then .error .malformed
    else
      let c := c.skip isBlank
      match c.lineBreak? with
      | none => .ok ([], c)
      | some (b, c) => (quotedBreaks n c).map fun r => (b :: r.1, r.2)

/-- The character that a letter stands for behind a backslash. -/
def escape? : Char → Option Char
  | '0' => some '\x00'
  | 'a' => some '\x07'
  | 'b' => some '\x08'
  | 't' => some '\t'
  | '\t' => some '\t'
  | 'n' => some '\n'
  | 'v' => some '\x0b'
  | 'f' => some '\x0c'
  | 'r' => some '\r'
  | 'e' => some '\x1b'
  | ' ' => some ' '
  | '"' => some '"'
  | '\\' => some '\\'
  | '/' => some '/'
  | 'N' => some '\u0085'
  | '_' => some '\u00a0'
  | 'L' => some '\u2028'
  | 'P' => some '\u2029'
  | _ => none

/-- The number of digits behind a letter that stands for a code point. -/
def escapeWidth? : Char → Option Nat
  | 'x' => some 2
  | 'u' => some 4
  | 'U' => some 8
  | _ => none

/-- A code point given by its digits. -/
def codePoint (width : Nat) (c : Cursor) : Except Fault (Text.Point × Cursor) :=
  let digits := c.rest.take width
  if digits.length = width ∧ digits.all fun d => (Digits.hexValue? d).isSome then
    let n := Digits.toNat 16 digits
    if 0x10ffff < n then .error (.codePoint n)
    else .ok (.ofNat n, c.advanceBy width)
  else .error .malformed

/-- An escape behind its backslash. -/
def escape (c : Cursor) : Except Fault (Text.Points × Cursor) :=
  match c.rest with
  | [] => .error .malformed
  | x :: _ =>
    match escape? x, escapeWidth? x with
    | some e, _ => .ok ([.char e], c.advance)
    | none, some width => (codePoint width c.advance).map fun r => ([r.1], r.2)
    | none, none =>
      match c.lineBreak? with
      | some (_, c) => (quotedBreaks c.fuel c).map fun r => (Text.pointsOf r.1, r.2)
      | none => .error .malformed

/-- A quoted text behind its opening quote, and the cursor behind its closing quote. Only a text
between double quotes has escapes; in one between single quotes a quote is written twice. -/
def quoted (double : Bool) : Nat → Cursor → Except Fault (Text.Points × Cursor)
  | 0, _ => .error .malformed
  | n + 1, c =>
    let (word, c) := c.run fun x => !(isOneOf "'\"\\" x || isBlank x || isBreak x)
    let andThen (piece : Text.Points) (c : Cursor) : Except Fault (Text.Points × Cursor) :=
      (quoted double n c).map fun r => (Text.pointsOf word ++ piece ++ r.1, r.2)
    match c.rest with
    | [] => .error .malformed
    | x :: more =>
      if !double && x == '\'' && more.head? == some '\'' then andThen [.char '\''] (c.advanceBy 2)
      else if x == (if double then '"' else '\'') then .ok (Text.pointsOf word, c.advance)
      else if x == '\'' || x == '"' then andThen [.char x] c.advance
      else if x == '\\' then
        if double then
          match escape c.advance with
          | .error f => .error f
          | .ok (piece, c) => andThen piece c
        else andThen [.char x] c.advance
      else
        let (blanks, c) := c.run isBlank
        if c.atEnd then .error .malformed
        else
          match c.lineBreak? with
          | none => andThen (Text.pointsOf blanks) c
          | some (b, c) =>
            match quotedBreaks c.fuel c with
            | .error f => .error f
            | .ok (more, c) => andThen (Text.pointsOf (fold b more)) c

/-! ## Plain texts -/

/-- Whether a plain text ends before a character; inside brackets it ends at more of them. -/
def endsPlain (flow : Bool) (c : Char) (following : Option Char) : Bool :=
  isBlank c || isBreak c ||
    (c == ':' && (endsWord following || (flow && following.any (isOneOf ",[]\x7b\x7d")))) ||
    (flow && isOneOf ",?[]\x7b\x7d" c)

/-- The word at the front of a plain text. -/
def plainWord (flow : Bool) : List Char → List Char
  | [] => []
  | c :: cs => if endsPlain flow c cs.head? then [] else c :: plainWord flow cs

/-- The line ends here, with the blanks around them dropped, up to a mark between documents. The
flag says whether there was such a mark. -/
def plainBreaks : Nat → Cursor → List Char × Bool × Cursor
  | 0, c => ([], false, c)
  | n + 1, c =>
    let c := c.skipSpaces
    match c.lineBreak? with
    | none => ([], false, c)
    | some (b, c) =>
      if c.atSeparator then ([b], true, c)
      else
        let (more, marked, c) := plainBreaks n c
        (b :: more, marked, c)

/-- What lies between two words: the text that stands for it, whether a line ended, and the cursor
behind it. The text is empty where the plain text ends. -/
def plainGap (c : Cursor) : List Char × Bool × Cursor :=
  let (spaces, c) := c.run (· == ' ')
  match c.lineBreak? with
  | none => (spaces, false, c)
  | some (b, c) =>
    if c.atSeparator then ([], true, c)
    else
      let (more, marked, c) := plainBreaks c.fuel c
      (if marked then [] else fold b more, true, c)

/-- A plain text from its first word on; `gap` stands before the next word. Lines that go on must be
indented by at least `indent`. The flag says whether a line ended behind the last word. -/
def plain (flow : Bool) (indent : Int) : Nat → List Char → Bool → Cursor → List Char × Bool × Cursor
  | 0, _, lineEnded, c => ([], lineEnded, c)
  | n + 1, gap, lineEnded, c =>
    if c.next (· == '#') then ([], lineEnded, c)
    else
      let word := plainWord flow c.rest
      if word.isEmpty then ([], lineEnded, c)
      else
        let (following, lineEnded, c) := plainGap (c.advanceBy word.length)
        if following.isEmpty || c.next (· == '#') || (!flow && (c.column : Int) < indent) then
          (gap ++ word, lineEnded, c)
        else
          let (more, lineEnded, c) := plain flow indent n following lineEnded c
          (gap ++ word ++ more, lineEnded, c)

/-! ## Blocks of lines -/

/-- What becomes of the line ends behind a block. -/
inductive Chomping
  | strip
  | clip
  | keep
deriving DecidableEq, Repr

/-- A sign for the line ends behind a block. -/
def chomping? (c : Cursor) : Option (Chomping × Cursor) :=
  match c.rest with
  | '+' :: _ => some (.keep, c.advance)
  | '-' :: _ => some (.strip, c.advance)
  | _ => none

/-- A digit for the indentation of a block; zero is an error. -/
def increment? (c : Cursor) : Except Fault (Option Nat × Cursor) :=
  match c.rest with
  | d :: _ =>
    if d == '0' then .error .malformed
    else if d.isDigit then .ok (some (d.toNat - '0'.toNat), c.advance)
    else .ok (none, c)
  | [] => .ok (none, c)

/-- The signs behind the mark of a block, in either order. -/
def blockHeader (c : Cursor) : Except Fault (Chomping × Option Nat × Cursor) := do
  let (chomping, increment, c) ← match chomping? c with
    | some (chomping, c) => do
      let (increment, c) ← increment? c
      pure (chomping, increment, c)
    | none => do
      let (increment, c) ← increment? c
      match increment, chomping? c with
      | some _, some (chomping, c) => pure (chomping, increment, c)
      | _, _ => pure (Chomping.clip, increment, c)
  if endsField c.peek? then return (chomping, increment, c) else throw .malformed

/-- Behind the blanks here, up to a column. -/
def indentTo (indent : Nat) (c : Cursor) : Cursor :=
  let spaces := (c.rest.takeWhile (· == ' ')).length
  c.advanceBy (min spaces (indent - c.column))

/-- The empty lines here, each indented up to a column. -/
def blockBreaks (indent : Nat) : Nat → Cursor → List Char × Cursor
  | 0, c => ([], c)
  | n + 1, c =>
    let c := indentTo indent c
    match c.lineBreak? with
    | none => ([], c)
    | some (b, c) =>
      let (more, c) := blockBreaks indent n c
      (b :: more, c)

/-- The empty lines at the front of a block, and the widest indentation up to its first line. -/
def blockIndent (widest : Nat) : Nat → Cursor → List Char × Nat × Cursor
  | 0, c => ([], widest, c)
  | n + 1, c =>
    let c := c.skipSpaces
    let widest := max widest c.column
    match c.lineBreak? with
    | none => ([], widest, c)
    | some (b, c) =>
      let (more, widest, c) := blockIndent widest n c
      (b :: more, widest, c)

/-- The lines of a block: their text, the last line end, the empty lines behind it, and the cursor.
`gap` are the empty lines before the next line. In a folded block a line end between two lines that
begin with a word is folded. -/
def blockLines (folded : Bool) (indent : Nat) :
    Nat → List Char → Cursor → List Char × List Char × List Char × Cursor
  | 0, gap, c => ([], [], gap, c)
  | n + 1, gap, c =>
    if c.column = indent ∧ !c.atEnd then
      let isWord := !c.next isBlank
      let (text, c) := c.run (!isBreak ·)
      let (lineEnd, c) := match c.lineBreak? with
        | some (b, c) => ([b], c)
        | none => ([], c)
      let (following, c) := blockBreaks indent c.fuel c
      if c.column = indent ∧ !c.atEnd then
        let glue :=
          if folded && lineEnd == ['\n'] && isWord && !c.next isBlank then
            if following.isEmpty then [' '] else []
          else lineEnd
        let (more, last, trailing, c) := blockLines folded indent n following c
        (gap ++ text ++ glue ++ more, last, trailing, c)
      else (gap ++ text, lineEnd, following, c)
    else ([], [], gap, c)

/-- A block behind its mark. `outer` is the indentation of what it belongs to. -/
def block (folded : Bool) (outer : Int) (c : Cursor) : Except Fault (List Char × Cursor) := do
  let (chomping, increment, c) ← blockHeader c
  let c ← emptyLine c
  let least := (max (outer + 1) 1).toNat
  let (indent, gap, c) := match increment with
    | some k =>
      let indent := least + k - 1
      let (gap, c) := blockBreaks indent c.fuel c
      (indent, gap, c)
    | none =>
      let (gap, widest, c) := blockIndent 0 c.fuel c
      (max least widest, gap, c)
  let (text, lineEnd, trailing, c) := blockLines folded indent c.fuel gap c
  match chomping with
  | .strip => return (text, c)
  | .clip => return (text ++ lineEnd, c)
  | .keep => return (text ++ lineEnd ++ trailing, c)

end HandlerComplexity.Yaml
