import HandlerComplexity.Calendar
import HandlerComplexity.Text.Point

/-!
# Places in a YAML text

A cursor is the text that is left, with the number of characters, lines and columns before it. Lines
end at a line feed, a carriage return, both together, a next-line mark, or one of the two separators
of Unicode.
-/

namespace HandlerComplexity.Yaml

/-- Why a text cannot be read. -/
inductive Fault
  /-- The text is not in the format. -/
  | malformed
  /-- An escape beyond the last character. -/
  | codePoint (n : Nat)
  /-- A text marked as an integer that is none in the base. -/
  | integer (base : Nat) (text : Text.Points)
  /-- A decimal integer of more digits than are allowed. -/
  | tooLong (digits : Nat)
  /-- A text marked as a real number that is none. -/
  | real (text : Text.Points)
  /-- A text marked as a truth value that is none. -/
  | truth (text : Text.Points)
  /-- A number without any digits. -/
  | emptyNumber
  /-- A real number in groups of base sixty with too many groups. -/
  | overflow
  /-- A date or a moment that is in no calendar. -/
  | calendar (f : CalendarFault)
  /-- A text marked as a date or a moment that does not look like one. -/
  | notTimestamp
  /-- A mapping marked as a date or a moment. -/
  | notText
deriving DecidableEq, Repr

/-! ## Characters -/

def isBreak (c : Char) : Bool :=
  c == '\n' || c == '\r' || c == '\u0085' || c == '\u2028' || c == '\u2029'

def isBlank (c : Char) : Bool := c == ' ' || c == '\t'

/-- Whether a word ends before this character or at the end of the text. -/
def endsWord : Option Char → Bool
  | none => true
  | some c => isBlank c || isBreak c

/-- As `endsWord`, but a tab does not end a word. -/
def endsField : Option Char → Bool
  | none => true
  | some c => c == ' ' || isBreak c

def isOneOf (cs : String) (c : Char) : Bool := cs.toList.contains c

def isNameChar (c : Char) : Bool := c.isAlphanum || c == '-' || c == '_'

/-- Whether a character may stand in a text at all. -/
def isAllowed (c : Char) : Bool :=
  let n := c.toNat
  n == 9 || n == 10 || n == 13 || (0x20 ≤ n && n ≤ 0x7e) || n == 0x85 ||
    (0xa0 ≤ n && n ≤ 0xd7ff) || (0xe000 ≤ n && n ≤ 0xfffd) || 0x10000 ≤ n

/-! ## Cursors -/

structure Cursor where
  rest : List Char
  index : Nat := 0
  line : Nat := 0
  column : Nat := 0

namespace Cursor

def peek? (c : Cursor) : Option Char := c.rest.head?

def atEnd (c : Cursor) : Bool := c.rest.isEmpty

/-- Whether the next character is there and fulfils a condition. -/
def next (c : Cursor) (p : Char → Bool) : Bool := c.rest.head?.any p

/-- Behind the next character. A byte order mark takes no column. -/
def advance (c : Cursor) : Cursor :=
  match c.rest with
  | [] => c
  | x :: rest =>
    if isBreak x && !(x == '\r' && rest.head? == some '\n') then
      ⟨rest, c.index + 1, c.line + 1, 0⟩
    else ⟨rest, c.index + 1, c.line, if x == '\ufeff' then c.column else c.column + 1⟩

def advanceBy : Nat → Cursor → Cursor
  | 0, c => c
  | n + 1, c => advanceBy n c.advance

/-- The characters at the front that fulfil a condition, and the cursor behind them. -/
def run (p : Char → Bool) (c : Cursor) : List Char × Cursor :=
  let taken := c.rest.takeWhile p
  (taken, advanceBy taken.length c)

/-- Behind the characters at the front that fulfil a condition. -/
def skip (p : Char → Bool) (c : Cursor) : Cursor := (c.run p).2

def skipSpaces (c : Cursor) : Cursor := c.skip (· == ' ')

/-- Behind a comment, if there is one here. -/
def skipComment (c : Cursor) : Cursor :=
  if c.next (· == '#') then c.skip (!isBreak ·) else c

/-- A line end here, as the character that it stands for, and the cursor behind it. -/
def lineBreak? (c : Cursor) : Option (Char × Cursor) :=
  match c.rest with
  | [] => none
  | '\r' :: '\n' :: _ => some ('\n', advanceBy 2 c)
  | x :: _ =>
    if x == '\u2028' || x == '\u2029' then some (x, c.advance)
    else if isBreak x then some ('\n', c.advance)
    else none

/-- Whether one of the two marks between documents stands here. -/
def atMark (mark : Char) (c : Cursor) : Bool :=
  [mark, mark, mark].isPrefixOf c.rest && endsWord c.rest[3]?

def atSeparator (c : Cursor) : Bool := c.atMark '-' || c.atMark '.'

/-- Enough steps for any loop that moves on with each step. -/
def fuel (c : Cursor) : Nat := c.rest.length + 1

end Cursor

/-- The rest of a line that may hold blanks and a comment only, and its end. -/
def emptyLine (c : Cursor) : Except Fault Cursor :=
  let c := c.skipSpaces.skipComment
  match c.lineBreak? with
  | some (_, c) => .ok c
  | none => if c.atEnd then .ok c else .error .malformed

end HandlerComplexity.Yaml
