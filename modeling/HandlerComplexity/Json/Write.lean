import HandlerComplexity.Document

/-!
# Writing JSON

Documents are written in ASCII: every other character is escaped, in two halves if it lies beyond the
first `2 ^ 16` characters. Each entry of a collection stands on its own line, indented by two blanks
for each level; an empty collection has no lines of its own. What the format has no form for becomes
a text or a list.
-/

namespace HandlerComplexity.Json

/-- A code unit as an escape. -/
def escapeUnit (n : Nat) : List Char := '\\' :: 'u' :: Text.hex 4 n

/-- A character inside a string. -/
def escape (c : Char) : List Char :=
  if c == '"' then ['\\', '"']
  else if c == '\\' then ['\\', '\\']
  else if c == '\n' then ['\\', 'n']
  else if c == '\r' then ['\\', 'r']
  else if c == '\t' then ['\\', 't']
  else if c == '\x0c' then ['\\', 'f']
  else if c == '\x08' then ['\\', 'b']
  else if ' ' ≤ c ∧ c ≤ '~' then [c]
  else if c.toNat < 0x10000 then escapeUnit c.toNat
  else
    let n := c.toNat - 0x10000
    escapeUnit (0xd800 + n / 0x400) ++ escapeUnit (0xdc00 + n % 0x400)

/-- A text between double quotes. -/
def string (s : String) : List Char := '"' :: s.toList.flatMap escape ++ ['"']

/-- A code point inside a string. -/
def escapePoint : Text.Point → List Char
  | .char c => escape c
  | .half n => escapeUnit (0xd800 + n)

def real : Binary64 → String
  | .nan => "NaN"
  | .infinity negative => if negative then "-Infinity" else "Infinity"
  | x => x.text

def scalar : Scalar → List Char
  | .null => "null".toList
  | .bool b => (if b then "true" else "false").toList
  | .int i => (toString i).toList
  | .real x => (real x).toList
  | .nan _ => (real .nan).toList
  | .text s => string s
  | .broken ps => '"' :: ps.flatMap escapePoint ++ ['"']
  | .date d => string d.text
  | .moment m => string m.text
  | .bytes bs => string (Text.quotedBytes bs)

/-- A key is always a string. -/
def key : Scalar → List Char
  | .text s => string s
  | .broken ps => scalar (.broken ps)
  | k => string (String.ofList (scalar k))

/-- A new line at a level. -/
def newLine (level : Nat) : List Char := '\n' :: List.replicate (2 * level) ' '

mutual

/-- A document whose own lines are at a level. -/
def write (level : Nat) : Document → List Char
  | .scalar s => scalar s
  | .list [] => ['[', ']']
  | .list (d :: ds) =>
    '[' :: newLine (level + 1) ++ write (level + 1) d ++ writeItems (level + 1) ds ++
      newLine level ++ [']']
  | .map [] => ['\x7b', '\x7d']
  | .map ((k, d) :: es) =>
    '\x7b' :: newLine (level + 1) ++ key k ++ ':' :: ' ' :: write (level + 1) d ++
      writeEntries (level + 1) es ++ newLine level ++ ['\x7d']
  | .set [] => ['[', ']']
  | .set (s :: ss) =>
    '[' :: newLine (level + 1) ++ scalar s ++
      ss.flatMap (fun s => ',' :: newLine (level + 1) ++ scalar s) ++ newLine level ++ [']']
  | .pair a b =>
    '[' :: newLine (level + 1) ++ write (level + 1) a ++ ',' :: newLine (level + 1) ++
      write (level + 1) b ++ newLine level ++ [']']

/-- The items after the first. -/
def writeItems (level : Nat) : List Document → List Char
  | [] => []
  | d :: ds => ',' :: newLine level ++ write level d ++ writeItems level ds

/-- The entries after the first. -/
def writeEntries (level : Nat) : List (Scalar × Document) → List Char
  | [] => []
  | (k, d) :: es =>
    ',' :: newLine level ++ key k ++ ':' :: ' ' :: write level d ++ writeEntries level es

end

/-- The text of a document. -/
def render (d : Document) : String := String.ofList (write 0 d)

end HandlerComplexity.Json
