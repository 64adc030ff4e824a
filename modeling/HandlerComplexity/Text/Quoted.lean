import HandlerComplexity.Text.Point
import HandlerComplexity.Text.Printable

/-!
# Quoted texts

How a text is shown inside a message: between quotes, with escapes for everything that is not
printable. Single quotes are used unless the text holds a single quote and no double quote.
-/

namespace HandlerComplexity.Text

/-- The last `width` hexadecimal digits of a number. -/
def hex (width n : Nat) : List Char :=
  match width with
  | 0 => []
  | w + 1 => hex w (n / 16) ++ [Nat.digitChar (n % 16)]

/-- A character inside a text quoted by `quote`. -/
def quoteChar (quote : Char) (c : Char) : List Char :=
  if c == quote || c == '\\' then ['\\', c]
  else if c == '\n' then ['\\', 'n']
  else if c == '\r' then ['\\', 'r']
  else if c == '\t' then ['\\', 't']
  else if isPrintable c then [c]
  else if c.toNat < 0x100 then '\\' :: 'x' :: hex 2 c.toNat
  else if c.toNat < 0x10000 then '\\' :: 'u' :: hex 4 c.toNat
  else '\\' :: 'U' :: hex 8 c.toNat

/-- The quote that needs no escape, if there is one; else the single quote. -/
def quoteMark (cs : List Char) : Char :=
  if cs.contains '\'' && !cs.contains '"' then '"' else '\''

/-- The text between quotes. -/
def quoted (s : String) : String :=
  let q := quoteMark s.toList
  String.ofList (q :: s.toList.flatMap (quoteChar q) ++ [q])

/-! ## Code points and bytes -/

/-- A code point inside a quoted text. -/
def quotePoint (quote : Char) : Point → List Char
  | .char c => quoteChar quote c
  | .half n => '\\' :: 'u' :: hex 4 (0xd800 + n)

/-- The code points between quotes. -/
def quotedPoints (ps : Points) : String :=
  let q := quoteMark (ps.filterMap Point.char?)
  String.ofList (q :: ps.flatMap (quotePoint q) ++ [q])

/-- A byte inside quoted bytes: only the printable characters of ASCII stand for themselves. -/
def quoteByte (quote : Char) (b : UInt8) : List Char :=
  if b < 0x80 then quoteChar quote (Char.ofNat b.toNat) else '\\' :: 'x' :: hex 2 b.toNat

/-- The bytes between quotes, behind a mark for bytes. -/
def quotedBytes (bs : List UInt8) : String :=
  let q := quoteMark (bs.map fun b => Char.ofNat b.toNat)
  String.ofList ('b' :: q :: bs.flatMap (quoteByte q) ++ [q])

end HandlerComplexity.Text
