/-!
# Records separated by commas

A field is quoted when it holds a comma, a quote or a newline, and a quote inside it is written twice.
Every record ends in a newline.
-/

namespace HandlerComplexity.Csv

/-- Whether a field with this character has to be quoted. -/
def isSpecial (c : Char) : Bool := c == ',' || c == '"' || c == '\n'

/-- The characters of a quoted field. -/
def double (cs : List Char) : List Char :=
  cs.flatMap fun c => if c == '"' then ['"', '"'] else [c]

def field (s : String) : List Char :=
  if s.toList.any isSpecial then '"' :: double s.toList ++ ['"'] else s.toList

/-- A record of one field or more, with its newline. -/
def record : List String → List Char
  | [] => ['\n']
  | [f] => field f ++ ['\n']
  | f :: fs => field f ++ ',' :: record fs

def write (records : List (List String)) : List Char := records.flatMap record

/-! ## Reading -/

/-- Where a reader is within a field. -/
inductive Mode
  /-- At its beginning. -/
  | fresh
  /-- In a field without quotes. -/
  | plain
  /-- Between quotes. -/
  | quoted
  /-- Behind a quote that ends the field unless another one follows. -/
  | closed
deriving DecidableEq, Repr

/-- A reader on its way through a text, with the last of everything first. -/
structure Reader where
  mode : Mode := .fresh
  chars : List Char := []
  fields : List String := []
  records : List (List String) := []
deriving DecidableEq, Repr

namespace Reader

/-- Put a character into the field. -/
def put (r : Reader) (mode : Mode) (c : Char) : Reader := { r with mode := mode, chars := c :: r.chars }

def endField (r : Reader) : Reader :=
  { r with mode := .fresh, chars := [], fields := String.ofList r.chars.reverse :: r.fields }

def endRecord (r : Reader) : Reader :=
  { r.endField with fields := [], records := r.endField.fields.reverse :: r.records }

/-- Read one character. Refused is what readers do not agree on: outside of quotes a carriage return,
a quote in a field that does not begin with one, and anything but a quote behind a closing quote that
does not end the field. -/
def step (r : Reader) (c : Char) : Option Reader :=
  if r.mode = .quoted then
    some (if c = '"' then { r with mode := .closed } else r.put .quoted c)
  else if c = ',' then some r.endField
  else if c = '\n' then some r.endRecord
  else if c = '\r' then none
  else
    match r.mode with
    | .fresh => some (if c = '"' then { r with mode := .quoted } else r.put .plain c)
    | .closed => if c = '"' then some (r.put .quoted c) else none
    | _ => if c = '"' then none else some (r.put .plain c)

/-- The records at the end of the text, where quotes must not be open. The last record need not end in
a newline. -/
def finish (r : Reader) : Option (List (List String)) :=
  if r.mode = .quoted then none
  else if r.mode = .fresh ∧ r.fields = [] then some r.records.reverse
  else some r.endRecord.records.reverse

end Reader

/-- The records of a text, read character by character. -/
def read (cs : List Char) : Option (List (List String)) := (cs.foldlM Reader.step {}).bind Reader.finish

end HandlerComplexity.Csv
