import HandlerComplexity.Yaml.Token

/-!
# Nodes of a YAML text

The structure that the tokens of a text describe. Aliases are replaced by what they stand for. Tokens
are looked at one after the other, so that a fault in the structure shows before a fault in the text
behind it.

Nodes and documents are finite trees. An alias inside the node that it stands for, as in `&a [*a]`, would
make a value that contains itself; such a text has no node here, and is refused as malformed.

* `Node.ofScanned`: the node of a text with at most one document.
-/

namespace HandlerComplexity.Yaml

/-- A node, with the tag that it was given. The mark tells it apart from the others; an alias has the
mark of the node that it stands for. -/
inductive Node
  | scalar (tag : Option String) (mark : Nat) (plain : Bool) (text : Text.Points)
  | sequence (tag : Option String) (items : List Node)
  | mapping (tag : Option String) (mark : Nat) (entries : List (Node × Node))

instance : Inhabited Node := ⟨.scalar none 0 true []⟩

namespace Node

/-- The node of nothing. -/
def empty : Node := .scalar none 0 true []

/-- The mark of a node; a sequence needs none. -/
def mark : Node → Nat
  | scalar _ mark _ _ => mark
  | sequence _ _ => 0
  | mapping _ mark _ => mark

/-- The tokens that are left, the fault behind them, and the names that have been given. A name whose
node is not complete has none yet. -/
structure Input where
  tokens : List Token
  fault : Option Fault := none
  anchors : List (String × Option Node) := []

namespace Input

/-- The next token, none at the end. -/
def peek (i : Input) : Except Fault (Option Token) :=
  match i.tokens, i.fault with
  | t :: _, _ => .ok (some t)
  | [], some f => .error f
  | [], none => .ok none

def drop (i : Input) : Input := { i with tokens := i.tokens.tail }

/-- Whether the next token is one of these; the end of the tokens is none. -/
def next (i : Input) (ts : List Token) : Except Fault Bool := i.peek.map (·.any ts.contains)

/-- The mark of a node that begins here: no other one begins with as many tokens left. -/
def mark (i : Input) : Nat := i.tokens.length

/-- Behind a token that must come next. -/
def expect (i : Input) (t : Token) : Except Fault Input := do
  if ← i.next [t] then return i.drop else throw .malformed

end Input

/-! ## Properties -/

/-- The name and the tag before a node. -/
structure Properties where
  anchor : Option String := none
  tag : Option String := none

/-- The short forms for the front of tags. -/
abbrev Handles := List (String × String)

def defaultHandles : Handles := [("!", "!"), ("!!", "tag:yaml.org,2002:")]

/-- The full text of a tag. -/
def fullTag (handles : Handles) (handle : Option String) (suffix : String) : Except Fault String :=
  match handle with
  | none => .ok suffix
  | some h =>
    match handles.lookup h with
    | some front => .ok (front ++ suffix)
    | none => .error .malformed

/-- The properties at the front, in either order. -/
def properties (handles : Handles) (i : Input) : Except Fault (Properties × Input) := do
  match ← i.peek with
  | some (.anchor a) =>
    match ← i.drop.peek with
    | some (.tag h t) => return (⟨some a, some (← fullTag handles h t)⟩, i.drop.drop)
    | _ => return (⟨some a, none⟩, i.drop)
  | some (.tag h t) =>
    match ← i.drop.peek with
    | some (.anchor a) => return (⟨some a, some (← fullTag handles h t)⟩, i.drop.drop)
    | _ => return (⟨none, some (← fullTag handles h t)⟩, i.drop)
  | _ => return ({}, i)

/-- The tag that counts: an exclamation mark alone is none. -/
def Properties.own? (p : Properties) : Option String := p.tag.filter (· ≠ "!")

/-- A scalar with its properties. With an exclamation mark alone it is read like a plain one. -/
def ofText (p : Properties) (mark : Nat) (plain : Bool) (text : Text.Points) : Node :=
  .scalar p.own? mark (plain || p.tag = some "!") text

/-- Take the name of a node that begins. A name can be given once. -/
def reserve (p : Properties) (i : Input) : Except Fault Input :=
  match p.anchor with
  | none => .ok i
  | some a =>
    if (i.anchors.lookup a).isSome then .error .malformed
    else .ok { i with anchors := (a, none) :: i.anchors }

/-- Remember a complete node under its name. -/
def register (p : Properties) (n : Node) (i : Input) : Node × Input :=
  match p.anchor with
  | none => (n, i)
  | some a => (n, { i with anchors := (a, some n) :: i.anchors })

/-! ## Nodes -/

mutual

/-- A node. `block` says whether it may be indented, `indentless` whether it may be a sequence whose
entries stand at the column of the mapping around. -/
def node (handles : Handles) : Nat → Bool → Bool → Input → Except Fault (Node × Input)
  | 0, _, _, _ => .error .malformed
  | n + 1, block, indentless, i => do
    match ← i.peek with
    | some (.alias a) =>
      match i.anchors.lookup a with
      | some (some node) => return (node, i.drop)
      | _ => throw .malformed
    | _ =>
      let (p, i) ← properties handles i
      let next ← i.peek
      let i ← reserve p i
      match next with
      | some (.scalar plain text) => return register p (ofText p i.mark plain text) i.drop
      | some .flowSequenceStart =>
        let (items, i) ← flowItems handles n true i.drop
        return register p (.sequence p.own? items) i
      | some .flowMappingStart =>
        let (entries, rest) ← flowEntries handles n true i.drop
        return register p (.mapping p.own? i.mark entries) rest
      | next =>
        if indentless && next = some .blockEntry then
          let (items, i) ← indentlessItems handles n i
          return register p (.sequence p.own? items) i
        else if block && next = some .blockSequenceStart then
          let (items, i) ← blockItems handles n i.drop
          return register p (.sequence p.own? items) i
        else if block && next = some .blockMappingStart then
          let (entries, rest) ← blockEntries handles n i.drop
          return register p (.mapping p.own? i.mark entries) rest
        else if p.anchor.isSome || p.tag.isSome then return register p (ofText p i.mark true []) i
        else throw .malformed

/-- A node, or the node of nothing before one of the given tokens. -/
def nodeUnless (handles : Handles) :
    Nat → Bool → Bool → List Token → Input → Except Fault (Node × Input)
  | 0, _, _, _, _ => .error .malformed
  | n + 1, block, indentless, stops, i => do
    if ← i.next stops then return (empty, i) else node handles n block indentless i

/-- The entries of an indented sequence up to its end. -/
def blockItems (handles : Handles) : Nat → Input → Except Fault (List Node × Input)
  | 0, _ => .error .malformed
  | n + 1, i => do
    if ← i.next [.blockEntry] then
      let (item, i) ← nodeUnless handles n true false [.blockEntry, .blockEnd] i.drop
      let (items, i) ← blockItems handles n i
      return (item :: items, i)
    else return ([], ← i.expect .blockEnd)

/-- The entries of a sequence that has no end of its own. -/
def indentlessItems (handles : Handles) : Nat → Input → Except Fault (List Node × Input)
  | 0, _ => .error .malformed
  | n + 1, i => do
    if ← i.next [.blockEntry] then
      let (item, i) ← nodeUnless handles n true false [.blockEntry, .key, .value, .blockEnd] i.drop
      let (items, i) ← indentlessItems handles n i
      return (item :: items, i)
    else return ([], i)

/-- The entries of an indented mapping up to its end. -/
def blockEntries (handles : Handles) : Nat → Input → Except Fault (List (Node × Node) × Input)
  | 0, _ => .error .malformed
  | n + 1, i => do
    if ← i.next [.key] then
      let (key, i) ← nodeUnless handles n true true [.key, .value, .blockEnd] i.drop
      let (value, i) ←
        if ← i.next [.value] then nodeUnless handles n true true [.key, .value, .blockEnd] i.drop
        else pure (empty, i)
      let (entries, i) ← blockEntries handles n i
      return ((key, value) :: entries, i)
    else return ([], ← i.expect .blockEnd)

/-- The items of a sequence between brackets up to its end. An item with a colon is a mapping of one
entry. -/
def flowItems (handles : Handles) : Nat → Bool → Input → Except Fault (List Node × Input)
  | 0, _, _ => .error .malformed
  | n + 1, first, i => do
    if ← i.next [.flowSequenceEnd] then return ([], i.drop)
    let i ← if first then pure i else i.expect .flowEntry
    if ← i.next [.flowSequenceEnd] then return ([], i.drop)
    let (item, i) ←
      if ← i.next [.key] then
        let (key, rest) ← nodeUnless handles n false false
          [.value, .flowEntry, .flowSequenceEnd] i.drop
        let (value, rest) ←
          if ← rest.next [.value] then
            nodeUnless handles n false false [.flowEntry, .flowSequenceEnd] rest.drop
          else pure (empty, rest)
        pure (Node.mapping none i.mark [(key, value)], rest)
      else node handles n false false i
    let (items, i) ← flowItems handles n false i
    return (item :: items, i)

/-- The entries of a mapping between braces up to its end. -/
def flowEntries (handles : Handles) :
    Nat → Bool → Input → Except Fault (List (Node × Node) × Input)
  | 0, _, _ => .error .malformed
  | n + 1, first, i => do
    if ← i.next [.flowMappingEnd] then return ([], i.drop)
    let i ← if first then pure i else i.expect .flowEntry
    if ← i.next [.flowMappingEnd] then return ([], i.drop)
    let (entry, i) ←
      if ← i.next [.key] then
        let (key, i) ← nodeUnless handles n false false
          [.value, .flowEntry, .flowMappingEnd] i.drop
        let (value, i) ←
          if ← i.next [.value] then
            nodeUnless handles n false false [.flowEntry, .flowMappingEnd] i.drop
          else pure (empty, i)
        pure ((key, value), i)
      else
        let (key, i) ← node handles n false false i
        pure ((key, empty), i)
    let (entries, i) ← flowEntries handles n false i
    return (entry :: entries, i)

end

/-! ## Documents -/

/-- The directives before a document: whether the version was given, the handles, and the rest. -/
def directives (fault : Option Fault) (versioned : Bool) (handles : Handles) :
    List Token → Except Fault (Handles × List Token)
  | .version major :: rest =>
    if versioned || major ≠ 1 then .error .malformed else directives fault true handles rest
  | .tagHandle handle front :: rest =>
    if (handles.lookup handle).isSome then .error .malformed
    else directives fault versioned ((handle, front) :: handles) rest
  | .directive :: rest => directives fault versioned handles rest
  | [] =>
    match fault with
    | some f => .error f
    | none => .ok (handles, [])
  | tokens => .ok (handles, tokens)

/-- The mark of a document behind its directives: the handles, and what is behind the mark. -/
def documentStart (i : Input) : Except Fault (Handles × Input) := do
  let (handles, rest) ← directives i.fault false [] i.tokens
  return (handles ++ defaultHandles, ← { i with tokens := rest }.expect .documentStart)

/-- The content of a document. -/
def content (handles : Handles) (i : Input) : Except Fault (Node × Input) :=
  node handles (4 * i.tokens.length + 4) true false i

/-- Whether a token begins a document with marks of its own. -/
def beginsMarked : Token → Bool
  | .version _ | .tagHandle _ _ | .directive | .documentStart => true
  | _ => false

/-- The document that begins with a mark. It may be empty. -/
def markedDocument (i : Input) : Except Fault (Node × Input) := do
  let (handles, i) ← documentStart i
  match ← i.peek with
  | none => return (empty, i)
  | some t => if beginsMarked t || t = .documentEnd then return (empty, i) else content handles i

/-- No further document may follow; marks for the end of a document may. -/
def finish (fault : Option Fault) : List Token → Except Fault Unit
  | .documentEnd :: rest => finish fault rest
  | tokens => do
    let i : Input := { tokens := tokens, fault := fault }
    if (← i.peek).isSome then
      let _ ← documentStart i
      throw .malformed

/-- The node of a text, none if the text has no document. -/
def ofScanned (s : Scanned) : Except Fault (Option Node) := do
  let i : Input := { tokens := s.tokens, fault := s.fault }
  match ← i.peek with
  | none => return none
  | some t =>
    let (node, i) ← if beginsMarked t then markedDocument i else content defaultHandles i
    finish i.fault i.tokens
    return some node

end Node

end HandlerComplexity.Yaml
