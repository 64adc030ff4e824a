import HandlerComplexity.Language
import HandlerComplexity.Source.Cst
import HandlerComplexity.Text.Search
import HandlerComplexity.Text.Utf8

/-!
# Source files

A source file with its bytes and its concrete syntax, and the grammars that produce it. The grammars
are given from outside: they may be missing altogether, and each may fail to load.
-/

namespace HandlerComplexity

/-- What a grammar makes of the bytes of a file. -/
structure Parse where
  root : Cst
  hasError : Bool := false

inductive Grammars
  | missing
  /-- `fault` says why a grammar does not load, `parse` what it makes of bytes. -/
  | installed (fault : String → Option String) (parse : String → List UInt8 → Parse)

/-- Why a file has no concrete syntax. -/
inductive GrammarError
  /-- The file cannot be read, for a reason that the system gives. -/
  | unreadable (path reason : String)
  | unsupported (language : String)
  | notInstalled
  | notLoaded (language reason : String)
deriving DecidableEq, Repr

def GrammarError.message : GrammarError → String
  | unreadable path reason => reason ++ ": " ++ Text.quoted path
  | unsupported language => "Unsupported language: " ++ language
  | notInstalled => "tree_sitter_languages is not installed"
  | notLoaded language reason =>
    "Cannot load tree-sitter grammar for " ++ language ++ ": " ++ reason

structure SourceFile where
  path : String
  language : Language
  bytes : List UInt8
  root : Cst
  hasError : Bool := false

namespace SourceFile

/-- Parse the bytes of a file in a language. -/
def parse (g : Grammars) (language path : String) (bytes : List UInt8) :
    Except GrammarError SourceFile :=
  match Language.ofName? language with
  | none => .error (.unsupported language)
  | some l =>
    match g with
    | .missing => .error .notInstalled
    | .installed fault parse =>
      match fault l.grammarName with
      | some reason => .error (.notLoaded l.name reason)
      | none =>
        let p := parse l.grammarName bytes
        .ok ⟨path, l, bytes, p.root, p.hasError⟩

/-- The marks of a generated file. -/
def generatedMarks : List String :=
  ["@generated", "<auto-generated", "Code generated by", "DO NOT EDIT"]

/-- The number of bytes at the front of a file in which a mark counts. -/
def headerLength : Nat := 2048

/-- Whether the front of the file has the mark of a generated file. -/
def generated (f : SourceFile) : Bool :=
  let header := Text.Utf8.decodeLenient (f.bytes.take headerLength)
  generatedMarks.any fun m => Text.occursIn m.toList header

/-- The text of a node. -/
def textOf (f : SourceFile) (c : Cst) : List Char :=
  Text.Utf8.decodeLenient ((f.bytes.drop c.start).take (c.stop - c.start))

end SourceFile

end HandlerComplexity
