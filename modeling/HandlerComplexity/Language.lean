import HandlerComplexity.Path
import HandlerComplexity.Text.Blank
import HandlerComplexity.Text.WordChar
import HandlerComplexity.Tree.Kind

/-!
# Languages

The five source languages, and for each the rules by which its concrete syntax is read: which node
types are classes, handlers, decisions and so on.
-/

namespace HandlerComplexity

inductive Language
  | java
  | csharp
  | javascript
  | typescript
  | python
deriving DecidableEq, Repr

namespace Language

def name : Language → String
  | java => "java"
  | csharp => "csharp"
  | javascript => "javascript"
  | typescript => "typescript"
  | python => "python"

def all : List Language := [java, csharp, javascript, typescript, python]

def ofName? (name : String) : Option Language := all.find? (·.name = name)

/-- The name under which the grammar of a language is looked up. -/
def grammarName : Language → String
  | csharp => "c_sharp"
  | l => l.name

/-- File name extensions, in small letters. -/
def extensions : Language → List String
  | java => [".java"]
  | csharp => [".cs"]
  | javascript => [".js", ".jsx", ".mjs", ".cjs"]
  | typescript => [".ts", ".tsx"]
  | python => [".py"]

/-- The language of a file, by the extension of its name in any letter case. Only ASCII letters need
folding: no other letter has a letter of an extension for its lower case. -/
def ofPath? (path : String) : Option Language :=
  let extension := String.ofList ((Path.ofString path).suffix.toList.map Char.toLower)
  all.find? (·.extensions.contains extension)

end Language

/-! ## Marks of generated classes -/

namespace Annotation

/-- Whether `p` holds after the next dot of a run of word characters and dots, or a later one. -/
def afterDot (p : List Char → Bool) : List Char → Bool
  | [] => false
  | c :: cs =>
    if c == '.' then p cs || afterDot p cs
    else Text.isWordChar c && afterDot p cs

/-- Whether `p` holds here or after a qualifier: a run of word characters and dots that ends in a
dot and has something before that dot. -/
def qualified (p : List Char → Bool) (cs : List Char) : Bool :=
  p cs || match cs with
    | [] => false
    | c :: cs => (Text.isWordChar c || c == '.') && afterDot p cs

/-- Whether a text begins with a word that ends there. -/
def beginsWithWord (word cs : List Char) : Bool :=
  word.isPrefixOf cs && match cs.drop word.length with
    | [] => true
    | c :: _ => !Text.isWordChar c

/-- `@Generated`, possibly qualified, here. -/
def isJavaMark : List Char → Bool
  | '@' :: cs => qualified (beginsWithWord "Generated".toList) cs
  | _ => false

/-- `[GeneratedCode`, possibly qualified and after blanks, here. -/
def isCSharpMark : List Char → Bool
  | '[' :: cs => qualified "GeneratedCode".toList.isPrefixOf (cs.dropWhile Text.isBlank)
  | _ => false

end Annotation

/-! ## Rules -/

/-- How the concrete syntax of a language is read. -/
structure Rules where
  classTypes : List String
  kinds : List (String × Kind)
  blockTypes : List String
  elseTypes : List String := []
  elseIfTypes : List String := []
  packageTypes : List String := []
  namespaceTypes : List String := []
  modifierTypes : List String := []
  /-- Whether the mark of a generated class begins here; searched in the modifiers of a class. -/
  generatedMark : Option (List Char → Bool) := none
  partialModifierTypes : List String := []
  localScopeTypes : List String := []
  nestedSeparator : String := "."
  /-- Whether names are qualified by the module, that is by the path of the file. -/
  moduleScoped : Bool := false

/-- The kind of a node type. -/
def Rules.kindOf (r : Rules) (nodeType : String) : Kind :=
  (r.kinds.lookup nodeType).getD .other

namespace Language

/-- The statements that JavaScript and TypeScript share. -/
def scriptKinds : List (String × Kind) :=
  [("class_declaration", .classBody), ("class", .classBody), ("catch_clause", .handler),
    ("if_statement", .conditional), ("switch_statement", .switch), ("switch_case", .caseLabel),
    ("switch_default", .caseLabel), ("for_statement", .forLoop), ("for_in_statement", .forEach),
    ("while_statement", .whileLoop), ("do_statement", .doLoop), ("break_statement", .breakJump),
    ("continue_statement", .continueJump), ("return_statement", .returnJump),
    ("binary_expression", .binaryOperator), ("statement_block", .block)]

def javaRules : Rules where
  classTypes := ["class_declaration", "enum_declaration", "record_declaration"]
  kinds :=
    [("class_declaration", .classBody), ("enum_declaration", .classBody),
      ("record_declaration", .classBody), ("catch_clause", .handler),
      ("if_statement", .conditional), ("switch_statement", .switch),
      ("switch_expression", .switch), ("switch_label", .caseLabel), ("for_statement", .forLoop),
      ("enhanced_for_statement", .forEach), ("while_statement", .whileLoop),
      ("do_statement", .doLoop), ("break_statement", .breakJump),
      ("continue_statement", .continueJump), ("return_statement", .returnJump),
      ("binary_expression", .binaryOperator), ("block", .block)]
  blockTypes := ["block"]
  packageTypes := ["package_declaration"]
  modifierTypes := ["modifiers"]
  generatedMark := some Annotation.isJavaMark
  localScopeTypes :=
    ["block", "switch_block_statement_group", "object_creation_expression", "enum_constant"]
  nestedSeparator := "$"

def csharpRules : Rules where
  classTypes := ["class_declaration", "struct_declaration", "record_declaration"]
  kinds :=
    [("class_declaration", .classBody), ("struct_declaration", .classBody),
      ("record_declaration", .classBody), ("catch_clause", .handler),
      ("if_statement", .conditional), ("switch_statement", .switch),
      ("switch_expression", .switch), ("case_switch_label", .caseLabel),
      ("case_pattern_switch_label", .caseLabel), ("default_switch_label", .caseLabel),
      ("switch_expression_arm", .caseLabel), ("for_statement", .forLoop),
      ("for_each_statement", .forEach), ("foreach_statement", .forEach),
      ("while_statement", .whileLoop), ("do_statement", .doLoop),
      ("break_statement", .breakJump), ("continue_statement", .continueJump),
      ("return_statement", .returnJump), ("binary_expression", .binaryOperator),
      ("block", .block)]
  blockTypes := ["block"]
  packageTypes := ["file_scoped_namespace_declaration"]
  namespaceTypes := ["namespace_declaration"]
  modifierTypes := ["attribute_list"]
  partialModifierTypes := ["modifier"]
  generatedMark := some Annotation.isCSharpMark

def javascriptRules : Rules where
  classTypes := ["class_declaration", "class"]
  kinds := scriptKinds
  blockTypes := ["statement_block"]
  moduleScoped := true

def typescriptRules : Rules where
  classTypes := ["class_declaration", "abstract_class_declaration", "class"]
  kinds := scriptKinds ++ [("abstract_class_declaration", .classBody)]
  blockTypes := ["statement_block"]
  moduleScoped := true

def pythonRules : Rules where
  classTypes := ["class_definition"]
  kinds :=
    [("class_definition", .classBody), ("except_clause", .handler),
      ("except_group_clause", .handler), ("if_statement", .conditional),
      ("elif_clause", .conditional), ("match_statement", .switch), ("case_clause", .caseLabel),
      ("for_statement", .forEach), ("while_statement", .whileLoop),
      ("break_statement", .breakJump), ("continue_statement", .continueJump),
      ("return_statement", .returnJump), ("boolean_operator", .binaryOperator),
      ("block", .block)]
  blockTypes := ["block"]
  elseTypes := ["else_clause"]
  elseIfTypes := ["elif_clause"]
  moduleScoped := true

def rules : Language → Rules
  | java => javaRules
  | csharp => csharpRules
  | javascript => javascriptRules
  | typescript => typescriptRules
  | python => pythonRules

end Language

end HandlerComplexity
