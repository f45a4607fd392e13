/-
  The schemas the protocol generator reads, and the names it makes of theirs.

  `Schema` has the keys the generator looks at.  The texts that only become comments, and the keys
  it never reads, are left out.
-/
import DapDbgeng.Dict
import DapDbgeng.Json

namespace DapDbgeng.Protgen

/-- `type`: one name or a list of names. -/
inductive TypeSpec where
  | one (name : String)
  | several (names : List String)
  deriving DecidableEq, Repr

structure Schema where
  /-- `$ref` -/
  ref : Option String := none
  /-- `_enum` -/
  openEnum : Option (List Json) := none
  enum : Option (List Json) := none
  oneOf : Option (List Schema) := none
  anyOf : Option (List Schema) := none
  type : Option TypeSpec := none
  format : Option String := none
  items : Option Schema := none
  properties : Option (List (String × Schema)) := none
  required : List String := []
  additionalProperties : Option (Bool ⊕ Schema) := none
  allOf : Option (List Schema) := none

/-- The text of a string value. -/
def text? : Json → Option String
  | .str s => some s
  | _ => none

/-- The values of a list that is not empty and has nothing but strings. -/
def schemaEnumValues (schema : Schema) : List String :=
  let values := match schema.openEnum with
    | some (v :: vs) => v :: vs
    | _ => schema.enum.getD []
  (values.mapM text?).getD []

/-- `ref_path.rsplit("/", maxsplit=1)[-1]`. -/
def refName (path : String) : String :=
  String.ofList (path.toList.reverse.takeWhile (· ≠ '/')).reverse

/-! ## Identifiers -/

/-- What the runtime of the generator knows of characters: `isalnum`, `isdigit` and `upper`. -/
structure Unicode where
  isalnum : Char → Bool
  isdigit : Char → Bool
  upper : Char → String

namespace Unicode

/-- The ASCII part. -/
def ascii : Unicode where
  isalnum := Char.isAlphanum
  isdigit := Char.isDigit
  upper c := c.toUpper.toString

variable (u : Unicode)

/-- The words of a text, each with its first letter in upper case. -/
def capitalizedWords (value : String) : List Char :=
  ((Text.splitList (fun c => !u.isalnum c) value.toList).filter (!·.isEmpty)).flatMap fun
    | [] => []
    | c :: cs => (u.upper c).toList ++ cs

def startsWithDigit : List Char → Bool
  | [] => false
  | c :: _ => u.isdigit c

def sanitizeIdentifier (value : String) : String :=
  let candidate := u.capitalizedWords value
  if candidate.isEmpty then "GeneratedType"
  else if u.startsWithDigit candidate then "Type" ++ String.ofList candidate
  else String.ofList candidate

def enumMemberName (value : String) (index : Nat) : String :=
  let candidate := u.capitalizedWords value
  if candidate.isEmpty then "Value" ++ toString (index + 1)
  else if u.startsWithDigit candidate then "Value" ++ String.ofList candidate
  else String.ofList candidate

/-- The name of a type that is nested in another. -/
def compose (owner prop : String) : String := owner ++ u.sanitizeIdentifier prop

end Unicode

def cppKeywords : List String :=
  ["False", "None", "True", "and", "as", "assert", "async", "await", "break", "class",
    "continue", "def", "del", "elif", "else", "except", "finally", "for", "from", "global",
    "if", "import", "in", "is", "lambda", "nonlocal", "not", "or", "pass", "raise", "return",
    "try", "while", "with", "yield"] ++
  ["alignas", "alignof", "and", "asm", "auto", "bool", "break", "case", "catch", "char",
    "class", "const", "constexpr", "continue", "default", "delete", "do", "double", "else",
    "enum", "explicit", "export", "extern", "false", "float", "for", "friend", "goto", "if",
    "inline", "int", "long", "mutable", "namespace", "new", "operator", "private", "protected",
    "public", "register", "return", "short", "signed", "sizeof", "static", "struct", "switch",
    "template", "this", "throw", "true", "try", "typedef", "typename", "union", "unsigned",
    "using", "virtual", "void", "volatile", "while", "char8_t", "concept", "requires"]

/-- `re.sub("[^0-9a-zA-Z]+", "_", value)`; `replaced` if the character before has been. -/
def underscored : List Char → (replaced : Bool := false) → List Char
  | [], _ => []
  | c :: cs, replaced =>
    if c.isAlphanum then c :: underscored cs
    else if replaced then underscored cs true
    else '_' :: underscored cs true

/-- `re.sub("(?<=[a-z0-9])([A-Z])", "_\\1", value)`. -/
def splitAfterLower : List Char → List Char
  | a :: b :: cs =>
    if (a.isLower || a.isDigit) && b.isUpper then a :: '_' :: splitAfterLower (b :: cs)
    else a :: splitAfterLower (b :: cs)
  | cs => cs

/-- `re.sub("(?<=[A-Z])([A-Z][a-z])", "_\\1", value)`. -/
def splitInsideUpper : List Char → List Char
  | a :: b :: c :: cs =>
    if a.isUpper && b.isUpper && c.isLower then a :: '_' :: splitInsideUpper (b :: c :: cs)
    else a :: splitInsideUpper (b :: c :: cs)
  | cs => cs

/-- `re.sub("_+", "_", value)`. -/
def collapsed : List Char → List Char
  | a :: b :: cs => if a = '_' ∧ b = '_' then collapsed (b :: cs) else a :: collapsed (b :: cs)
  | cs => cs

/-- The name of the member for a key. -/
def fieldName (jsonName : String) : String :=
  let words := splitInsideUpper (splitAfterLower (underscored jsonName.toList))
  let snake := Text.trimList (· = '_') ((collapsed words).map Char.toLower)
  let snake := if snake.isEmpty then "value" else String.ofList snake
  let snake := if snake.toList.head?.any Char.isDigit then "field_" ++ snake else snake
  if cppKeywords.contains snake then snake ++ "_" else snake

example : fieldName "hitBreakpointIds" = "hit_breakpoint_ids" := by decide
example : fieldName "__restart" = "restart" := by decide

end DapDbgeng.Protgen
