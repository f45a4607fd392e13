/-
  JSON values and the typed reads of the protocol structs.

  A decoder either gives a value or the text of the exception the JSON library throws.  The reads
  follow the generated code: a member that is absent or null keeps its default, and a value that
  is not an object has no members.
-/
import DapDbgeng.Text

namespace DapDbgeng

/-- A parsed JSON value.  A number with a fraction or exponent is kept as the text the library
prints for it and its integer part. -/
inductive Json where
  | null
  | bool (b : Bool)
  | int (i : Int)
  | float (text : String) (trunc : Int)
  | str (s : String)
  | arr (items : List Json)
  | obj (members : List (String × Json))

namespace Json

def typeName : Json → String
  | .null => "null"
  | .bool _ => "boolean"
  | .int _ => "number"
  | .float _ _ => "number"
  | .str _ => "string"
  | .arr _ => "array"
  | .obj _ => "object"

def isObject : Json → Bool
  | .obj _ => true
  | _ => false

def isNull : Json → Bool
  | .null => true
  | _ => false

def lookup (key : String) : List (String × Json) → Option Json
  | [] => none
  | (k, v) :: rest => if k = key then some v else lookup key rest

/-- `find`: the members of a value that is not an object are absent. -/
def find (key : String) : Json → Option Json
  | .obj members => lookup key members
  | _ => none

/-- A member that is present and not null. -/
def member (key : String) (j : Json) : Option Json :=
  match j.find key with
  | some .null => none
  | r => r

/-! ## Text of a value -/

def escapeChar (c : Char) : List Char :=
  if c = '"' then ['\\', '"']
  else if c = '\\' then ['\\', '\\']
  else if c = '\x08' then ['\\', 'b']
  else if c = '\x0c' then ['\\', 'f']
  else if c = '\n' then ['\\', 'n']
  else if c = '\r' then ['\\', 'r']
  else if c = '\t' then ['\\', 't']
  else if c.toNat < 32 then "\\u".toList ++ (Text.digits 16 4 c.toNat).toList
  else [c]

def quoted (s : String) : String := "\"" ++ String.ofList (s.toList.flatMap escapeChar) ++ "\""

mutual

/-- `dump()`. -/
def dump : Json → String
  | .null => "null"
  | .bool b => if b then "true" else "false"
  | .int i => toString i
  | .float text _ => text
  | .str s => quoted s
  | .arr items => "[" ++ ",".intercalate (dumpItems items) ++ "]"
  | .obj members => "\x7b" ++ ",".intercalate (dumpMembers members) ++ "\x7d"

def dumpItems : List Json → List String
  | [] => []
  | x :: xs => dump x :: dumpItems xs

def dumpMembers : List (String × Json) → List String
  | [] => []
  | (k, v) :: rest => (quoted k ++ ":" ++ dump v) :: dumpMembers rest

end

end Json

/-! ## Decoders -/

/-- A typed read: a value, or the text of the exception. -/
abbrev Decoder (α : Type) := Json → Except String α

namespace Decoder

variable {α : Type}

/-- `type_error.302`. -/
def typeError (expected : String) (j : Json) : Except String α :=
  .error ("[json.exception.type_error.302] type must be " ++ expected ++ ", but is " ++ j.typeName)

def string : Decoder String
  | .str s => .ok s
  | j => typeError "string" j

def boolean : Decoder Bool
  | .bool b => .ok b
  | j => typeError "boolean" j

/-- The value of an `int` is the 32-bit wrap of the number; a boolean counts as a number. -/
def int32 : Decoder Int
  | .int i => .ok (i.bmod (2 ^ 32))
  | .float _ t => .ok (t.bmod (2 ^ 32))
  | .bool b => .ok (if b then 1 else 0)
  | j => typeError "number" j

def int64 : Decoder Int
  | .int i => .ok (i.bmod (2 ^ 64))
  | .float _ t => .ok (t.bmod (2 ^ 64))
  | j => typeError "number" j

def items (dec : Decoder α) : List Json → Except String (List α)
  | [] => .ok []
  | x :: xs => do
    let a ← dec x
    let as ← items dec xs
    return a :: as

def array (dec : Decoder α) : Decoder (List α)
  | .arr xs => items dec xs
  | j => typeError "array" j

/-- An enumeration, given by its table of names. -/
def enum (name : String) (table : List (String × α)) : Decoder α := fun j => do
  let s ← string j
  match table.lookup s with
  | some v => return v
  | none => .error ("[json.exception.other_error.501] unknown " ++ name ++ " value: " ++ s)

/-- An optional member. -/
def opt (key : String) (dec : Decoder α) : Decoder (Option α) := fun j =>
  match j.member key with
  | none => .ok none
  | some v => (dec v).map some

/-- A member with a default. -/
def field (key : String) (dec : Decoder α) (default : α) : Decoder α := fun j =>
  match j.member key with
  | none => .ok default
  | some v => dec v

/-- A member that is read only for its type. -/
def check (key : String) (dec : Decoder α) : Decoder Unit := fun j =>
  match j.member key with
  | none => .ok ()
  | some v => (dec v).map fun _ => ()

/-- `value(key, std::string{})`: a null member is not absent here. -/
def valueString (key : String) : Decoder String := fun j =>
  match j with
  | .obj members =>
    match Json.lookup key members with
    | none => .ok ""
    | some v => string v
  | _ => .error ("[json.exception.type_error.306] cannot use value() with " ++ j.typeName)

end Decoder

/-! ## Argument reader

The reads of the raw arguments of launch and attach ignore values of the wrong type. -/

namespace ArgumentReader

/-- Quote a single command-line token using the Windows rules: the loop over its characters, with
the count of pending backslashes. -/
def quoteLoop : Nat → List Char → List Char
  | n, [] => List.replicate (n * 2) '\\'
  | n, c :: cs =>
    if c = '\\' then quoteLoop (n + 1) cs
    else if c = '"' then List.replicate (n * 2 + 1) '\\' ++ '"' :: quoteLoop 0 cs
    else List.replicate n '\\' ++ c :: quoteLoop 0 cs

def quoteCommandLineToken (value : String) : String :=
  let cs := value.toList
  if cs.isEmpty then "\"\""
  else if cs.all fun c => c != ' ' && c != '\t' && c != '"' then value
  else String.ofList ('"' :: quoteLoop 0 cs ++ ['"'])

def getArguments (request : Json) : Json := (request.member "arguments").getD .null

def tryGetString (arguments : Json) (key : String) : Option String :=
  match arguments.find key with
  | some (.str s) => some s
  | _ => none

def tryGetInt32 (arguments : Json) (key : String) : Option Int :=
  match arguments.find key with
  | some (.int i) => some (i.bmod (2 ^ 32))
  | some (.str text) =>
    match Text.stoi text with
    | some (parsed, consumed) => if consumed = text.length then some parsed else none
    | none => none
  | _ => none

def tryGetBoolean (arguments : Json) (key : String) : Option Bool :=
  match arguments.find key with
  | some (.bool b) => some b
  | some (.str text) =>
    if text = "true" ∨ text = "True" then some true
    else if text = "false" ∨ text = "False" then some false
    else none
  | _ => none

def stringItem : Json → Option String
  | .str s => some s
  | _ => none

def tryGetStringList (arguments : Json) (key : String) : Option (List String) :=
  match arguments.find key with
  | some (.str s) => some [s]
  | some (.arr xs) => some (xs.filterMap stringItem)
  | _ => none

def commandLineToken : Json → String
  | .str s => quoteCommandLineToken s
  | j => j.dump

def tryGetCommandLineArguments (arguments : Json) : Option String :=
  match arguments.find "args" with
  | some (.str s) => some s
  | some (.arr xs) => if xs.isEmpty then none else some (" ".intercalate (xs.map commandLineToken))
  | _ => none

def resolveWorkingDirectory (arguments : Json) : String :=
  match tryGetString arguments "cwd" with
  | none => ""
  | some value => if Text.isBlank value then "" else value

end ArgumentReader

/-! ## Message inspector -/

namespace MessageInspector

def tryGetCommand (message : Json) : Option String :=
  match message.find "command" with
  | some (.str s) => some s
  | _ => none

def tryGetSequence (message : Json) : Option Int :=
  match message.find "seq" with
  | some (.int i) => some (i.bmod (2 ^ 32))
  | _ => none

end MessageInspector

end DapDbgeng
