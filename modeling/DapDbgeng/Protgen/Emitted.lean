/-
  The emitted program: struct definitions, and the conversions between their values and JSON.

  * `Program`: the definitions in their order, with the value each struct is constructed with;
  * `Program.encode`, `Program.decode`: the emitted `to_json` and `from_json`;
  * `Program.HasType`: the values of a declared type.
-/
import DapDbgeng.Protgen.Generator

namespace DapDbgeng.Protgen

/-! ## Values -/

/-- A value of a declared type; `nullopt` is a member without one. -/
inductive Value where
  | nullopt
  | bool (b : Bool)
  | int (i : Int)
  /-- A floating-point number, as the library keeps it. -/
  | double (text : String) (trunc : Int)
  /-- The floating-point number an integer is converted to. -/
  | doubleOf (i : Int)
  | string (s : String)
  | enumerator (name : String)
  | struct (members : List (String × Value))
  | vector (items : List Value)
  | map (entries : List (String × Value))
  | json (j : Json)

/-- A member that is left out: no value, or the raw value null. -/
def Value.absent : Value → Bool
  | .nullopt => true
  | .json .null => true
  | _ => false

/-! ## Programs -/

/-- What the header declares. -/
structure Program where
  enums : Dict EnumModel
  structs : Dict (List Property)
  /-- What each struct is constructed with. -/
  defaults : Dict Value

/-- The value of an initializer; `none` if the declaration does not compile with it. -/
def Literal.value (enums : Dict EnumModel) : Ty → Literal → Option Value
  | .string, .text s => some (.string s)
  | .json, .text s => some (.json (.str s))
  | .enum name, .enumerator enum member =>
    if name = enum ∧ ((enums.get? enum).getD []).any (·.name = member) then
      some (.enumerator member)
    else none
  | .json, .enumerator enum member =>
    (((enums.get? enum).getD []).find? (·.name = member)).map fun v =>
      .json (.str v.serializedValue)
  | _, _ => none

/-- What a member without an initializer is constructed with, after the structs that are defined so
far. -/
def Ty.default (defined : Dict Value) : Ty → Option Value
  | .bool => some (.bool false)
  | .int32 | .int64 => some (.int 0)
  | .double => some (.doubleOf 0)
  | .string => some (.string "")
  | .enum _ => none
  | .struct name => defined.get? name
  | .vector _ => some (.vector [])
  | .map _ => some (.map [])
  | .json => some (.json .null)

def memberDefault (enums : Dict EnumModel) (defined : Dict Value) (p : Property) : Option Value :=
  match p.defaultLiteral with
  | some literal => literal.value enums p.cpp.ty
  | none =>
    if p.cpp.optional then
      -- the type around it has to be complete all the same
      match p.cpp.ty with
      | .struct name => (defined.get? name).map fun _ => .nullopt
      | _ => some .nullopt
    else p.cpp.ty.default defined

/-- One struct definition. -/
def defineStruct (enums : Dict EnumModel) (defined : Dict Value) (s : String × List Property) :
    Option (Dict Value) := do
  let members ← s.2.mapM fun p => do
    let value ← memberDefault enums defined p
    return (p.fieldName, value)
  return defined ++ [(s.1, .struct members)]

/-- The header of a generator; `none` where the generator raises, or the header does not compile. -/
def Generator.program (u : Unicode) (g : Generator) : Option Program := do
  let order ← g.topologicalClasses u
  let structs ← order.mapM fun name => do
    let properties ← g.flattenedProperties u name
    return (name, properties)
  let defaults ← structs.foldlM (defineStruct g.enums) []
  return { enums := g.enums, structs, defaults }

namespace Program

variable (P : Program)

/-! ## `to_json` -/

/-- `j[key] = value`. -/
def assign (key : String) (value : Json) : Json → Except String Json
  | .null => .ok (.obj [(key, value)])
  | .obj members => .ok (.obj (Dict.set members key value))
  | j => .error ("[json.exception.type_error.305] cannot use operator[] with a string argument " ++
      "with " ++ j.typeName)

def enumToJson (e : EnumModel) (enum name : String) : Except String Json :=
  match e.find? (·.name = name) with
  | some v => .ok (.str v.serializedValue)
  | none => .error ("[json.exception.other_error.501] invalid " ++ enum ++ " value")

/-- `_to_json_field`. -/
def writeMember (value : String → Option (Value × (Ty → Except String Json))) (j : Json)
    (p : Property) : Except String Json :=
  match value p.fieldName with
  | none => .ok j
  | some (v, encode) =>
    if p.cpp.ty = .json then
      if v.absent then .ok j else encode p.cpp.ty >>= fun x => assign p.jsonName x j
    else if p.cpp.optional then
      if v.absent then .ok j else encode p.cpp.ty >>= fun x => assign p.jsonName x j
    else encode p.cpp.ty >>= fun x => assign p.jsonName x j

mutual

def encode : Value → Ty → Except String Json
  | .bool b, .bool => .ok (.bool b)
  | .int i, .int32 | .int i, .int64 => .ok (.int i)
  | .double text trunc, .double => .ok (.float text trunc)
  | .string s, .string => .ok (.str s)
  | .enumerator name, .enum enum => enumToJson ((P.enums.get? enum).getD []) enum name
  | .json j, .json => .ok j
  | .vector items, .vector ty => .arr <$> encodeItems items ty
  | .map entries, .map ty => .obj <$> encodeEntries entries ty
  -- a struct without a member to write stays null
  | .struct members, .struct name =>
    ((P.structs.get? name).getD []).foldlM (writeMember (encodeMember members)) .null
  | _, _ => .error "ill-typed"

def encodeItems : List Value → Ty → Except String (List Json)
  | [], _ => .ok []
  | v :: vs, ty => do
    let j ← encode v ty
    let js ← encodeItems vs ty
    return j :: js

def encodeEntries : List (String × Value) → Ty → Except String (List (String × Json))
  | [], _ => .ok []
  | (k, v) :: rest, ty => do
    let j ← encode v ty
    let js ← encodeEntries rest ty
    return (k, j) :: js

/-- A member of the value, and how it is written. -/
def encodeMember : List (String × Value) → String → Option (Value × (Ty → Except String Json))
  | [], _ => none
  | (k, v) :: rest, key => if k = key then some (v, encode v) else encodeMember rest key

end

/-! ## `from_json` -/

def enumFromJson (e : EnumModel) (enum : String) (j : Json) : Except String Value := do
  let s ← Decoder.string j
  match e.find? (·.serializedValue = s) with
  | some v => return .enumerator v.name
  | none => .error ("[json.exception.other_error.501] unknown " ++ enum ++ " value: " ++ s)

def doubleFromJson : Json → Except String Value
  | .int i => .ok (.doubleOf i)
  | .float text trunc => .ok (.double text trunc)
  | j => Decoder.typeError "number" j

/-- `_from_json_field`: a member that is missing, or null and not raw, stays as it is. -/
def readMember (find : String → Option (Json × (Ty → Except String Value))) (r : Dict Value)
    (p : Property) : Except String (Dict Value) :=
  match find p.jsonName with
  | none => .ok r
  | some (j, decode) =>
    if p.cpp.ty = .json then decode p.cpp.ty >>= fun v => .ok (r.set p.fieldName v)
    else if j.isNull then .ok r
    else decode p.cpp.ty >>= fun v => .ok (r.set p.fieldName v)

/-- Every member in turn, from the value the struct is constructed with. -/
def readStruct (name : String) (find : String → Option (Json × (Ty → Except String Value))) :
    Except String Value :=
  match P.structs.get? name, P.defaults.get? name with
  | some properties, some (.struct members) =>
    .struct <$> properties.foldlM (readMember find) members
  | _, _ => .error "incomplete type"

mutual

def decode : Json → Ty → Except String Value
  | j, .json => .ok (.json j)
  | j, .bool => .bool <$> Decoder.boolean j
  | j, .int32 => .int <$> Decoder.int32 j
  | j, .int64 => .int <$> Decoder.int64 j
  | j, .double => doubleFromJson j
  | j, .string => .string <$> Decoder.string j
  | j, .enum enum => enumFromJson ((P.enums.get? enum).getD []) enum j
  | .arr items, .vector ty => .vector <$> decodeItems items ty
  | j, .vector _ => Decoder.typeError "array" j
  | .obj members, .map ty => .map <$> decodeEntries members ty
  | j, .map _ => Decoder.typeError "object" j
  | .obj members, .struct name => readStruct P name (decodeMember members)
  -- nothing is found in a value that is no object
  | _, .struct name => readStruct P name fun _ => none

def decodeItems : List Json → Ty → Except String (List Value)
  | [], _ => .ok []
  | j :: js, ty => do
    let v ← decode j ty
    let vs ← decodeItems js ty
    return v :: vs

def decodeEntries : List (String × Json) → Ty → Except String (List (String × Value))
  | [], _ => .ok []
  | (k, j) :: rest, ty => do
    let v ← decode j ty
    let vs ← decodeEntries rest ty
    return (k, v) :: vs

/-- A member of an object, and how it is read. -/
def decodeMember : List (String × Json) → String → Option (Json × (Ty → Except String Value))
  | [], _ => none
  | (k, j) :: rest, key => if k = key then some (j, decode j) else decodeMember rest key

end

/-! ## Typed values -/

/-- The values of a type.  Every member of a struct has a field of its own. -/
inductive HasType : Ty → Value → Prop
  | bool (b : Bool) : HasType .bool (.bool b)
  | int32 {i : Int} (h : -2 ^ 31 ≤ i ∧ i < 2 ^ 31) : HasType .int32 (.int i)
  | int64 {i : Int} (h : -2 ^ 63 ≤ i ∧ i < 2 ^ 63) : HasType .int64 (.int i)
  | double (text : String) (trunc : Int) : HasType .double (.double text trunc)
  | string (s : String) : HasType .string (.string s)
  | enum {name member : String} {e : EnumModel} (he : P.enums.get? name = some e)
      (h : member ∈ e.map EnumValueModel.name) : HasType (.enum name) (.enumerator member)
  | json (j : Json) : HasType .json (.json j)
  | vector {ty : Ty} {items : List Value} (h : ∀ v ∈ items, HasType ty v) :
      HasType (.vector ty) (.vector items)
  | map {ty : Ty} {entries : List (String × Value)} (hkeys : (Dict.keys entries).Nodup)
      (h : ∀ e ∈ entries, HasType ty e.2) : HasType (.map ty) (.map entries)
  | struct {name : String} {properties : List Property} {members : List (String × Value)}
      (hs : P.structs.get? name = some properties)
      (hfields : (properties.map Property.fieldName).Nodup)
      (hkeys : Dict.keys members = properties.map Property.fieldName)
      (habsent : ∀ p ∈ properties, ∀ v, Dict.get? members p.fieldName = some v →
        v.absent = true → v = .json .null ∧ p.cpp.ty = .json ∨
          v = .nullopt ∧ p.cpp.ty ≠ .json ∧ p.cpp.optional = true)
      (h : ∀ p ∈ properties, ∀ v, Dict.get? members p.fieldName = some v → v.absent = false →
        HasType p.cpp.ty v) : HasType (.struct name) (.struct members)

end Program

end DapDbgeng.Protgen
