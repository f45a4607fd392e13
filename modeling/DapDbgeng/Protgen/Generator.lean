/-
  The protocol generator: from the definitions of a schema to struct and enumeration models.

  The generator visits the definitions and whatever their properties refer to, and enters a class
  into its tables before it visits its properties.  A run gives no result where the generator
  raises: an unknown definition, a base class that is an enumeration, or bases that never end.  The
  first argument of the recursive functions bounds how deep they call each other.

  * `Generator`: the tables;
  * `mapType`, `ensureClass`: a property to a C++ type, a definition to a class;
  * `generate`: all definitions;
  * `Generator.flattenedProperties`: the members of a class and its bases, by wire name.
-/
import DapDbgeng.Protgen.Schema
import Mathlib.Data.List.Dedup
import Mathlib.Data.List.Sort

namespace DapDbgeng.Protgen

/-- A declared type, but for the `std::optional` around it. -/
inductive Ty where
  | bool | int32 | int64 | double | string
  | enum (name : String)
  | struct (name : String)
  | vector (item : Ty)
  | map (value : Ty)
  | json
  deriving DecidableEq, Repr

structure CppType where
  ty : Ty
  optional : Bool
  /-- A raw value is never optional: null stands for none. -/
  raw : ty = .json → optional = false := by simp
  deriving DecidableEq, Repr

/-- The type of a raw value. -/
def CppType.json : CppType := { ty := .json, optional := false }

/-- An initializer. -/
inductive Literal where
  | text (value : String)
  | enumerator (enum member : String)
  deriving DecidableEq, Repr

/-- `Prop` of the generator. -/
structure Property where
  jsonName : String
  fieldName : String
  cpp : CppType
  required : Bool
  defaultLiteral : Option Literal := none
  deriving DecidableEq, Repr

structure EnumValueModel where
  name : String
  serializedValue : String
  deriving DecidableEq, Repr

abbrev EnumModel := List EnumValueModel

structure ClassModel where
  baseClass : Option String := none
  properties : List Property := []
  /-- Sanitized property names, and what they are initialized with. -/
  ctorAssignments : Dict Literal := []

structure Generator where
  classes : Dict ClassModel := []
  enums : Dict EnumModel := []
  definitionTypeNames : Dict String := []

namespace Generator

def hasType (g : Generator) (name : String) : Bool :=
  (g.classes.get? name).isSome || (g.enums.get? name).isSome

def uniqueTypeName (g : Generator) (candidate : String) : String :=
  unused (g.classes.keys ++ g.enums.keys) candidate

def modifyClass (g : Generator) (name : String) (f : ClassModel → ClassModel) : Generator :=
  match g.classes.get? name with
  | none => g
  | some model => { g with classes := g.classes.set name (f model) }

/-- The properties of a class and its bases; there are at most `bound` of them. -/
def inheritedProperties (g : Generator) : (bound : Nat) → Option String → Option (Dict Property)
  | _, none => some []
  | 0, some _ => none
  | bound + 1, some base =>
    match g.classes.get? base with
    | none => some []
    | some model => do
      let inherited ← g.inheritedProperties bound model.baseClass
      return inherited.update (model.properties.map fun p => (p.jsonName, p))

end Generator

/-! ## Types of properties -/

/-- What the visits change; `none` where the generator raises. -/
abbrev Gen := StateT Generator Option

section

variable (u : Unicode)

def enumValues : List String → List String → List EnumValueModel → List EnumValueModel
  | _, [], members => members
  | seen, value :: values, members =>
    let name := unused seen (u.enumMemberName value members.length)
    enumValues (name :: seen) values (members ++ [{ name, serializedValue := value }])

def ensureEnum (schema : Schema) (preferred : String) : Gen String := do
  let g ← get
  let existing := u.sanitizeIdentifier preferred
  if (g.enums.get? existing).isSome then return existing
  else
    let resolved := g.uniqueTypeName existing
    if (g.enums.get? resolved).isSome then return resolved
    else do
      let members := enumValues u [] (schemaEnumValues schema) []
      modify fun g => { g with enums := g.enums.set resolved members }
      return resolved

/-- A discriminator: a string or an enumeration that is initialized with its only value. -/
def discriminatorAssignment (inherited : Property) (value : String) : Option (String × Literal) :=
  match inherited.cpp.ty with
  | .string => some (u.sanitizeIdentifier inherited.jsonName, .text value)
  | .enum name =>
    some (u.sanitizeIdentifier inherited.jsonName, .enumerator name (u.enumMemberName value 0))
  | _ => none

def requiredEnumDefault (g : Generator) (cpp : CppType) : Option Literal :=
  match cpp with
  | { ty := .enum name, optional := false, .. } =>
    (g.enums.get? name).bind fun e => e.head?.map fun v => .enumerator name v.name
  | _ => none

def refCppType (g : Generator) (name : String) (required : Bool) : CppType :=
  if (g.enums.get? name).isSome then { ty := .enum name, optional := !required }
  else { ty := .struct name, optional := !required }

/-- What the allOf entries of an object schema come to, apart from the base class. -/
structure ObjectSchema where
  properties : Dict Schema := []
  required : List String := []

/-- The entries that are no references, merged. -/
def mergeInline : List Schema → ObjectSchema
  | entries => entries.foldl (fun o entry =>
    if entry.ref.isSome then o
    else { properties := o.properties.update (entry.properties.getD [])
           required := o.required ++ entry.required }) {}

/-- The schema when its type list has one type beside null. -/
def narrowed (schema : Schema) : Option Schema :=
  match schema.type with
  | some (.several names) =>
    match names.filter (· ≠ "null") with
    | [name] => some { schema with type := some (.one name) }
    | _ => none
  | _ => none

/-- The types that need no other. -/
def scalarType (schema : Schema) (required : Bool) : CppType :=
  match schema.type with
  | some (.one "string") => { ty := .string, optional := !required }
  | some (.one "boolean") => { ty := .bool, optional := !required }
  | some (.one "integer") =>
    if schema.format = some "int32" then { ty := .int32, optional := !required }
    else { ty := .int64, optional := !required }
  | some (.one "number") => { ty := .double, optional := !required }
  | _ => .json

variable (definitions : Dict Schema)

mutual

def ensureDefinitionType : (depth : Nat) → String → Gen String
  | 0, _ => failure
  | depth + 1, name => do
    let g ← get
    match g.definitionTypeNames.get? name with
    | some typeName => return typeName
    | none =>
      let preferred := u.sanitizeIdentifier name
      if g.hasType preferred then
        modify fun g => { g with definitionTypeNames := g.definitionTypeNames.set name preferred }
        return preferred
      else
        match definitions.get? name with
        | none => failure
        | some schema => do
          let typeName ← if (schemaEnumValues schema).isEmpty then ensureClass depth schema name
            else ensureEnum u schema name
          modify fun g => { g with definitionTypeNames := g.definitionTypeNames.set name typeName }
          return typeName

/-- The first reference is the base class. -/
def ensureBase : (depth : Nat) → List Schema → Gen (Option String)
  | 0, _ => failure
  | depth + 1, entries =>
    match entries.findSome? Schema.ref with
    | none => return none
    | some path => some <$> ensureDefinitionType depth (refName path)

def normalizeObjectSchema : (depth : Nat) → Schema → Gen (ObjectSchema × Option String)
  | 0, _ => failure
  | depth + 1, schema =>
    match schema.allOf with
    | none =>
      return ({ properties := schema.properties.getD [], required := schema.required }, none)
    | some entries => do
      let base ← ensureBase depth entries
      return (mergeInline entries, base)

def ensureClass : (depth : Nat) → Schema → String → Gen String
  | 0, _, _ => failure
  | depth + 1, schema, preferred => do
    let g ← get
    let existing := u.sanitizeIdentifier preferred
    if (g.classes.get? existing).isSome then return existing
    else
      let resolved := g.uniqueTypeName existing
      if (g.classes.get? resolved).isSome then return resolved
      else do
        let (object, base) ← normalizeObjectSchema depth schema
        modify fun g => { g with classes := g.classes.set resolved { baseClass := base } }
        let g ← get
        let inherited ← g.inheritedProperties (g.classes.length + 1) base
        object.properties.forM fun p =>
          ensureProperty depth resolved inherited p.1 p.2 (object.required.contains p.1)
        return resolved

/-- A property of a class; one that only fixes the value of an inherited one is a discriminator. -/
def ensureProperty : (depth : Nat) → String → Dict Property → String → Schema → Bool → Gen Unit
  | 0, _, _, _, _, _ => failure
  | depth + 1, owner, inherited, name, schema, required => do
    let discriminator := match inherited.get? name, schemaEnumValues schema with
      | some p, [value] => discriminatorAssignment u p value
      | _, _ => none
    match discriminator with
    | some assignment =>
      modify fun g => g.modifyClass owner fun model =>
        { model with ctorAssignments := model.ctorAssignments ++ [assignment] }
    | none => do
      let cpp ← mapType depth schema owner name required
      let g ← get
      let property := {
        jsonName := name
        fieldName := fieldName name
        cpp, required
        defaultLiteral := if required then requiredEnumDefault g cpp else none }
      modify fun g => g.modifyClass owner fun model =>
        { model with properties := model.properties ++ [property] }

def mapType : (depth : Nat) → Schema → String → String → Bool → Gen CppType
  | 0, _, _, _, _ => failure
  | depth + 1, schema, owner, prop, required =>
    match schema.ref with
    | some path => do
      let name ← ensureDefinitionType depth (refName path)
      let g ← get
      return refCppType g name required
    | none =>
      if !(schemaEnumValues schema).isEmpty then do
        let name ← ensureEnum u schema (u.compose owner prop)
        return { ty := .enum name, optional := !required }
      else if schema.oneOf.isSome || schema.anyOf.isSome then return .json
      else
        match schema.type with
        | some (.several _) =>
          match narrowed schema with
          | some schema => mapType depth schema owner prop required
          | none => return .json
        | type =>
          if type = some (.one "array") then do
            let item ← mapArrayItem depth (schema.items.getD {}) owner prop
            return { ty := .vector item.ty, optional := !required }
          else if type = some (.one "object") || schema.properties.isSome ||
              schema.allOf.isSome then
            match schema.additionalProperties with
            | some additional => do
              let value ← mapAdditional depth additional owner prop
              return { ty := .map value.ty, optional := !required }
            | none =>
              if schema.properties.any (!·.isEmpty) || schema.allOf.any (!·.isEmpty) then do
                let name ← ensureClass depth schema (u.compose owner prop)
                return { ty := .struct name, optional := !required }
              else return .json
          else return scalarType schema required

/-- An empty item schema is mapped as any other without a type. -/
def mapArrayItem : (depth : Nat) → Schema → String → String → Gen CppType
  | 0, _, _, _ => failure
  | depth + 1, schema, owner, prop => mapType depth schema owner (prop ++ "Item") true

def mapAdditional : (depth : Nat) → Bool ⊕ Schema → String → String → Gen CppType
  | 0, _, _, _ => failure
  | _ + 1, .inl _, _, _ => return .json
  | depth + 1, .inr schema, owner, prop => mapType depth schema owner (prop ++ "Value") true

end

/-- All definitions. -/
def generate (depth : Nat) : Option Generator := do
  let (_, g) ← (definitions.forM fun d => do
    let _ ← ensureDefinitionType u definitions depth d.1).run {}
  return g

end

namespace Generator

variable (u : Unicode) (g : Generator)

/-! ## Members of a struct -/

/-- The bases of a class, the root first; there are at most `bound` of them. -/
def baseChain : (bound : Nat) → String → Option (List String)
  | 0, _ => none
  | bound + 1, name =>
    match (g.classes.get? name).bind fun model => model.baseClass with
    | none => some [name]
    | some base => do
      let chain ← baseChain bound base
      return chain ++ [name]

/-- The members of a class and its bases; those of a derived class replace those with the same
wire name, and each discriminator initializes the last member with its sanitized name. -/
def flattenedProperties (name : String) : Option (List Property) := do
  let chain ← g.baseChain (g.classes.length + 1) name
  let models ← chain.mapM fun c => g.classes.get? c
  let byJson : Dict Property := models.foldl
    (fun d model => d.update (model.properties.map fun p => (p.jsonName, p))) []
  let defaults : Dict Literal := Dict.update [] (models.flatMap ClassModel.ctorAssignments)
  let byPropertyName : Dict String := Dict.update []
    (byJson.map fun e => (u.sanitizeIdentifier e.1, e.1))
  return byJson.map fun e =>
    let propertyName := u.sanitizeIdentifier e.1
    match defaults.get? propertyName with
    | some literal =>
      if byPropertyName.get? propertyName = some e.1 then
        { e.2 with defaultLiteral := some literal }
      else e.2
    | none => e.2

/-! ## Order of the definitions -/

/-- The structs that have to be complete before a member can be declared. -/
def hardDeps (p : Property) : List String :=
  match p.cpp.ty with
  | .struct name => if (g.classes.get? name).isSome then [name] else []
  | _ => []

/-- Depth first; `stack` are the structs being visited. -/
def visit (hard : Dict (List String)) :
    (bound : Nat) → (stack ordered : List String) → String → Option (List String)
  | 0, _, _, _ => none
  | bound + 1, stack, ordered, node =>
    if ordered.contains node then some ordered
    else if stack.contains node then none
    else do
      let ordered ← ((hard.get? node).getD []).foldlM (visit hard bound (node :: stack)) ordered
      return ordered ++ [node]

def topologicalClasses : Option (List String) := do
  let hard ← g.classes.keys.mapM fun name => do
    let properties ← g.flattenedProperties u name
    let deps := (properties.flatMap g.hardDeps).filter (· ≠ name)
    return (name, deps.dedup.insertionSort (· ≤ ·))
  g.classes.keys.foldlM (visit hard (g.classes.length + 1) []) []

end Generator

end DapDbgeng.Protgen
