import GreenticOperator.Lib.JsonSchema

/-!
# The check of a configuration against the schema of its pack

`src/component_qa_ops.rs`. What a pack makes of the answers is checked against the schema that its
manifest has for the first component: by a validator for schemas, and then once more by hand.
-/

namespace ProviderConfig

open Json Json.Value

def jsonTypeName : Value → String
  | .object _ => "object"
  | .array _ => "array"
  | .string _ => "string"
  | .bool _ => "boolean"
  | .number _ => "number"
  | .null => "null"

/-- The fractional part of a number is zero. -/
def fractIsZero : Value → Bool
  | .number (.float text) => JsonSchema.isWhole text
  | .number _ => true
  | _ => false

def matchesJsonType (value : Value) (expected : String) : Bool :=
  match expected with
  | "object" => value.asObject.isSome
  | "array" => value.asArray.isSome
  | "string" => value.asStr.isSome
  | "boolean" => value.asBool.isSome
  | "number" => (value matches .number _)
  | "integer" => value.asI64.isSome || value.asU64.isSome || fractIsZero value
  | "null" => (value matches .null)
  | _ => true

/-- The type that is named beside a value, where the value is of another. -/
def mismatch (value : Value) (schema : Value) : Option String :=
  ((schema.get "type").bind asStr).filter fun expected => !matchesJsonType value expected

def checkRequired (schemaObj : List (String × Value)) (config : Value) : Option String :=
  match (schemaObj.lookup "required").bind asArray, config.asObject with
  | some required, some map => (required.filterMap asStr).findSome? fun key =>
      if (map.lookup key).isSome then none else some ("missing required config key `" ++ key ++ "`")
  | _, _ => none

def checkProperty (properties : List (String × Value)) (member : String × Value) : Option String :=
  (properties.lookup member.1).bind fun propSchema =>
    (mismatch member.2 propSchema).map fun expected =>
      "config key `" ++ member.1 ++ "` type mismatch: expected `" ++ expected ++ "`, got `" ++ jsonTypeName member.2 ++ "`"

def checkUnknown (schemaObj properties map : List (String × Value)) : Option String :=
  if (schemaObj.lookup "additionalProperties").bind asBool = some false then
    map.findSome? fun member =>
      if (properties.lookup member.1).isSome then none else some ("unknown config key `" ++ member.1 ++ "`")
  else none

def checkProperties (schemaObj : List (String × Value)) (config : Value) : Option String :=
  match (schemaObj.lookup "properties").bind asObject, config.asObject with
  | some properties, some map => (map.findSome? (checkProperty properties)).or (checkUnknown schemaObj properties map)
  | _, _ => none

def validateConfigShallow (config schema : Value) : Option String :=
  match schema.asObject with
  | none => none
  | some schemaObj =>
    match mismatch config schema with
    | some expected =>
      some ("config type mismatch: expected `" ++ expected ++ "`, got `" ++ jsonTypeName config ++ "`")
    | none =>
      match checkRequired schemaObj config with
      | some missing => some missing
      | none => checkProperties schemaObj config

/-- The check; `validate` is the validator for schemas. -/
def validateConfigStrict (validate : (schema config : Value) → Except String Unit) (config schema : Value) :
    Option String :=
  match schema.asObject with
  | none => validateConfigShallow config schema
  | some _ =>
    match validate schema config with
    | .error err => some err
    | .ok () => validateConfigShallow config schema

end ProviderConfig
