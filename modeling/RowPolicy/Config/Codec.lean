import RowPolicy.Config
import RowPolicy.Json.Reader

/-!
# Configurations as JSON

Every record of a configuration is an object, or an array of its fields in their order with the
last ones left out. A key that is unknown or repeated is an error, and so is a missing field that
has no default. `null` stands only for a field that may be absent, and for the absent value.

`Config.toJson` writes every field, except for the sections of policies that are absent.
-/

namespace RowPolicy

open Sql

/-- Why a JSON text is no configuration. -/
inductive ConfigFault where
  | json (fault : Json.Fault)
  | wrongType (wanted : String)
  | unknownField (key : String)
  | repeatedField (key : String)
  | missingField (key : String)
  | tooManyFields
  deriving DecidableEq, Repr

namespace ConfigFault

/-- A fault in words. -/
def message : ConfigFault → String
  | json fault => fault.message
  | wrongType wanted => "expected " ++ wanted
  | unknownField key => "unknown field `" ++ key ++ "`"
  | repeatedField key => "duplicate field `" ++ key ++ "`"
  | missingField key => "missing field `" ++ key ++ "`"
  | tooManyFields => "too many fields"

end ConfigFault

/-- What a JSON value stands for, or why it stands for nothing. -/
abbrev Decoded (α : Type) := Except ConfigFault α

/-! ## Simple values -/

namespace Json

/-- A truth value. -/
def asBool : Json → Decoded Bool
  | boolean b => .ok b
  | _ => .error (.wrongType "a boolean")

/-- A text. -/
def asText : Json → Decoded String
  | text s => .ok s
  | _ => .error (.wrongType "a string")

/-- A list. -/
def asList {α : Type} (item : Json → Decoded α) : Json → Decoded (List α)
  | array es => es.mapM item
  | _ => .error (.wrongType "a sequence")

/-- A value that may be absent. -/
def asOptional {α : Type} (item : Json → Decoded α) : Json → Decoded (Option α)
  | null => .ok none
  | j => some <$> item j

/-- One of several names: the name itself, or an object with it as the key of `null`. -/
def asName {α : Type} (wanted : String) (ofName? : String → Option α) (j : Json) : Decoded α :=
  let named (s : String) : Decoded α :=
    match ofName? s with
    | some a => .ok a
    | none => .error (.wrongType wanted)
  match j with
  | text s => named s
  | object [(s, null)] => named s
  | _ => .error (.wrongType wanted)

/-- A value to be written into a statement. A whole number beyond 64 bits with a sign is real. -/
def asValue : Json → Decoded Value
  | null => .ok .null
  | boolean b => .ok (.boolean b)
  | integer n =>
    if Value.isWord n then .ok (.integer n)
    else
      match Double.ofRatio? (n < 0) n.natAbs 1 with
      | some x => .ok (.real x)
      | none => .error (.wrongType "a value")
  | real x => .ok (.real x)
  | text s => .ok (.text s)
  | _ => .error (.wrongType "a value")

/-- A map of texts with a member in place of the one under its key. -/
def putText (ts : List (String × String)) (m : String × Json) : Decoded (List (String × String)) := do
  return ts.filter (·.1 != m.1) ++ [(m.1, ← m.2.asText)]

/-- A map of texts. The last value of a repeated key counts. -/
def asTextMap : Json → Decoded (List (String × String))
  | object ms => ms.foldlM putText []
  | _ => .error (.wrongType "a map")

end Json

/-! ## Records -/

/-- The fields of a record that are given. -/
structure Fields where
  given : List (String × Json)

namespace Fields

/-- Members whose keys are among the names and differ from each other. -/
def ofMembers (names : List String) : List (String × Json) → Decoded (List (String × Json))
  | [] => .ok []
  | (k, v) :: ms =>
    if !names.contains k then .error (.unknownField k)
    else if ms.any (·.1 == k) then .error (.repeatedField k)
    else ((k, v) :: ·) <$> ofMembers names ms

/-- The fields of a record with these names, in this order. -/
def ofJson (names : List String) : Json → Decoded Fields
  | .object ms => Fields.mk <$> ofMembers names ms
  | .array es => if names.length < es.length then .error .tooManyFields else .ok ⟨names.zip es⟩
  | _ => .error (.wrongType "a record")

/-- A field that must be given. -/
def required {α : Type} (fs : Fields) (key : String) (item : Json → Decoded α) : Decoded α :=
  match fs.given.lookup key with
  | some j => item j
  | none => .error (.missingField key)

/-- A field with a default. -/
def orElse {α : Type} (fs : Fields) (key : String) (item : Json → Decoded α) (default : α) :
    Decoded α :=
  match fs.given.lookup key with
  | some j => item j
  | none => .ok default

/-- A field that may be absent. -/
def optional {α : Type} (fs : Fields) (key : String) (item : Json → Decoded α) :
    Decoded (Option α) :=
  fs.orElse key (Json.asOptional item) none

end Fields

/-- An optional value as JSON. -/
def Json.ofOption {α : Type} (f : α → Json) : Option α → Json
  | none => .null
  | some a => f a

/-- A map of texts as JSON. -/
def Json.ofTextMap (ts : List (String × String)) : Json :=
  .object (ts.map fun t => (t.1, .text t.2))

/-! ## Values and tables -/

/-- A value as JSON. -/
def Value.toJson : Value → Json
  | null => .null
  | boolean b => .boolean b
  | integer n => .integer n
  | real x => .real x
  | text s => .text s

namespace LogicDeleteColumn

/-- A marking column of JSON. -/
def ofJson (j : Json) : Decoded LogicDeleteColumn := do
  let fs ← Fields.ofJson ["column", "deleted_value", "not_deleted_value"] j
  return {
    column := ← fs.required "column" Json.asText
    deletedValue := ← fs.orElse "deleted_value" Json.asValue (.integer 1)
    notDeletedValue := ← fs.orElse "not_deleted_value" Json.asValue (.integer 0) }

/-- A marking column as JSON. -/
def toJson (c : LogicDeleteColumn) : Json :=
  .object [("column", .text c.column), ("deleted_value", c.deletedValue.toJson),
    ("not_deleted_value", c.notDeletedValue.toJson)]

end LogicDeleteColumn

namespace TableMetadata

/-- Metadata of JSON. -/
def ofJson (j : Json) : Decoded TableMetadata := do
  let fs ← Fields.ofJson ["table", "columns", "logic_delete", "tenant_column", "ignore_tenant",
    "version_column"] j
  return {
    table := ← fs.required "table" Json.asText
    columns := ← fs.orElse "columns" Json.asTextMap []
    logicDelete := ← fs.optional "logic_delete" LogicDeleteColumn.ofJson
    tenantColumn := ← fs.optional "tenant_column" Json.asText
    ignoreTenant := ← fs.orElse "ignore_tenant" Json.asBool false
    versionColumn := ← fs.optional "version_column" Json.asText }

/-- Metadata as JSON. -/
def toJson (t : TableMetadata) : Json :=
  .object [("table", .text t.table),
    ("columns", Json.ofTextMap t.columns),
    ("logic_delete", Json.ofOption LogicDeleteColumn.toJson t.logicDelete),
    ("tenant_column", Json.ofOption .text t.tenantColumn),
    ("ignore_tenant", .boolean t.ignoreTenant),
    ("version_column", Json.ofOption .text t.versionColumn)]

end TableMetadata

/-! ## Sections -/

namespace LogicDelete

/-- The section of logic deletion of JSON. -/
def ofJson (j : Json) : Decoded (Section LogicDelete) := do
  let fs ← Fields.ofJson ["enabled", "strict", "require_metadata", "soft_delete"] j
  return {
    enabled := ← fs.orElse "enabled" Json.asBool true
    settings := {
      strict := ← fs.orElse "strict" Json.asBool false
      requireMetadata := ← fs.orElse "require_metadata" Json.asBool false
      soft := ← fs.orElse "soft_delete" Json.asBool false } }

/-- The section of logic deletion as JSON. -/
def toJson (s : Section LogicDelete) : Json :=
  .object [("enabled", .boolean s.enabled), ("strict", .boolean s.settings.strict),
    ("require_metadata", .boolean s.settings.requireMetadata),
    ("soft_delete", .boolean s.settings.soft)]

end LogicDelete

namespace Tenant

/-- The section of tenants of JSON. -/
def ofJson (j : Json) : Decoded (Section Tenant) := do
  let fs ← Fields.ofJson ["enabled", "strict", "require_metadata", "context_key", "column"] j
  return {
    enabled := ← fs.orElse "enabled" Json.asBool true
    settings := {
      strict := ← fs.orElse "strict" Json.asBool false
      requireMetadata := ← fs.orElse "require_metadata" Json.asBool false
      contextKey := ← fs.orElse "context_key" Json.asText "tenant_id"
      defaultColumn := ← fs.optional "column" Json.asText } }

/-- The section of tenants as JSON. -/
def toJson (s : Section Tenant) : Json :=
  .object [("enabled", .boolean s.enabled), ("strict", .boolean s.settings.strict),
    ("require_metadata", .boolean s.settings.requireMetadata),
    ("context_key", .text s.settings.contextKey),
    ("column", Json.ofOption .text s.settings.defaultColumn)]

end Tenant

namespace OptimisticLock

/-- The section of optimistic locks of JSON. -/
def ofJson (j : Json) : Decoded (Section OptimisticLock) := do
  let fs ← Fields.ofJson ["enabled", "strict", "require_metadata", "context_key"] j
  return {
    enabled := ← fs.orElse "enabled" Json.asBool true
    settings := {
      strict := ← fs.orElse "strict" Json.asBool false
      requireMetadata := ← fs.orElse "require_metadata" Json.asBool false
      contextKey := ← fs.orElse "context_key" Json.asText "version" } }

/-- The section of optimistic locks as JSON. -/
def toJson (s : Section OptimisticLock) : Json :=
  .object [("enabled", .boolean s.enabled), ("strict", .boolean s.settings.strict),
    ("require_metadata", .boolean s.settings.requireMetadata),
    ("context_key", .text s.settings.contextKey)]

end OptimisticLock

namespace AuditSection

/-- The section of an audit column of JSON. -/
def ofJson (j : Json) : Decoded AuditSection := do
  let fs ← Fields.ofJson ["enabled", "strict", "column", "context_key", "expr", "tables"] j
  return {
    enabled := ← fs.orElse "enabled" Json.asBool true
    strict := ← fs.orElse "strict" Json.asBool false
    column := ← fs.required "column" Json.asText
    contextKey := ← fs.optional "context_key" Json.asText
    expr := ← fs.optional "expr" Json.asText
    tables := ← fs.orElse "tables" (Json.asList Json.asText) [] }

/-- The section of an audit column as JSON. -/
def toJson (s : AuditSection) : Json :=
  .object [("enabled", .boolean s.enabled), ("strict", .boolean s.strict),
    ("column", .text s.column), ("context_key", Json.ofOption .text s.contextKey),
    ("expr", Json.ofOption .text s.expr), ("tables", .array (s.tables.map .text))]

end AuditSection

/-- The style of a name. -/
def PageStyle.ofName? (s : String) : Option PageStyle :=
  [limitOffset, offsetFetch].find? fun p => p.name == s

namespace PaginationSection

/-- The section of pagination of JSON. -/
def ofJson (j : Json) : Decoded PaginationSection := do
  let fs ← Fields.ofJson ["enabled", "strict", "style"] j
  return {
    enabled := ← fs.orElse "enabled" Json.asBool true
    strict := ← fs.orElse "strict" Json.asBool false
    style := ← fs.optional "style" (Json.asName "a page style" PageStyle.ofName?) }

/-- The section of pagination as JSON. -/
def toJson (s : PaginationSection) : Json :=
  .object [("enabled", .boolean s.enabled), ("strict", .boolean s.strict),
    ("style", Json.ofOption (fun p => .text p.name) s.style)]

end PaginationSection

/-! ## Configurations -/

namespace Config

/-- A configuration of JSON. -/
def ofJson (j : Json) : Decoded Config := do
  let fs ← Fields.ofJson ["dialect", "ignore_statements", "tables", "logic_delete", "tenant",
    "optimistic_lock", "audit_columns", "pagination"] j
  return {
    dialect := ← fs.orElse "dialect" (Json.asName "a dialect" Dialect.ofName?) .generic
    ignoreStatements := ← fs.orElse "ignore_statements" (Json.asList Json.asText) []
    tables := ← fs.orElse "tables" (Json.asList TableMetadata.ofJson) []
    logicDelete := ← fs.optional "logic_delete" LogicDelete.ofJson
    tenant := ← fs.optional "tenant" Tenant.ofJson
    optimisticLock := ← fs.optional "optimistic_lock" OptimisticLock.ofJson
    auditColumns := ← fs.orElse "audit_columns" (Json.asList AuditSection.ofJson) []
    pagination := ← fs.optional "pagination" PaginationSection.ofJson }

/-- A section as a member, if it is there. -/
def sectionMember {α : Type} (key : String) (f : α → Json) (s : Option α) :
    List (String × Json) :=
  s.toList.map fun a => (key, f a)

/-- The members that a configuration writes. -/
def members (c : Config) : List (String × Json) :=
  [("dialect", .text c.dialect.name),
    ("ignore_statements", .array (c.ignoreStatements.map .text)),
    ("tables", .array (c.tables.map TableMetadata.toJson))] ++
  sectionMember "logic_delete" LogicDelete.toJson c.logicDelete ++
  sectionMember "tenant" Tenant.toJson c.tenant ++
  sectionMember "optimistic_lock" OptimisticLock.toJson c.optimisticLock ++
  [("audit_columns", .array (c.auditColumns.map AuditSection.toJson))] ++
  sectionMember "pagination" PaginationSection.toJson c.pagination

/-- A configuration as JSON. -/
def toJson (c : Config) : Json :=
  .object c.members

/-- The configuration that a text holds. -/
def parse (text : String) : Decoded Config :=
  match Json.parse text with
  | .ok j => ofJson j
  | .error fault => .error (.json fault)

/-- The configuration that a text holds, or the error that it is none. -/
def ofText (text : String) : Except PolicyError Config :=
  match parse text with
  | .ok c => .ok c
  | .error fault => .error (.configuration fault.message)

end Config

end RowPolicy
