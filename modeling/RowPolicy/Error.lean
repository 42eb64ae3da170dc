/-!
# Errors of applying policies

The causes for which policies refuse a text, the stable code of each, and its message.
-/

namespace RowPolicy

/-- Why policies cannot be applied to a text. -/
inductive PolicyError where
  /-- the text is no SQL; it is kept whole -/
  | malformed (sql message : String)
  /-- a strict policy met a construct that it cannot act on -/
  | unsupported (construct fragment : String)
  /-- a policy needs metadata of a table that has none -/
  | unknownTable (table fragment : String)
  /-- a policy needs a value that the context lacks -/
  | missingValue (key fragment : String)
  /-- a policy left an insertion whose rows do not fit its columns -/
  | invariant (policy message : String)
  /-- the configuration is invalid -/
  | configuration (message : String)
  deriving DecidableEq, Repr

/-- The stable name of a cause. -/
inductive ErrorCode where
  | malformed
  | unsupported
  | unknownTable
  | missingValue
  | invariant
  | configuration
  deriving DecidableEq, Repr

namespace ErrorCode

/-- A code as text. -/
def text : ErrorCode → String
  | malformed => "SQLRW_ERROR_SYNTAX"
  | unsupported => "SQLRW_ERROR_UNSUPPORTED_CONSTRUCT"
  | unknownTable => "SQLRW_ERROR_METADATA_RESOLUTION"
  | missingValue => "SQLRW_ERROR_MISSING_CONTEXT_VALUE"
  | invariant => "SQLRW_ERROR_INVARIANT"
  | configuration => "SQLRW_ERROR_CONFIG"

/-- Every code. -/
def all : List ErrorCode :=
  [malformed, unsupported, unknownTable, missingValue, invariant, configuration]

end ErrorCode

namespace PolicyError

/-- The code of an error. -/
def code : PolicyError → ErrorCode
  | malformed _ _ => .malformed
  | unsupported _ _ => .unsupported
  | unknownTable _ _ => .unknownTable
  | missingValue _ _ => .missingValue
  | invariant _ _ => .invariant
  | configuration _ => .configuration

/-- An error in words. -/
def message : PolicyError → String
  | malformed sql message => "failed to parse SQL: " ++ message ++ "\n error SQL: " ++ sql
  | unsupported construct fragment =>
    "unsupported construct `" ++ construct ++ "` in: " ++ fragment
  | unknownTable table fragment =>
    "no metadata registered for table `" ++ table ++ "` in: " ++ fragment
  | missingValue key fragment =>
    "rewrite context has no value for `" ++ key ++ "` required by: " ++ fragment
  | invariant policy message => "pass `" ++ policy ++ "` broke an AST invariant: " ++ message
  | configuration message => "invalid rewrite configuration: " ++ message

end PolicyError

end RowPolicy
