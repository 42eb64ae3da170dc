import RowPolicy.Sql.Grammar.Operator
import RowPolicy.Sql.Grammar.Routine

/-!
# Dropped objects

`DROP` of objects of every kind, in printed form. Most kinds share one shape; the others say on what
table an object stood, or what a routine takes.
-/

namespace RowPolicy.Sql

namespace Reader

/-- The kinds of objects that are dropped alike. -/
def plainKinds : List (List String) :=
  [["TABLE"], ["VIEW"], ["MATERIALIZED", "VIEW"], ["INDEX"], ["ROLE"], ["SCHEMA"], ["DATABASE"],
    ["SEQUENCE"], ["STAGE"], ["TYPE"], ["USER"], ["STREAM"]]

/-- `DROP` of tables, views and other named objects, whose kind stands behind a blank. -/
def dropNamed (temporary kind : String) : Reader String := do
  let guarded ← ifThere?
  let names ← commaText nameText
  let cascade ← words? ["CASCADE"]
  let restrict ← words? ["RESTRICT"]
  let purge ← words? ["PURGE"]
  if !cascade.isEmpty && !restrict.isEmpty then expected "either CASCADE or RESTRICT"
  let how := cascade ++ restrict ++ purge
  if kind == " ROLE" && !how.isEmpty then expected "the end of a dropped role"
  return "DROP" ++ temporary ++ kind ++ guarded ++ " " ++ names ++ how ++
    (← textBehind? ["ON"] nameText)

/-- `DROP` of a trigger, behind its word. -/
def dropTrigger : Reader String := do
  if ← inDialect [.ansi] then expected "an object type after DROP"
  let guarded ← ifThere?
  let n ← nameText
  let table ← textBehind? ["ON"] nameText
  return "DROP TRIGGER" ++ guarded ++ " " ++ n ++ table ++ (← dependents?)

/-- `DROP` of a policy of rows, behind its word. -/
def dropPolicy : Reader String := do
  let guarded ← ifThere?
  let n ← identText
  keyword "ON"
  let table ← nameText
  return "DROP POLICY" ++ guarded ++ " " ++ n ++ " ON " ++ table ++ (← dependents?)

/-- `DROP` of a secret, behind its word. -/
def dropSecret (temporary : String) : Reader String := do
  let guarded ← ifThere?
  let n ← identText
  let place ← if ← keyword? "FROM" then attempt identText else pure none
  return "DROP" ++ temporary ++ " SECRET" ++ guarded ++ " " ++ n ++
    (place.map (" FROM " ++ ·)).getD ""

/-- `DROP`. -/
def drop (r : Rules) : Reader String := do
  let temporary ← if ← inDialect [.mysql, .generic] then words? ["TEMPORARY"] else pure ""
  let several (k : String) (p : Reader String) : Reader String := do
    let guarded ← ifThere?
    let objects ← commaText p
    return "DROP " ++ k ++ guarded ++ " " ++ objects ++ (← dependents?)
  match ← phraseOf? plainKinds with
  | "" =>
    match ← keywordOf ["FUNCTION", "POLICY", "CONNECTOR", "DOMAIN", "PROCEDURE", "SECRET",
      "TRIGGER", "EXTENSION", "OPERATOR"] with
    | "POLICY" => dropPolicy
    | "CONNECTOR" =>
      let guarded ← ifThere?
      return "DROP CONNECTOR" ++ guarded ++ " " ++ (← identText)
    | "DOMAIN" =>
      let guarded ← ifThere?
      let n ← nameText
      return "DROP DOMAIN" ++ guarded ++ " " ++ n ++ (← dependents?)
    | "SECRET" => dropSecret temporary
    | "TRIGGER" => dropTrigger
    | "EXTENSION" => several "EXTENSION" identText
    | "OPERATOR" => dropOperator r
    | k => several k (routineSignature r)
  | kind => dropNamed temporary kind

end Reader

end RowPolicy.Sql
