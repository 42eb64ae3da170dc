import RowPolicy.Sql.Grammar.Basic
import RowPolicy.Sql.Grammar.DataType

/-!
# New types

The definition of a type in printed form: by its members, its labels, the type that it takes ranges
of, or the functions that read and write its values.
-/

namespace RowPolicy.Sql

namespace Reader

/-! ## Members -/

/-- An attribute of a composite type. -/
def typeAttribute (r : Rules) : Reader String := do
  let n ← identText
  let t ← dataType r
  return n ++ " " ++ t ++ (← textBehind? ["COLLATE"] nameText)

/-- The attributes of a composite type between parentheses. A comma may end them. -/
def typeAttributes (r : Rules) : Reader String := do
  symbol "("
  let (attributes, _) ← loop (fun ((acc, more) : List String × Bool) => do
    if !more then return none
    else if ← symbol? ")" then return some (acc, false)
    else
      let acc := (← typeAttribute r) :: acc
      if ← symbol? "," then return some (acc, true)
      else
        symbol ")"
        return some (acc, false)) ([], true)
  return "(" ++ commaSeparated attributes.reverse ++ ")"

/-! ## Options -/

/-- An option of a type of ranges. -/
def rangeOption (r : Rules) : Reader String := do
  let k ← keywordOf ["SUBTYPE", "SUBTYPE_OPCLASS", "COLLATION", "CANONICAL", "SUBTYPE_DIFF",
    "MULTIRANGE_TYPE_NAME"]
  symbol "="
  if k == "SUBTYPE" then return "SUBTYPE = " ++ (← dataType r)
  else return k ++ " = " ++ (← nameText)

/-- A yes or no; a missing word is a yes. -/
def truth? : Reader String := do
  match ← keywordOf? ["TRUE", "FALSE"] with
  | some "FALSE" => return "false"
  | _ => return "true"

/-- An option of a type that is given by its functions. -/
def baseOption (r : Rules) : Reader String := do
  let functions := ["INPUT", "OUTPUT", "RECEIVE", "SEND", "TYPMOD_IN", "TYPMOD_OUT", "ANALYZE",
    "SUBSCRIPT"]
  let k ← keywordOf (functions ++ ["INTERNALLENGTH", "PASSEDBYVALUE", "ALIGNMENT", "STORAGE",
    "LIKE", "CATEGORY", "PREFERRED", "DEFAULT", "ELEMENT", "DELIMITER", "COLLATABLE"])
  if k == "PASSEDBYVALUE" then return k
  symbol "="
  let value ← match k with
    | "INTERNALLENGTH" => do
      if ← keyword? "VARIABLE" then pure "VARIABLE" else wholeNumber
    | "ALIGNMENT" => do pure (← keywordOf ["CHAR", "INT2", "INT4", "DOUBLE"]).toLower
    | "STORAGE" => do pure (← keywordOf ["PLAIN", "EXTERNAL", "EXTENDED", "MAIN"]).toLower
    | "LIKE" | "ELEMENT" => dataType r
    | "CATEGORY" => do
      match (← literalString).toList with
      | c :: _ => pure ("'" ++ c.toString ++ "'")
      | [] => expected "a single character"
    | "PREFERRED" | "COLLATABLE" => truth?
    | "DEFAULT" => exprText r
    | "DELIMITER" => quotedString
    | _ => nameText
  return k ++ " = " ++ value

/-! ## Types -/

/-- A new type, behind `TYPE`. -/
def newType (r : Rules) : Reader String := do
  let n ← nameText
  let definition ←
    if ← keyword? "AS" then
      if ← keyword? "ENUM" then do pure (" AS ENUM " ++ (← parensTextUntil identText))
      else if ← keyword? "RANGE" then do
        pure (" AS RANGE " ++ (← parensTextUntil (rangeOption r)))
      else do pure (" AS " ++ (← typeAttributes r))
    else textBefore? "(" (return " " ++ (← parensTextUntil (baseOption r)))
  return "TYPE " ++ n ++ definition

end Reader

end RowPolicy.Sql
