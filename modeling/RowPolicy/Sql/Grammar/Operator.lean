import RowPolicy.Sql.Grammar.DataType
import RowPolicy.Sql.Grammar.Role

/-!
# Operators as objects

`CREATE`, `ALTER` and `DROP` of operators, and of the classes and families that the operators of one
kind of index form, in printed form. Each reader starts behind the word for the kind of object.
-/

namespace RowPolicy.Sql

namespace Reader

/-! ## Parts of an operator -/

/-- The types of the operands between parentheses. An operator before its operand has no left
one. -/
def operandTypes (r : Rules) : Reader String := do
  symbol "("
  let left ← if ← keyword? "NONE" then pure "NONE" else dataType r
  symbol ","
  let right ← dataType r
  symbol ")"
  return " (" ++ left ++ ", " ++ right ++ ")"

/-- The words that begin an option of an operator. -/
def operatorOptions : List String :=
  ["RESTRICT", "JOIN", "COMMUTATOR", "NEGATOR", "HASHES", "MERGES"]

/-- An option of an operator, behind its word `k`. `estimator` reads a function that guesses how
many rows match, and `partner` another operator. -/
def operatorOption (estimator partner : Reader String) (k : String) : Reader String := do
  match k with
  | "HASHES" | "MERGES" => return k
  | "RESTRICT" | "JOIN" =>
    symbol "="
    return k ++ " = " ++ (← estimator)
  | _ =>
    symbol "="
    return k ++ " = " ++ (← partner)

/-- A part of a new operator, with the word that it may be given under only once. -/
def operatorPart (r : Rules) : Reader (String × String) := do
  let assigned (k : String) (p : Reader String) : Reader String := do
    symbol "="
    return k ++ " = " ++ (← p)
  let partner : Reader String := do
    if ← keyword? "OPERATOR" then parens operatorName else operatorName
  match ← keywordOf (["FUNCTION", "PROCEDURE", "LEFTARG", "RIGHTARG"] ++ operatorOptions) with
  | "LEFTARG" => return ("LEFTARG", ← assigned "LEFTARG" (dataType r))
  | "RIGHTARG" => return ("RIGHTARG", ← assigned "RIGHTARG" (dataType r))
  | k =>
    if k == "FUNCTION" || k == "PROCEDURE" then return ("FUNCTION", ← assigned k nameText)
    else return (k, ← operatorOption nameText partner k)

/-! ## New operators -/

/-- A new operator. Its function comes first in print, and the types of its operands next. -/
def newOperator (r : Rules) : Reader String := do
  let n ← operatorName
  let parts ← parens (commaList (operatorPart r))
  let words := parts.map Prod.fst
  unless words.eraseDups.length == words.length do expected "each part once"
  unless words.contains "FUNCTION" do expected "FUNCTION"
  let core := ["FUNCTION", "LEFTARG", "RIGHTARG"].filterMap fun k => parts.lookup k
  let options := (parts.filter fun p => operatorOptions.contains p.1).map Prod.snd
  return "OPERATOR " ++ n ++ " (" ++ commaSeparated (core ++ options) ++ ")"

/-- A new family of operators. -/
def newOperatorFamily : Reader String := do
  let n ← nameText
  keyword "USING"
  return "OPERATOR FAMILY " ++ n ++ " USING " ++ (← identText)

/-- What an operator of a class is for. -/
def operatorPurpose? : Reader String := do
  if ← keyword? "FOR" then
    if ← keyword? "SEARCH" then return " FOR SEARCH"
    else
      keywords ["ORDER", "BY"]
      return " FOR ORDER BY " ++ (← nameText)
  else return ""

/-- A member of a class of operators, if one is next. -/
def classMember? (r : Rules) : Reader (Option String) := do
  match ← keywordOf? ["OPERATOR", "FUNCTION", "STORAGE"] with
  | some "OPERATOR" =>
    let n ← wholeNumber
    let op ← operatorName
    let types ← textBefore? "(" do
      symbol "("
      let left ← dataType r
      symbol ","
      let right ← dataType r
      symbol ")"
      return " (" ++ left ++ ", " ++ right ++ ")"
    return some ("OPERATOR " ++ n ++ " " ++ op ++ types ++ (← operatorPurpose?))
  | some "FUNCTION" =>
    let n ← wholeNumber
    let types ← textBefore? "(" (return " " ++ (← parensText (dataType r)))
    let f ← nameText
    let arguments ← textBefore? "(" (parensTextUntil (dataType r))
    return some ("FUNCTION " ++ n ++ types ++ " " ++ f ++
      (if arguments == "()" then "" else arguments))
  | some _ => return some ("STORAGE " ++ (← dataType r))
  | none => return none

/-- A new class of operators. A comma may end its members. -/
def newOperatorClass (r : Rules) : Reader String := do
  let n ← nameText
  let default ← words? ["DEFAULT"]
  keywords ["FOR", "TYPE"]
  let type ← dataType r
  keyword "USING"
  let method ← identText
  let family ← textBehind? ["FAMILY"] nameText
  keyword "AS"
  let (members, _) ← loop (fun ((acc, more) : List String × Bool) => do
    match ← if more then classMember? r else pure none with
    | some m => return some (m :: acc, ← symbol? ",")
    | none => return none) ([], true)
  return "OPERATOR CLASS " ++ n ++ default ++ " FOR TYPE " ++ type ++ " USING " ++ method ++
    family ++ " AS " ++ commaSeparated members.reverse

/-- A new operator, or a family or class of them. -/
def newOperatorObject (r : Rules) : Reader String := do
  if ← keyword? "FAMILY" then newOperatorFamily
  else if ← keyword? "CLASS" then newOperatorClass r
  else newOperator r

/-! ## Old operators -/

/-- `ALTER` of an operator. -/
def alterOperator (r : Rules) : Reader String := do
  let n ← operatorName
  let types ← operandTypes r
  let estimator : Reader String := do
    if ← keyword? "NONE" then return "NONE" else nameText
  let change ←
    if ← keywords? ["OWNER", "TO"] then do pure ("OWNER TO " ++ (← owner))
    else if ← keywords? ["SET", "SCHEMA"] then do pure ("SET SCHEMA " ++ (← nameText))
    else do
      keyword "SET"
      pure ("SET " ++ (← parensText do
        operatorOption estimator operatorName (← keywordOf operatorOptions)))
  return "OPERATOR " ++ n ++ types ++ " " ++ change

/-- `DROP` of operators, or of families or classes of them. -/
def dropOperator (r : Rules) : Reader String := do
  let group (k : String) : Reader String := do
    let guarded ← ifThere?
    let names ← commaText nameText
    keyword "USING"
    let method ← identText
    return "DROP OPERATOR " ++ k ++ guarded ++ " " ++ names ++ " USING " ++ method ++
      (← dependents?)
  match ← keywordOf? ["FAMILY", "CLASS"] with
  | some k => group k
  | none =>
    let guarded ← ifThere?
    let operators ← commaText do return (← operatorName) ++ (← operandTypes r)
    return "DROP OPERATOR" ++ guarded ++ " " ++ operators ++ (← dependents?)

end Reader

end RowPolicy.Sql
