import RowPolicy.Sql.Grammar.Column
import RowPolicy.Sql.Grammar.Script

/-!
# Routines

Functions, procedures, triggers and macros in printed form: what they take and yield, when they run,
and what they do.
-/

namespace RowPolicy.Sql

namespace Reader

/-! ## Parameters -/

/-- The direction of a parameter, with the blank behind it. -/
def direction? : Reader String :=
  return ((← keywordOf? ["IN", "OUT", "INOUT"]).map (· ++ " ")).getD ""

/-- The value of a parameter that is not given. -/
def defaultValue? (r : Rules) : Reader String := do
  if ← keyword? "DEFAULT" <||> symbol? "=" then return " = " ++ (← exprText r) else return ""

/-- A parameter whose name may be missing. What looks like a type is a name where another type
follows it; only its last word counts then. -/
def routineParameter (r : Rules) : Reader String := do
  let direction ← direction?
  let start ← get
  let first ← dataType r
  let last := start[start.length - (← get).length - 1]?.map Lexeme.token
  let second ← if ← peekKeyword "DEFAULT" then pure none else attempt (dataType r)
  let shape ←
    match second, last with
    | none, _ => pure first
    | some t, some (.word v q k) => pure ((Token.word v q k).spelling ++ " " ++ t)
    | some _, _ => expected "a name or type"
  return direction ++ shape ++ (← defaultValue? r)

/-- A parameter with a name. -/
def namedParameter (r : Rules) : Reader String := do
  let n ← identText
  let t ← dataType r
  let value ← if ← symbol? "=" then do pure (" = " ++ (← exprText r)) else pure ""
  return n ++ " " ++ t ++ value

/-- A routine by name, with the types it takes where they are given. -/
def routineSignature (r : Rules) : Reader String := do
  let n ← nameText
  return n ++ (← textBefore? "(" (parensTextUntil (routineParameter r)))

/-! ## Functions -/

/-- The traits of a function, each of which is given once at most. -/
structure FunctionTraits where
  language : Option String := none
  behavior : Option String := none
  onNull : Option String := none
  concurrency : Option String := none
  body : Option String := none

/-- The traits in the order in which they are printed. -/
def FunctionTraits.render (t : FunctionTraits) : String :=
  t.language.getD "" ++ t.behavior.getD "" ++ t.onNull.getD "" ++ t.concurrency.getD "" ++
    t.body.getD ""

/-- A text that is the body of a function. -/
def bodyString : Reader String := do
  match ← peek with
  | some (.dollar _ _) => constantText
  | _ => quotedString

/-- A trait, if the reader yields one; it must not be there yet. -/
def once (before : Option String) (p : Reader String) : Reader (Option String) := do
  if before.isSome then expected "a trait that is not given yet" else some <$> p

/-- The next trait of a function, if one follows. -/
def functionTrait? (r : Rules) (t : FunctionTraits) : Reader (Option FunctionTraits) := do
  let behaviors := ["IMMUTABLE", "STABLE", "VOLATILE"]
  let k ← keywordAt 0
  if k == "AS" then
    advance
    let body ← once t.body do
      let text ← bodyString
      let link ← if ← symbol? "," then do pure (", " ++ (← bodyString)) else pure ""
      return " AS " ++ text ++ link
    return some { t with body }
  else if k == "LANGUAGE" then
    advance
    return some { t with language := ← once t.language (return " LANGUAGE " ++ (← identText)) }
  else if behaviors.contains k then
    return some { t with behavior := ← once t.behavior (wordOf? behaviors) }
  else if k == "PARALLEL" then
    advance
    let concurrency ← once t.concurrency do
      return " PARALLEL " ++ (← keywordOf ["UNSAFE", "RESTRICTED", "SAFE"])
    return some { t with concurrency }
  else if k == "RETURN" then
    advance
    return some { t with body := ← once t.body (return " RETURN " ++ (← exprText r)) }
  else
    match ← phraseOf? [["CALLED", "ON", "NULL", "INPUT"],
      ["RETURNS", "NULL", "ON", "NULL", "INPUT"], ["STRICT"]] with
    | "" => return none
    | s => return some { t with onNull := ← once t.onNull (pure s) }

/-- A new function whose traits stand in any order. -/
def traitFunction (r : Rules) : Reader String := do
  let n ← nameText
  let parameters ← parensTextUntil (routineParameter r)
  let type ← textBehind? ["RETURNS"] (dataType r)
  let traits ← loop (functionTrait? r) {}
  return n ++ parameters ++ type ++ traits.render

/-- The type of a function that yields a table with a name, if one is next. -/
def namedTableType? (r : Rules) : Reader (Option String) :=
  attempt do
    let n ← identText
    keyword "TABLE"
    return n ++ " TABLE " ++ (← parensText (columnDefinition r))

/-- A new function whose body is a block or one expression. -/
def blockFunction (r : Rules) : Reader String := do
  let n ← nameText
  let parameters ← parensTextUntil (namedParameter r)
  keyword "RETURNS"
  let type ← match ← namedTableType? r with
    | some t => pure t
    | none => dataType r
  let _ ← keyword? "AS"
  let body ←
    if ← peekKeyword "BEGIN" then do pure (← beginEnd (statementList r ["END"])).render
    else do
      keyword "RETURN"
      if ← peekSymbol "(" then pure ("RETURN " ++ (← exprText r))
      else if ← peekKeyword "SELECT" then
        pure ("RETURN " ++ (Body.select (← select r)).render)
      else expected "a subquery after RETURN"
  return n ++ parameters ++ " RETURNS " ++ type ++ " AS " ++ body

/-- A new function, behind `FUNCTION`. -/
def newFunction (r : Rules) : Reader String := do
  match (← read).dialect with
  | .postgresql | .generic => traitFunction r
  | .mssql => blockFunction r
  | _ => expected "an object type after CREATE"

/-! ## Procedures -/

/-- A parameter of a procedure. -/
def procedureParameter (r : Rules) : Reader String := do
  let direction ← direction?
  return direction ++ (← namedParameter r)

/-- The parameters of a procedure behind a blank, if there are any. A comma may end them. -/
def procedureParameters? (r : Rules) : Reader String := textBefore? "(" do
  symbol "("
  if ← symbol? ")" then return ""
  else
    let (parameters, _) ← loop (fun ((acc, open') : List String × Bool) => do
      if !open' then return none
      else
        let acc ←
          if (← peek).any Token.isWord then do pure ((← procedureParameter r) :: acc) else pure acc
        let comma ← symbol? ","
        if ← symbol? ")" then return some (acc, false)
        else if comma then return some (acc, true)
        else expected "',' or ')' after parameter definition") ([], true)
    return optionalWord (!parameters.isEmpty) (" (" ++ commaSeparated parameters.reverse ++ ")")

/-- A new procedure, behind `PROCEDURE`. -/
def newProcedure (r : Rules) : Reader String := do
  let n ← nameText
  let parameters ← procedureParameters? r
  let language ← textBehind? ["LANGUAGE"] identText
  keyword "AS"
  return n ++ parameters ++ language ++ " AS " ++ (← statementBlock r ["END"]).render

/-! ## Triggers -/

/-- When a trigger fires in respect of the change. -/
def triggerTime : Reader String := do
  match ← keywordOf ["FOR", "BEFORE", "AFTER", "INSTEAD"] with
  | "INSTEAD" =>
    keyword "OF"
    return "INSTEAD OF"
  | k => return k

/-- A change that fires a trigger. -/
def triggerEvent : Reader String := do
  match ← keywordOf ["INSERT", "UPDATE", "DELETE", "TRUNCATE"] with
  | "UPDATE" => return "UPDATE" ++ (← textBehind? ["OF"] (commaText identText))
  | k => return k

/-- The changes that fire a trigger, with `OR` between them. -/
def triggerEvents : Reader String := do
  let first ← triggerEvent
  return first ++ (← concatText do
    if ← keyword? "OR" then return some (" OR " ++ (← triggerEvent)) else return none)

/-- The names of the rows before and after the change. -/
def transitionNames? : Reader String := do
  if ← keyword? "REFERENCING" then
    let names ← loop (fun acc => do
      match ← phraseOf? [["OLD", "TABLE"], ["NEW", "TABLE"]] with
      | "" =>
        let _ ← keywordOf? ["OLD", "NEW"]
        return none
      | which =>
        let as ← words? ["AS"]
        return some ((which ++ as ++ " " ++ (← nameText)) :: acc)) []
    return optionalWord (!names.isEmpty) (" REFERENCING" ++ String.join names.reverse)
  else return ""

/-- How often a trigger fires in one change. -/
def triggerReach? : Reader String := do
  if ← keyword? "FOR" then
    let each ← words? ["EACH"]
    return " FOR" ++ each ++ " " ++ (← keywordOf ["ROW", "STATEMENT"])
  else return ""

/-- A new trigger, behind `TRIGGER`. -/
def newTrigger (r : Rules) : Reader String := do
  if ← inDialect [.ansi] then expected "an object type after CREATE"
  let n ← nameText
  let time ← attempt triggerTime
  let events ← triggerEvents
  keyword "ON"
  let table ← nameText
  let other ← if ← keyword? "FROM" then attempt nameText else pure none
  let timing ← timing?
  let names ← transitionNames?
  let reach ← triggerReach?
  let condition ← textBehind? ["WHEN"] (exprText r)
  let action ←
    if ← keyword? "EXECUTE" then do
      let k ← keywordOf ["FUNCTION", "PROCEDURE"]
      pure ("EXECUTE " ++ k ++ " " ++ (← routineSignature r))
    else do pure (← statementBlock r ["END"]).render
  return n ++ (time.map (" " ++ ·)).getD "" ++ " " ++ events ++ " ON " ++ table ++
    (other.map (" FROM " ++ ·)).getD "" ++ timing ++ names ++ reach ++ condition ++ " " ++ action

/-- A new trigger whose table comes before its events, behind `TRIGGER`. -/
def newTableTrigger (r : Rules) : Reader String := do
  let n ← nameText
  keyword "ON"
  let table ← nameText
  let time ← triggerTime
  let events ← commaText triggerEvent
  keyword "AS"
  let body ← statementBlock r ["END"]
  return n ++ " ON " ++ table ++ " " ++ time ++ " " ++ events ++ " AS " ++ body.render

/-! ## Macros -/

/-- A parameter of a macro. -/
def macroParameter (r : Rules) : Reader String := do
  let n ← identText
  if ← symbol? ":=" <||> symbol? "=>" then return n ++ " := " ++ (← exprText r) else return n

/-- A new macro, behind `MACRO`. -/
def newMacro (r : Rules) : Reader String := do
  unless ← inDialect [.generic] do expected "an object type after CREATE"
  let n ← nameText
  let parameters ← parensTextUntil (macroParameter r)
  keyword "AS"
  let body ←
    if ← keyword? "TABLE" then do pure ("TABLE " ++ (← queryText r)) else exprText r
  return n ++ (if parameters == "()" then "" else parameters) ++ " AS " ++ body

end Reader

end RowPolicy.Sql
