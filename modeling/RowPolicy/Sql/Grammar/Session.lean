import RowPolicy.Sql.Grammar.Query

/-!
# Statements of a session

Statements that open and end transactions, set variables, run prepared statements and procedures,
move cursors and talk over channels. No policy looks into them, so each reader yields the printed
form. Each starts behind the first word of its statement.
-/

namespace RowPolicy.Sql

namespace Reader

/-! ## Transactions -/

/-- How far a transaction is kept from others. -/
def isolationLevel : Reader String := do
  match ← phraseOf? [["READ", "UNCOMMITTED"], ["READ", "COMMITTED"], ["REPEATABLE", "READ"],
    ["SERIALIZABLE"], ["SNAPSHOT"]] with
  | "" => expected "isolation level"
  | level => return level

/-- A mode of a transaction behind a blank, if one is next. -/
def transactionMode? : Reader String := do
  if ← keywords? ["ISOLATION", "LEVEL"] then return " ISOLATION LEVEL" ++ (← isolationLevel)
  else phraseOf? [["READ", "ONLY"], ["READ", "WRITE"]]

/-- The modes of a transaction. Commas between them may be left out. -/
def transactionModes : Reader String := do
  let (modes, _) ← loop (fun ((acc, required) : List String × Bool) => do
    match ← transactionMode? with
    | "" => if required then expected "transaction mode" else return none
    | m => return some (m :: acc, ← symbol? ",")) ([], false)
  return ",".intercalate modes.reverse

/-- The kind of work that a statement of a transaction names. -/
def work? : Reader String :=
  wordOf? ["TRANSACTION", "WORK"]

/-- Whether another transaction follows at once, after an optional kind of work. -/
def chain? : Reader String := do
  let _ ← work?
  if ← keyword? "AND" then
    let no ← keyword? "NO"
    keyword "CHAIN"
    return optionalWord (!no) " AND CHAIN"
  else return ""

/-- `BEGIN`. -/
def beginTransaction : Reader String := do
  let modifier ←
    if ← feature (·.beginModifier) then
      wordOf? ["DEFERRED", "IMMEDIATE", "EXCLUSIVE", "TRY", "CATCH"]
    else pure ""
  let work ← work?
  return "BEGIN" ++ modifier ++ work ++ (← transactionModes)

/-- `END`. -/
def endTransaction : Reader String := do
  let modifier ← if ← inDialect [.mssql] then wordOf? ["TRY", "CATCH"] else pure ""
  return "END" ++ modifier ++ (← chain?)

/-- `ROLLBACK`. -/
def rollback : Reader String := do
  let chained ← chain?
  if ← keyword? "TO" then
    let _ ← keyword? "SAVEPOINT"
    return "ROLLBACK" ++ chained ++ " TO SAVEPOINT " ++ (← identText)
  else return "ROLLBACK" ++ chained

/-- `RELEASE` of a savepoint. -/
def release : Reader String := do
  let _ ← keyword? "SAVEPOINT"
  return "RELEASE SAVEPOINT " ++ (← identText)

/-! ## Variables -/

/-- The reach of a variable, with the blank behind it. -/
def reach? : Reader String :=
  return ((← keywordOf? ["SESSION", "LOCAL", "GLOBAL"]).map (· ++ " ")).getD ""

/-- The sign between a variable and its value, if it is next. -/
def assigns? : Reader Bool :=
  symbol? "=" <||> keyword? "TO"

/-- The sign between a variable and its value. -/
def assigns : Reader Unit := do
  unless ← assigns? do expected "equals sign or TO"

/-- The value of a variable; a query needs no parentheses. -/
def variableValue (r : Rules) : Reader String := do
  if ← queryNext then return (subquery (← r.query)).render else exprText r

/-- An assignment to a variable. -/
def variableAssignment (r : Rules) : Reader String := do
  let reach ← reach?
  let n ← nameText
  assigns
  return reach ++ n ++ " = " ++ (← exprText r)

/-- The character set of a session, behind `NAMES`. -/
def characterSet : Reader String := do
  if ← keyword? "DEFAULT" then return "NAMES DEFAULT"
  else
    let charset ← identText
    return "NAMES " ++ charset ++ (← textBehind? ["COLLATE"] literalString)

/-- Whether a setting is on. -/
def onOff : Reader String :=
  keywordOf ["ON", "OFF"]

/-- A word as it is written. -/
def anyWord : Reader String := do
  if (← peek).any Token.isWord then identText else expected "a word"

/-- A setting whose value stands behind it without a sign. -/
def sessionSetting (r : Rules) : Reader String := do
  if ← keyword? "STATISTICS" then
    let topic ← keywordOf ["IO", "PROFILE", "TIME", "XML"]
    return "STATISTICS " ++ topic ++ " " ++ (← onOff)
  else if ← keyword? "IDENTITY_INSERT" then
    let table ← nameText
    return "IDENTITY_INSERT " ++ table ++ " " ++ (← onOff)
  else if ← keyword? "OFFSETS" then
    let ws ← commaText anyWord
    return "OFFSETS " ++ ws ++ " " ++ (← onOff)
  else
    let ws ← commaText anyWord
    return ws ++ " " ++ (← exprText r)

/-- One variable, or several between parentheses, with their values; `reach` has the reach of the
variable. A setting without a sign is read from the last token of what looked like a variable. -/
def variableValues (r : Rules) (reach : String) : Reader String := do
  if ← feature (·.parenthesisedSet) <&&> symbol? "(" then
    let names ← commaText identText
    symbol ")"
    assigns
    return "(" ++ names ++ ") = " ++ (← parensText (variableValue r))
  else
    let start ← get
    let n ← nameText
    let taken := start.length - (← get).length
    if ← assigns? then return reach ++ n ++ " = " ++ (← commaText (variableValue r))
    else if ← feature (·.setWithoutEquals) then
      set (start.drop (taken - 1))
      sessionSetting r
    else expected "equals sign or TO"

/-- The zone of the times of a session, behind its words. -/
def timeZone (r : Rules) (reach : String) : Reader String := do
  if ← assigns? then return reach ++ "TIMEZONE = " ++ (← commaText (variableValue r))
  else return optionalWord (reach == "LOCAL ") reach ++ "TIME ZONE " ++ (← exprText r)

/-- The modes of the current transaction, or its snapshot, behind `TRANSACTION`. -/
def transactionSetting : Reader String := do
  if ← keyword? "SNAPSHOT" then return "TRANSACTION SNAPSHOT " ++ (← constantText)
  else return "TRANSACTION" ++ (← transactionModes)

/-- The role of a session. -/
def sessionRole (reach : String) : Reader String := do
  keyword "ROLE"
  let role ← if ← keyword? "NONE" then pure "NONE" else identText
  return reach ++ "ROLE " ++ role

/-- The user of a session, behind `AUTHORIZATION`. -/
def sessionUser (reach : String) : Reader String := do
  if reach.isEmpty then expected "the reach of the setting"
  if ← keyword? "DEFAULT" then return "SESSION AUTHORIZATION DEFAULT"
  else return "SESSION AUTHORIZATION " ++ (← identText)

/-- Several assignments to variables, in the dialects that take them. The lexemes from `start` on
hold the first with its reach. Where they cannot be read, they are left in place. -/
def assignmentsFrom? (r : Rules) (start : List Lexeme) : Reader (Option String) := do
  if ← feature (·.listedSet) then
    set start
    attempt (commaText (variableAssignment r))
  else return none

/-- `SET`. -/
def setVariable (r : Rules) : Reader String := do
  let hive ← keyword? "HIVEVAR"
  let start ← get
  let reach ← if hive then pure "" else reach?
  if hive then symbol ":"
  let start ← if hive then get else pure start
  let whole : Reader String := do
    if ← keywords? ["TIME", "ZONE"] <||> keyword? "TIMEZONE" then timeZone r reach
    else if ← feature (·.setNames) <&&> keyword? "NAMES" then characterSet
    else if ← keyword? "CHARACTERISTICS" then
      keywords ["AS", "TRANSACTION"]
      return "SESSION CHARACTERISTICS AS TRANSACTION" ++ (← transactionModes)
    else if ← keyword? "TRANSACTION" then transactionSetting
    else if ← keyword? "AUTHORIZATION" then sessionUser reach
    else
      let mark := optionalWord hive "HIVEVAR:"
      match ← assignmentsFrom? r start with
      | some s => return mark ++ s
      | none => return mark ++ (← variableValues r reach)
  match ← attempt (sessionRole reach) with
  | some s => return "SET " ++ s
  | none => return "SET " ++ (← whole)

/-! ## Procedures and prepared statements -/

/-- `CALL`. -/
def callProcedure (r : Rules) : Reader String := do
  let n ← name
  if ← peekSymbol "(" then return "CALL " ++ (← call r n).render else return "CALL " ++ n.render

/-- The values for a prepared statement or a procedure without parentheses around them. -/
def bareArguments (r : Rules) : Reader String := do
  let none := ["USING", "OUTPUT", "DEFAULT"].contains (← keywordAt 0)
  if none || (← atEnd) || (← peekSymbol ";") then return ""
  else return " " ++ (← commaText (exprText r))

/-- `EXECUTE`. -/
def execute (r : Rules) : Reader String := do
  let n ← if ← peekSymbol "(" then parens nameText else nameText
  let values ←
    if ← peekSymbol "(" then parensTextUntil (exprText r) else bareArguments r
  let into ← textBehind? ["INTO"] (commaText identText)
  let using' ← textBehind? ["USING"] (commaText (return renderPieces (← namedExpr r)))
  let output ← words? ["OUTPUT"]
  return "EXECUTE " ++ n ++ values ++ into ++ using' ++ output ++ (← words? ["DEFAULT"])

/-- `PREPARE`. -/
def prepare (r : Rules) : Reader String := do
  let n ← identText
  let types ← textBefore? "(" (return (← parensText (dataType r)) ++ " ")
  keyword "AS"
  return "PREPARE " ++ n ++ " " ++ types ++ "AS " ++ (← statementText r)

/-- `DEALLOCATE`. -/
def deallocate : Reader String := do
  let word ← words? ["PREPARE"]
  return "DEALLOCATE" ++ word ++ " " ++ (← identText)

/-- `PRAGMA`. -/
def pragma : Reader String := do
  let n ← nameText
  let value : Reader String := do
    match ← peek with
    | some (.string .plain _) | some (.string .double _) | some (.number _ _)
    | some (.placeholder _) | some (.symbol ":") | some (.symbol "@") | some (.word _ (some _) _) =>
      constantText
    | _ => expected "number or string or ? placeholder"
  if ← peekSymbol "(" then return "PRAGMA " ++ n ++ "(" ++ (← parens value) ++ ")"
  else if ← symbol? "=" then return "PRAGMA " ++ n ++ " = " ++ (← value)
  else return "PRAGMA " ++ n

/-! ## Errors and checks -/

/-- `RAISERROR`. -/
def raiseError (r : Rules) : Reader String := do
  symbol "("
  let message ← exprText r
  symbol ","
  let severity ← exprText r
  symbol ","
  let state ← exprText r
  let arguments ←
    if ← symbol? "," then do pure (", " ++ (← commaText (exprText r))) else pure ""
  symbol ")"
  let options ← textBehind? ["WITH"] (commaText (keywordOf ["LOG", "NOWAIT", "SETERROR"]))
  return "RAISERROR(" ++ message ++ ", " ++ severity ++ ", " ++ state ++ arguments ++ ")" ++ options

/-- `ASSERT`. -/
def assertion (r : Rules) : Reader String := do
  let e ← exprText r
  return "ASSERT " ++ e ++ (← textBehind? ["AS"] (exprText r))

/-! ## Cursors -/

/-- `DECLARE` of a cursor. -/
def declareCursor (r : Rules) : Reader String := do
  let n ← identText
  let binary ← words? ["BINARY"]
  let sensitive ← wordOf? ["INSENSITIVE", "ASENSITIVE"]
  let scroll ← phraseOf? [["SCROLL"], ["NO", "SCROLL"]]
  keyword "CURSOR"
  let hold ← do
    match ← keywordOf? ["WITH", "WITHOUT"] with
    | some k =>
      keyword "HOLD"
      pure (" " ++ k ++ " HOLD")
    | none => pure ""
  keyword "FOR"
  return "DECLARE " ++ n ++ binary ++ sensitive ++ scroll ++ " CURSOR" ++ hold ++ " FOR " ++
    (← queryText r)

/-- A declared variable or cursor. Only the name of a variable begins with an at sign. -/
def declaration (r : Rules) : Reader String := do
  let n ← ident
  let cursor ← words? ["CURSOR"]
  if n.value.toList.head? != some '@' && cursor.isEmpty then expected "the name of a variable"
  let type ←
    if cursor.isEmpty then do
      let _ ← keyword? "AS"
      pure (" " ++ (← dataType r))
    else pure ""
  if ← keyword? "FOR" then return n.render ++ cursor ++ " FOR " ++ (← queryText r) ++ type
  else
    let value ← if ← symbol? "=" then do pure (" = " ++ (← exprText r)) else pure ""
    return n.render ++ cursor ++ type ++ value

/-- `DECLARE`. -/
def declare (r : Rules) : Reader String := do
  if ← inDialect [.mssql] then
    return "DECLARE " ++ "; ".intercalate (← commaList (declaration r))
  else declareCursor r

/-- How far, and which way, a cursor moves. -/
def cursorStep : Reader String := do
  match ← keywordOf? ["NEXT", "PRIOR", "FIRST", "LAST", "ABSOLUTE", "RELATIVE", "FORWARD",
    "BACKWARD", "ALL"] with
  | some k =>
    if k == "ABSOLUTE" || k == "RELATIVE" then return k ++ " " ++ (← numberText)
    else if k == "FORWARD" || k == "BACKWARD" then
      if ← keyword? "ALL" then return k ++ " ALL" else return k ++ " " ++ (← numberText)
    else return k
  | none => numberText

/-- `FETCH` from a cursor. -/
def fetchRows : Reader String := do
  let step ← cursorStep
  let position ← keywordOf ["FROM", "IN"]
  let n ← identText
  return "FETCH " ++ step ++ " " ++ position ++ " " ++ n ++ (← textBehind? ["INTO"] nameText)

/-- `CLOSE` of a cursor. -/
def closeCursor : Reader String := do
  if ← keyword? "ALL" then return "CLOSE ALL" else return "CLOSE " ++ (← identText)

/-! ## Channels -/

/-- `NOTIFY` on a channel. -/
def notify : Reader String := do
  let channel ← identText
  let payload ← if ← symbol? "," then do pure (", " ++ (← bareString)) else pure ""
  return "NOTIFY " ++ channel ++ payload

/-- `UNLISTEN` to a channel, or to all. -/
def unlisten : Reader String := do
  if ← symbol? "*" then return "UNLISTEN *" else return "UNLISTEN " ++ (← identText)

end Reader

end RowPolicy.Sql
