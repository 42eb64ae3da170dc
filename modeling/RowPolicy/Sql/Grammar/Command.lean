import RowPolicy.Sql.Grammar.Alter
import RowPolicy.Sql.Grammar.Describe
import RowPolicy.Sql.Grammar.Drop
import RowPolicy.Sql.Grammar.Rights
import RowPolicy.Sql.Grammar.Transfer
import RowPolicy.Sql.Grammar.Upkeep

/-!
# Other statements

The choice among all statements that are neither a query nor a change of rows. No policy looks into
them, so each is read into its printed form.
-/

namespace RowPolicy.Sql

namespace Reader

/-- A statement of a program or a transaction whose first word is `k` and is written as `head`,
behind that word; nothing for another word. -/
def programCommand? (r : Rules) (k head : String) : Reader (Option String) := do
  match k with
  | "CASE" => some <$> caseScript r
  | "IF" =>
    if ← inDialect [.mssql] then some <$> plainIf r head else some <$> ifScript r head
  | "WHILE" => some <$> whileScript r head
  | "RAISE" => some <$> raise r
  | "RAISERROR" => some <$> raiseError r
  | "ASSERT" => some <$> assertion r
  | "PRINT" => return some ("PRINT " ++ (← exprText r))
  | "RETURN" => return some ("RETURN" ++ ((← attempt (exprText r)).map (" " ++ ·)).getD "")
  | "CALL" => some <$> callProcedure r
  | "EXECUTE" | "EXEC" => some <$> execute r
  | "PREPARE" => some <$> prepare r
  | "DEALLOCATE" => some <$> deallocate
  | "DECLARE" => some <$> declare r
  | "OPEN" => return some ("OPEN " ++ (← identText))
  | "FETCH" => some <$> fetchRows
  | "CLOSE" => some <$> closeCursor
  | "SET" => some <$> setVariable r
  | "START" =>
    keyword "TRANSACTION"
    return some ("START TRANSACTION" ++ (← transactionModes))
  | "BEGIN" => some <$> beginTransaction
  | "END" => some <$> endTransaction
  | "COMMIT" => return some ("COMMIT" ++ (← chain?))
  | "ROLLBACK" => some <$> rollback
  | "SAVEPOINT" => return some ("SAVEPOINT " ++ (← identText))
  | "RELEASE" => some <$> release
  | "MERGE" => return some (renderPieces (← merge r))
  | _ => return none

/-- A statement that describes, moves or maintains and whose first word is `k`, behind that word;
nothing for another word. -/
def serverCommand? (r : Rules) (k : String) : Reader (Option String) := do
  match k with
  | "KILL" => some <$> kill
  | "FLUSH" => some <$> flush
  | "EXPLAIN" | "DESCRIBE" | "DESC" => some <$> explain r k
  | "SHOW" => some <$> showObjects r
  | "USE" => return some ("USE " ++ (← nameText))
  | "ANALYZE" => some <$> analyze r
  | "TRUNCATE" => some <$> truncate r
  | "ATTACH" => some <$> attachDatabase r
  | "MSCK" => some <$> checkFiles
  | "CACHE" => some <$> cacheTable r
  | "UNCACHE" => some <$> uncacheTable
  | "DISCARD" => some <$> discard
  | "COPY" => some <$> copyRows r
  | "UNLOAD" => some <$> unload r
  | "EXPORT" => some <$> exportRows r
  | "PRAGMA" => some <$> pragma
  | "RENAME" => some <$> renameTables
  | "VACUUM" => some <$> vacuum
  | "RESET" => some <$> reset
  | _ => return none

/-- A statement that only some dialects have and whose first word is `k`, behind that word. -/
def specialCommand (r : Rules) (k : String) : Reader String := do
  match (← read).dialect, k with
  | .generic, "DETACH" => detachDatabase
  | .generic, "INSTALL" => return "INSTALL " ++ (← identText)
  | .generic, "LOAD" => return "LOAD " ++ (← identText)
  | .generic, "OPTIMIZE" => optimize r
  | .generic, "COMMENT" | .postgresql, "COMMENT" => comment
  | .postgresql, "LISTEN" => return "LISTEN " ++ (← identText)
  | .postgresql, "UNLISTEN" => unlisten
  | .postgresql, "NOTIFY" => notify
  | .mysql, "LOCK" =>
    keyword "TABLES"
    return "LOCK TABLES " ++ (← commaText tableLock)
  | .mysql, "UNLOCK" =>
    keyword "TABLES"
    return "UNLOCK TABLES"
  | _, _ => expected "an SQL statement"

/-- A statement whose first word is `k` and is written as `head`, behind that word. -/
def command (r : Rules) (k head : String) : Reader String := do
  match k with
  | "CREATE" => create r
  | "DROP" => drop r
  | "ALTER" => alter r
  | "GRANT" => grant r
  | "REVOKE" => revoke r
  | "DENY" => deny r
  | _ =>
    match ← programCommand? r k head with
    | some s => return s
    | none =>
      match ← serverCommand? r k with
      | some s => return s
      | none => specialCommand r k

end Reader

end RowPolicy.Sql
