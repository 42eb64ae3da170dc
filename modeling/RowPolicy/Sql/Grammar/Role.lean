import RowPolicy.Sql.Grammar.Constant

/-!
# Roles and grantees

What a role may do, and who rights are given to, in printed form.
-/

namespace RowPolicy.Sql

namespace Reader

/-! ## Names of users -/

/-- A user by name, perhaps with the host behind it. -/
def granteeName : Reader String := do
  let n ← name
  if ← pure (n.length == 1) <&&> inDialect [.mysql, .generic] <&&> symbol? "@" then
    return n.render ++ "@" ++ (← identText)
  else return n.render

/-- The owner of an object. -/
def owner : Reader String := do
  match ← keywordOf? ["CURRENT_USER", "CURRENT_ROLE", "SESSION_USER"] with
  | some k => return k
  | none => identText

/-! ## Traits of a role -/

/-- Traits that a role has or lacks, by the word that gives and the word that takes it, in the order
in which they are printed. -/
def roleFlags : List (String × String) :=
  [("SUPERUSER", "NOSUPERUSER"), ("CREATEDB", "NOCREATEDB"), ("CREATEROLE", "NOCREATEROLE"),
    ("INHERIT", "NOINHERIT"), ("LOGIN", "NOLOGIN"), ("REPLICATION", "NOREPLICATION"),
    ("BYPASSRLS", "NOBYPASSRLS")]

/-- The word under which a trait of a role is kept: traits that exclude each other have the same. -/
def roleTrait (k : String) : String :=
  match roleFlags.find? fun f => f.2 == k with
  | some f => f.1
  | none => k

/-- The traits with a value in the order in which they are printed, behind the flags. -/
def valuedTraits : List String :=
  ["CONNECTION", "PASSWORD", "VALID", "IN ROLE", "IN GROUP", "ROLE", "USER", "ADMIN",
    "AUTHORIZATION"]

/-- The value of a trait whose word is read: the word under which it is kept, and its text. -/
def roleValue (k : String) : Reader (String × String) := do
  match k with
  | "PASSWORD" =>
    if ← keyword? "NULL" then return (k, " PASSWORD NULL")
    else return (k, " PASSWORD " ++ (← constantText))
  | "CONNECTION" =>
    keyword "LIMIT"
    return (k, " CONNECTION LIMIT " ++ (← numberText))
  | "VALID" =>
    keyword "UNTIL"
    return (k, " VALID UNTIL " ++ (← constantText))
  | "IN" =>
    let w := "IN " ++ (← keywordOf ["ROLE", "GROUP"])
    return (w, " " ++ w ++ " " ++ (← commaText identText))
  | "AUTHORIZATION" => return (k, " AUTHORIZATION " ++ (← nameText))
  | "ROLE" | "USER" | "ADMIN" => return (k, " " ++ k ++ " " ++ (← commaText identText))
  | _ => return (roleTrait k, " " ++ k)

/-- The words that begin a trait of a new role. -/
def roleWords : Dialect → List String
  | .mssql => ["AUTHORIZATION"]
  | .postgresql =>
    roleFlags.map Prod.fst ++ roleFlags.map Prod.snd ++
      ["PASSWORD", "CONNECTION", "VALID", "IN", "ROLE", "ADMIN", "USER"]
  | _ => []

/-- The traits of a new role. Each is given once at most. -/
def roleTraits : Reader String := do
  let words := roleWords (← read).dialect
  let traits ← loop (fun (acc : List (String × String)) => do
    match ← keywordOf? words with
    | some k =>
      let t ← roleValue k
      if (acc.lookup t.1).isSome then expected "a trait that is not given yet"
      else return some (t :: acc)
    | none => return none) []
  return String.join ((roleFlags.map Prod.fst ++ valuedTraits).map fun k =>
    (traits.lookup k).getD "")

/-- A new role, behind `ROLE`. -/
def newRole : Reader String := do
  let guarded ← unlessThere?
  let names ← commaText nameText
  let _ ← keyword? "WITH"
  return "ROLE" ++ guarded ++ " " ++ names ++ (← roleTraits)

/-- A trait of a role that changes, behind a blank. -/
def roleOption : Reader String := do
  let flags := roleFlags.map Prod.fst ++ roleFlags.map Prod.snd
  let k ← keywordOf (flags ++ ["CONNECTION", "PASSWORD", "VALID"])
  return (← roleValue k).2

/-! ## Options with a key -/

/-- The value of an option without a list in it. -/
def plainOptionValue : Reader String := do
  match ← peek with
  | some (.word v _ k) =>
    if k == "TRUE" || k == "FALSE" then constantText
    else
      advance
      return v
  | some (.string .plain _) | some (.number _ _) => constantText
  | _ => expected "an option value"

/-- Options with a key each and `separate` between them, up to the end of the text, a closing
parenthesis where `enclosed` says so, or one of the words `ends`. A comma anywhere makes commas the
separator. `bound` limits how deep lists of options nest. -/
def keyedOptions (enclosed : Bool) (ends : List String) : (bound : Nat) → Reader String
  | 0 => throw .tooDeep
  | bound + 1 => do
    if enclosed then symbol "("
    let value : Reader String := do
      if ← peekSymbol "(" then
        match ← attempt (parensTextUntil constantText) with
        | some list => return list
        | none => return "(" ++ (← keyedOptions true [] bound) ++ ")"
      else plainOptionValue
    let (options, commas, _) ←
      loop (fun ((acc, commas, done) : List String × Bool × Bool) => do
        if done then return none
        else
          match ← peek with
          | none => return none
          | some (.symbol ")") =>
            if enclosed then
              advance
              return some (acc, commas, true)
            else expected "another option"
          | some (.symbol ";") => advance; return some (acc, commas, true)
          | some (.symbol ",") => advance; return some (acc, true, false)
          | some (.word v _ k) =>
            if ends.contains k then return none
            else
              advance
              symbol "="
              return some ((v ++ "=" ++ (← value)) :: acc, commas, false)
          | some _ => expected "another option") ([], false, false)
    return (if commas then ", " else " ").intercalate options.reverse

/-! ## Users -/

/-- A new user, behind `USER`. -/
def newUser : Reader String := do
  let guarded ← unlessThere?
  let n ← identText
  let bound := (← get).length + 1
  let options ← keyedOptions false ["WITH", "TAG"] bound
  let word ← words? ["WITH"]
  let tags ← if ← keyword? "TAG" then keyedOptions true [] bound else pure ""
  return "USER" ++ guarded ++ " " ++ n ++ (if options.isEmpty then "" else " " ++ options) ++
    (if tags.isEmpty then "" else word ++ " TAG (" ++ tags ++ ")")

/-- A change of what a user may do through another role. -/
def delegation? : Reader String := do
  let added ← textBehind? ["ADD", "DELEGATED", "AUTHORIZATION", "OF", "ROLE"] do
    let role ← identText
    keywords ["TO", "SECURITY", "INTEGRATION"]
    return role ++ " TO SECURITY INTEGRATION " ++ (← identText)
  let removed ←
    if ← keywords? ["REMOVE", "DELEGATED"] then do
      let role ←
        if ← keywords? ["AUTHORIZATION", "OF", "ROLE"] then do
          pure (" AUTHORIZATION OF ROLE " ++ (← identText))
        else do
          keyword "AUTHORIZATIONS"
          pure " AUTHORIZATIONS"
      keywords ["FROM", "SECURITY", "INTEGRATION"]
      pure (" REMOVE DELEGATED" ++ role ++ " FROM SECURITY INTEGRATION " ++ (← identText))
    else pure ""
  return added ++ removed

/-- A change of the second factor by which a user is known. -/
def secondFactor? : Reader String := do
  let method : Reader String := keywordOf ["PASSKEY", "TOTP", "DUO"]
  let enrolled ← words? ["ENROLL", "MFA"]
  let chosen ← textBehind? ["SET", "DEFAULT_MFA_METHOD"] method
  let removed ← textBehind? ["REMOVE", "MFA", "METHOD"] method
  let changed ← textBehind? ["MODIFY", "MFA", "METHOD"] do
    let m ← method
    keywords ["SET", "COMMENT"]
    return m ++ " SET COMMENT " ++ (← quotedString)
  let added ←
    if ← keywords? ["ADD", "MFA", "METHOD", "OTP"] then do
      let count ←
        if ← keyword? "COUNT" then do
          symbol "="
          pure (" COUNT = " ++ (← constantText))
        else pure ""
      pure (" ADD MFA METHOD OTP" ++ count)
    else pure ""
  return enrolled ++ chosen ++ removed ++ changed ++ added

/-- The kind of a policy that a user gets or loses behind the word `k`. -/
def userPolicy? (k : String) (rest : Reader String) : Reader String := do
  match ← phraseOf? (["AUTHENTICATION", "PASSWORD", "SESSION"].map fun p => [k, p, "POLICY"]) with
  | "" => return ""
  | s => return s ++ (← rest)

/-- `ALTER` of a user. -/
def alterUser : Reader String := do
  let guarded ← ifThere?
  let n ← identText
  let renamed ← textBehind? ["RENAME", "TO"] identText
  let reset ← words? ["RESET", "PASSWORD"]
  let stopped ← words? ["ABORT", "ALL", "QUERIES"]
  let delegated ← delegation?
  let factor ← secondFactor?
  let policy ← userPolicy? "SET" (return " " ++ (← identText))
  let noPolicy ← userPolicy? "UNSET" (return "")
  let bound := (← get).length + 1
  let tags ← textBehind? ["SET", "TAG"] (keyedOptions false [] bound)
  let noTags ← textBehind? ["UNSET", "TAG"] (commaText identText)
  let settings ← textBehind? ["SET"] (keyedOptions false [] bound)
  let unset ← textBehind? ["UNSET"] (commaText identText)
  return "USER" ++ guarded ++ " " ++ n ++ renamed ++ reset ++ stopped ++ delegated ++ factor ++
    policy ++ noPolicy ++ tags ++ noTags ++ settings ++ unset

end Reader

end RowPolicy.Sql
