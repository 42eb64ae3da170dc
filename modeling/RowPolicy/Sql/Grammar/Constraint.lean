import RowPolicy.Sql.Grammar.Call

/-!
# Constraints

What a table or a column demands of its values: keys, references and checks, with when they are
checked and how the index behind a key is built. A constraint is kept in its printed form.
-/

namespace RowPolicy.Sql

namespace Reader

/-! ## When a constraint is checked -/

/-- When a constraint is checked. Each of the three traits is given once at most, in any order, and
they are printed in one. -/
def timing? : Reader String := do
  let (deferrable, initially, enforced) ←
    loop (fun ((deferrable, initially, enforced) : String × String × String) => do
      if deferrable.isEmpty && (← keywords? ["NOT", "DEFERRABLE"]) then
        return some (" NOT DEFERRABLE", initially, enforced)
      else if deferrable.isEmpty && (← keyword? "DEFERRABLE") then
        return some (" DEFERRABLE", initially, enforced)
      else if initially.isEmpty && (← keyword? "INITIALLY") then
        let k ← keywordOf ["DEFERRED", "IMMEDIATE"]
        return some (deferrable, " INITIALLY " ++ k, enforced)
      else if enforced.isEmpty && (← keyword? "ENFORCED") then
        return some (deferrable, initially, " ENFORCED")
      else if enforced.isEmpty && (← keywords? ["NOT", "ENFORCED"]) then
        return some (deferrable, initially, " NOT ENFORCED")
      else return none) ("", "", "")
  return deferrable ++ initially ++ enforced

/-! ## References -/

/-- What a change of the referenced row does to the referencing ones. -/
def referentialAction : Reader String := do
  match ← phraseOf? [["RESTRICT"], ["CASCADE"], ["SET", "NULL"], ["NO", "ACTION"],
    ["SET", "DEFAULT"]] with
  | "" => expected "one of RESTRICT, CASCADE, SET NULL, NO ACTION or SET DEFAULT"
  | action => return action

/-- A referenced table behind `REFERENCES`, with the columns, which stand behind `gap`, and with
what its changes do. -/
def reference (gap : String) : Reader String := do
  let table ← nameText
  let columns ← textBefore? "(" (return gap ++ (← identList))
  let (kind, onDelete, onUpdate) ←
    loop (fun ((kind, onDelete, onUpdate) : String × String × String) => do
      if kind.isEmpty && (← keyword? "MATCH") then
        let k ← keywordOf ["FULL", "PARTIAL", "SIMPLE"]
        return some (" MATCH " ++ k, onDelete, onUpdate)
      else if onDelete.isEmpty && (← keywords? ["ON", "DELETE"]) then
        return some (kind, " ON DELETE" ++ (← referentialAction), onUpdate)
      else if onUpdate.isEmpty && (← keywords? ["ON", "UPDATE"]) then
        return some (kind, onDelete, " ON UPDATE" ++ (← referentialAction))
      else return none) ("", "", "")
  return "REFERENCES " ++ table ++ columns ++ kind ++ onDelete ++ onUpdate ++ (← timing?)

/-! ## Indexes -/

/-- The structure of an index: one of the common ones in capitals, or another as written. -/
def indexMethod : Reader String := do
  match ← keywordOf? ["BTREE", "HASH", "GIN", "GIST", "SPGIST", "BRIN", "BLOOM"] with
  | some k => return k
  | none => identText

/-- The structure of an index behind `USING`, if that word comes next. -/
def indexMethod? : Reader (Option String) :=
  behind? "USING" indexMethod

/-- An expression that an index orders, with the class of its operators. -/
def indexColumn (r : Rules) : Reader String := do
  let e ← exprText r
  let operators ←
    if ["ASC", "DESC", "NULLS", "WITH"].contains (← keywordAt 0) then pure ""
    else do pure (((← attempt nameText).map (" " ++ ·)).getD "")
  let options ← orderOptions
  let _ ← withFill? r
  return e ++ operators ++ options

/-- The expressions that an index orders. -/
def indexColumns (r : Rules) : Reader String :=
  parensText (indexColumn r)

/-- The options of an index, with `separator` between them. -/
def indexOptions (separator : String) : Reader String := do
  let options ← loop (fun acc => do
    match ← indexMethod? with
    | some m => return some (("USING " ++ m) :: acc)
    | none =>
      if ← keyword? "COMMENT" then return some (("COMMENT " ++ (← bareString)) :: acc)
      else return none) []
  return optionalWord (!options.isEmpty) (" " ++ separator.intercalate options.reverse)

/-- The name of an index behind a blank, if there is one. -/
def indexName? : Reader String :=
  return ((← attempt identText).map (" " ++ ·)).getD ""

/-- The index behind a key: its name, structure, columns and options, and when the key is
checked. -/
def keyIndex (r : Rules) : Reader String := do
  let n ← indexName?
  let method := ((← indexMethod?).map (" USING " ++ ·)).getD ""
  let columns ← indexColumns r
  let options ← indexOptions " "
  return n ++ method ++ " " ++ columns ++ options ++ (← timing?)

/-- How many rows without a value a unique key admits. -/
def nullsDistinct? : Reader String := do
  if ← keyword? "NULLS" then
    let not ← words? ["NOT"]
    keyword "DISTINCT"
    return " NULLS" ++ not ++ " DISTINCT"
  else return ""

/-! ## Constraints of a table -/

/-- Whether an index is a constraint of a table. -/
def indexedTables : Reader Bool :=
  inDialect [.mysql, .generic]

/-- An index among the constraints of a table, behind the word `k`. -/
def tableIndex (r : Rules) (k : String) : Reader String := do
  let n ← if ← peekKeyword "USING" then pure "" else indexName?
  let method := ((← indexMethod?).map (" USING " ++ ·)).getD ""
  let columns ← indexColumns r
  return k ++ n ++ method ++ " " ++ columns ++ (← indexOptions ", ")

/-- A constraint of a table, if one is next. -/
def tableConstraint? (r : Rules) : Reader (Option String) := do
  let n ← behind? "CONSTRAINT" identText
  let named (s : String) : Option String :=
    some ((n.map fun i => "CONSTRAINT " ++ i ++ " ").getD "" ++ s)
  match ← keywordAt 0 with
  | "UNIQUE" =>
    advance
    let word ← wordOf? ["KEY", "INDEX"]
    if word != "" && !(← indexedTables) then expected "an index name or columns"
    let nulls ← nullsDistinct?
    return named ("UNIQUE" ++ nulls ++ word ++ (← keyIndex r))
  | "PRIMARY" =>
    advance
    keyword "KEY"
    return named ("PRIMARY KEY" ++ (← keyIndex r))
  | "FOREIGN" =>
    advance
    keyword "KEY"
    let index ← indexName?
    let columns ← identList
    keyword "REFERENCES"
    return named ("FOREIGN KEY" ++ index ++ " " ++ columns ++ " " ++ (← reference ""))
  | "CHECK" =>
    advance
    let e ← parens (exprText r)
    return named ("CHECK (" ++ e ++ ")" ++ (← phraseOf? [["ENFORCED"], ["NOT", "ENFORCED"]]))
  | k =>
    if n.isSome then expected "PRIMARY, UNIQUE, FOREIGN, or CHECK"
    else if !(← indexedTables) then return none
    else if k == "INDEX" || k == "KEY" then
      advance
      return some (← tableIndex r k)
    else if k == "FULLTEXT" || k == "SPATIAL" then
      advance
      let word ← wordOf? ["KEY", "INDEX"]
      let index ← indexName?
      return some (k ++ word ++ index ++ " " ++ (← indexColumns r))
    else return none

end Reader

end RowPolicy.Sql
