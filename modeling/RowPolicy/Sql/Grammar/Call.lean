import RowPolicy.Sql.Grammar.DataType

/-!
# Calls, orders and windows

The items of an `ORDER BY`, the specification of a window, and a call with its arguments and the
clauses behind them.
-/

namespace RowPolicy.Sql

namespace Reader

/-! ## Orders -/

/-- The direction of an order and the place of nulls in it. -/
def orderOptions : Reader String := do
  let direction ← wordOf? ["ASC", "DESC"]
  return direction ++ (← phraseOf? [["NULLS", "FIRST"], ["NULLS", "LAST"]])

/-- The rows to fill in between ordered ones. -/
def withFill? (r : Rules) : Reader (List Piece) := do
  if ← feature (·.columnStore) <&&> keywords? ["WITH", "FILL"] then
    let start ← wordExpr? r "FROM"
    let stop ← wordExpr? r "TO"
    let step ← wordExpr? r "STEP"
    return .text " WITH FILL" :: start ++ stop ++ step
  else return []

/-- An item of an `ORDER BY`. -/
def orderItem (r : Rules) : Reader (List Piece) := do
  let e ← r.expr 0
  let options ← orderOptions
  return .expr e :: .text options :: (← withFill? r)

/-- The items of an `ORDER BY`. -/
def orderList (r : Rules) : Reader (List Piece) :=
  return commaPieces (← commaList (orderItem r))

/-! ## Intervals -/

/-- An optional length behind a blank. -/
def spacedPrecision? : Reader String :=
  textBefore? "(" (return " " ++ (← precision))

/-- An optional length behind a blank, perhaps with the digits of a fraction. -/
def secondsPrecision? : Reader String := textBefore? "(" do
  symbol "("
  let p ← wholeNumber
  let s ← if ← symbol? "," then do pure (", " ++ (← wholeNumber)) else pure ""
  symbol ")"
  return " (" ++ p ++ s ++ ")"

/-- The last unit of an interval that spans several. -/
def lastUnit? : Reader String := do
  if ← keyword? "TO" then
    let last ← datePart
    let digits ← if last == "SECOND" then spacedPrecision? else pure ""
    return " TO " ++ last ++ digits
  else return ""

/-- The interval of a value, with the unit behind it. -/
def intervalOf (value : Expr) : Reader Expr := do
  let form (rest : String) : Expr := .phrase [.text "INTERVAL ", .expr value, .text rest]
  let k ← keywordAt 0
  if timeUnits.contains k then
    let unit ← datePart
    if unit == "SECOND" then return form (" SECOND" ++ (← secondsPrecision?))
    else
      let p ← spacedPrecision?
      return form (" " ++ unit ++ p ++ (← lastUnit?))
  else if ← feature (·.intervalUnit) then expected "a unit after the interval"
  else
    let p ← spacedPrecision?
    return form (p ++ (← lastUnit?))

/-- An interval behind its word. Where its unit may be left out, its value is an operand. -/
def interval (r : Rules) : Reader Expr := do
  intervalOf (← if ← feature (·.intervalUnit) then r.expr 0 else r.operand)

/-! ## Windows -/

/-- One bound of a window frame. -/
def frameBound (r : Rules) : Reader (List Piece) := do
  if ← keywords? ["CURRENT", "ROW"] then return [.text "CURRENT ROW"]
  else
    let offset ←
      if ← keyword? "UNBOUNDED" then pure [.text "UNBOUNDED"]
      else
        match ← peek with
        | some (.string .plain _) => pure [.expr (← interval r)]
        | _ => pure [.expr (← r.expr 0)]
    let side ← keywordOf ["PRECEDING", "FOLLOWING"]
    return offset ++ [.text (" " ++ side)]

/-- The frame of a window. -/
def windowFrame (r : Rules) : Reader (List Piece) := do
  let units ← keywordOf ["ROWS", "RANGE", "GROUPS"]
  if ← keyword? "BETWEEN" then
    let start ← frameBound r
    keyword "AND"
    let stop ← frameBound r
    return .text (units ++ " BETWEEN ") :: start ++ .text " AND " :: stop
  else return .text (units ++ " ") :: (← frameBound r)

/-- What stands between the parentheses of a window, the closing one included. -/
def windowSpec (r : Rules) : Reader (List Piece) := do
  let base ← match ← peek with
    | some (.word v q k) =>
      if isKeyword k then pure []
      else do
        advance
        pure [[.text (Ident.render ⟨v, q⟩)]]
    | _ => pure []
  let partition ←
    if ← keywords? ["PARTITION", "BY"] then do
      let es ← commaList (r.expr 0)
      pure [.text "PARTITION BY " :: exprPieces es]
    else pure []
  let order ←
    if ← keywords? ["ORDER", "BY"] then do
      let items ← orderList r
      pure [.text "ORDER BY " :: items]
    else pure []
  let frame ←
    if ← symbol? ")" then pure []
    else do
      let f ← windowFrame r
      symbol ")"
      pure [f]
  return blankPieces (base ++ partition ++ order ++ frame)

/-- The window of a call. -/
def over? (r : Rules) : Reader (List Piece) := do
  if ← keyword? "OVER" then
    if ← symbol? "(" then return .text " OVER (" :: (← windowSpec r) ++ [.text ")"]
    else return [.text (" OVER " ++ (← ident).render)]
  else return []

/-! ## Arguments -/

/-- Whether nulls are respected, if that is said. -/
def nullTreatment? : Reader (Option String) := do
  match ← keywordOf? ["RESPECT", "IGNORE"] with
  | some k => keyword "NULLS"; return some (k ++ " NULLS")
  | none => return none

/-- What a `*` or `t.*` stands for, or else an expression. The name before a star is in printed
form. -/
def starOrExpr (r : Rules) : Reader (String ⊕ Expr) := do
  let start ← get
  match ← peek with
  | some (.symbol "*") => advance; return .inl "*"
  | some (.symbol "(") =>
    if (← peekAt 1) == some (.symbol "*") && (← peekAt 2) == some (.symbol ")") then
      modify (List.drop 3)
      return .inl "*"
    else return .inr (← r.expr 0)
  | some (.word _ _ _) | some (.string .plain _) =>
    let first ← match ← peek with
      | some (.string .plain s) => advance; pure ⟨s, some '\''⟩
      | _ => ident
    let star ← iterateNames [first]
    match star with
    | some s => return .inl s
    | none =>
      set start
      return .inr (← r.expr 0)
  | _ => return .inr (← r.expr 0)
where
  /-- The names after `first`, in printed form, if a star ends them. -/
  iterateNames (first : List Ident) : Reader (Option String) := do
    let (names, star) ← loop (fun (acc : List Ident × Bool) => do
      if acc.2 then return none
      else if ← symbol? "." then
        match ← peek with
        | some (.word v q _) => advance; return some (⟨v, q⟩ :: acc.1, false)
        | some (.string .plain s) => advance; return some (⟨s, some '\''⟩ :: acc.1, false)
        | some (.symbol "*") => advance; return some (acc.1, true)
        | _ => expected "an identifier or a '*' after '.'"
      else return none) (first, false)
    return if star then some (Name.render names.reverse ++ ".*") else none

/-- The value of an argument. -/
def argumentValue (r : Rules) : Reader (List Piece) := do
  match ← starOrExpr r with
  | .inl star => return [.text star]
  | .inr e => return [.expr e]

/-- The operator between the name and the value of an argument. -/
def argumentOperator : Reader String := do
  if ← keyword? "VALUE" then return "VALUE"
  else if ← feature (·.arrowArguments) <&&> symbol? "=>" then return "=>"
  else if ← feature (·.assignArguments) <&&> symbol? ":=" then return ":="
  else if ← feature (·.colonArguments) <&&> symbol? ":" then return ":"
  else expected "argument operator"

/-- An argument, named or not. -/
def argument (r : Rules) : Reader (List Piece) := do
  let byExpr ← feature (·.expressionArgumentNames)
  let named ← attempt do
    let n ← if byExpr then do pure (Piece.expr (← r.expr 0)) else do pure (.text (← ident).render)
    let op ← argumentOperator
    let v ← argumentValue r
    return n :: .text (" " ++ op ++ " ") :: v
  match named with
  | some ps => return ps
  | none => argumentValue r

/-- How a JSON call treats nulls. -/
def jsonNulls? : Reader (List (List Piece)) := do
  if ← keywords? ["ABSENT", "ON", "NULL"] then return [[.text "ABSENT ON NULL"]]
  else if ← keywords? ["NULL", "ON", "NULL"] then return [[.text "NULL ON NULL"]]
  else return []

/-- The type a JSON call returns. -/
def jsonReturning? (r : Rules) : Reader (List (List Piece)) := do
  match ← behind? "RETURNING" (dataType r) with
  | some t => return [[.text ("RETURNING " ++ t)]]
  | none => return []

/-- What a list of texts does when it grows too long. -/
def onOverflow? (r : Rules) : Reader (List (List Piece)) := do
  if ← keywords? ["ON", "OVERFLOW"] then
    if ← keyword? "ERROR" then return [[.text "ON OVERFLOW ERROR"]]
    else
      keyword "TRUNCATE"
      let filler ← match ← peek with
        | some (.string kind _) =>
          if [.plain, .escaped, .unicode, .national, .hex].contains kind then do
            pure [Piece.text " ", .expr (← r.expr 0)]
          else expected "a filler"
        | _ => pure []
      let count ← keywordOf ["WITH", "WITHOUT"]
      keyword "COUNT"
      return [.text "ON OVERFLOW TRUNCATE" :: filler ++ [.text (" " ++ count ++ " COUNT")]]
  else return []

/-- The arguments of a call after its opening parenthesis, with the closing one; and whether they
say how nulls are treated. -/
def arguments (r : Rules) : Reader (List Piece × Bool) := do
  let early := (← jsonNulls?) ++ (← jsonReturning? r)
  if ← symbol? ")" then return (.text "(" :: blankPieces early ++ [.text ")"], false)
  let all ← keyword? "ALL"
  let distinct ← keyword? "DISTINCT"
  if all && distinct then expected "one of ALL and DISTINCT"
  let args ← commaList (argument r)
  let nulls ←
    if ← feature (·.nullTreatmentArgument) then nullTreatment? else pure none
  let order ←
    if ← keywords? ["ORDER", "BY"] then do pure [.text "ORDER BY " :: (← orderList r)]
    else pure []
  let limit ← match ← behind? "LIMIT" (r.expr 0) with
    | some e => pure [[.text "LIMIT ", .expr e]]
    | none => pure []
  let having ←
    if ← inDialect [.generic] <&&> keyword? "HAVING" then do
      let side ← keywordOf ["MIN", "MAX"]
      pure [[.text ("HAVING " ++ side ++ " "), .expr (← r.expr 0)]]
    else pure []
  let separator ←
    if ← inDialect [.generic, .mysql] <&&> keyword? "SEPARATOR" then do
      pure [[.text ("SEPARATOR " ++ (← constantText))]]
    else pure []
  let overflow ← onOverflow? r
  let late := (← jsonNulls?) ++ (← jsonReturning? r)
  symbol ")"
  let clauses := early ++ (nulls.map fun s => [Piece.text s]).toList ++ order ++ limit ++ having ++
    separator ++ overflow ++ late
  let before := if all then "(ALL " else if distinct then "(DISTINCT " else "("
  return (.text before :: commaPieces args ++
    (if clauses.isEmpty then [] else .text " " :: blankPieces clauses) ++ [.text ")"],
    nulls.isSome)

/-! ## Calls -/

/-- A call of `n`, from its opening parenthesis on. -/
def call (r : Rules) (n : Name) : Reader Expr := do
  symbol "("
  let (first, treated) ← arguments r
  let (args, treated) ←
    if ← inDialect [.generic] <&&> symbol? "(" then do
      let (second, treated) ← arguments r
      pure (first ++ second, treated)
    else pure (first, treated)
  let within ←
    if ← keywords? ["WITHIN", "GROUP"] then do
      symbol "("
      keywords ["ORDER", "BY"]
      let items ← orderList r
      symbol ")"
      pure (.text " WITHIN GROUP (ORDER BY " :: items ++ [.text ")"])
    else pure []
  let filter ←
    if ← feature (·.filteredCalls) <&&> keyword? "FILTER" then
      if ← symbol? "(" then
        if ← keyword? "WHERE" then do
          let e ← r.expr 0
          symbol ")"
          pure [.text " FILTER (WHERE ", .expr e, .text ")"]
        else pure []
      else pure []
    else pure []
  let nulls ← if treated then pure none else nullTreatment?
  let window ← over? r
  let behind := filter ++ (nulls.map fun s => Piece.text (" " ++ s)).toList ++ window
  return .call n (args ++ if within.isEmpty then behind else [.swapped within behind])

/-- A word that is a call with or without parentheses. -/
def timeCall (r : Rules) (n : Name) : Reader Expr := do
  if ← symbol? "(" then return .call n (← arguments r).1 else return .call n []

end Reader

end RowPolicy.Sql
