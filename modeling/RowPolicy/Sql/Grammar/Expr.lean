import RowPolicy.Sql.Grammar.Call
import RowPolicy.Sql.Grammar.Strength

/-!
# Expressions

An expression is an operand, the accesses behind it, and then operators as long as they bind
tighter than the strength asked for. An operand that begins with a special word is first read as
that word's own form and, failing that, as a column.
-/

namespace RowPolicy.Sql

/-- An operand behind an operator word or sign. -/
def signed (sign : String) (e : Expr) : Expr :=
  .phrase [.text sign, .expr e]

namespace Reader

/-! ## Operands with a form of their own -/

/-- `CASE` after its word. -/
def caseExpr (r : Rules) : Reader Expr := do
  let operand ←
    if ← keyword? "WHEN" then pure []
    else do
      let e ← r.expr 0
      keyword "WHEN"
      pure [.text " ", .expr e]
  let arm : Reader (List Piece) := do
    let c ← r.expr 0
    keyword "THEN"
    let v ← r.expr 0
    return [.text " WHEN ", .expr c, .text " THEN ", .expr v]
  let first ← arm
  let arms ← loop (fun acc => do
    if ← keyword? "WHEN" then return some (acc ++ (← arm)) else return none) first
  let other ← wordExpr? r "ELSE"
  keyword "END"
  return .phrase (.text "CASE" :: operand ++ arms ++ other ++ [.text " END"])

/-- `CAST` after its word. -/
def castExpr (r : Rules) (word : String) : Reader Expr := do
  symbol "("
  let e ← r.expr 0
  keyword "AS"
  let t ← dataType r
  let format ←
    if ← keyword? "FORMAT" then do
      let f ← constantText
      if ← keywords? ["AT", "TIME", "ZONE"] then do
        pure (" FORMAT " ++ f ++ " AT TIME ZONE " ++ (← constantText))
      else pure (" FORMAT " ++ f)
    else pure ""
  symbol ")"
  return .phrase [.text (word ++ "("), .expr e, .text (" AS " ++ t ++ format ++ ")")]

/-- `CONVERT` after its word. -/
def convertExpr (r : Rules) (word : String) : Reader Expr := do
  symbol "("
  if ← feature (·.convertTypeFirst) then
    let t ← dataType r
    symbol ","
    let e ← r.expr 0
    let styles ← if ← symbol? "," then do pure (.text ", " :: exprPieces (← commaList (r.expr 0)))
      else pure []
    symbol ")"
    return .phrase (.text (word ++ "(" ++ t ++ ", ") :: .expr e :: styles ++ [.text ")"])
  else
    let e ← r.expr 0
    if ← keyword? "USING" then
      let charset ← name
      symbol ")"
      return .phrase [.text (word ++ "("), .expr e, .text (" USING " ++ charset.render ++ ")")]
    else
      symbol ","
      let t ← dataType r
      let charset ←
        if ← keywords? ["CHARACTER", "SET"] then do pure (" CHARACTER SET " ++ (← name).render)
        else pure ""
      symbol ")"
      return .phrase [.text (word ++ "("), .expr e, .text (", " ++ t ++ charset ++ ")")]

/-- `EXISTS` after its word. -/
def existsExpr (r : Rules) (word : String) : Reader Expr := do
  let q ← parens r.query
  return .phrase [.text (word ++ " ("), .query q, .text ")"]

/-- `EXTRACT` after its word. -/
def extractExpr (r : Rules) : Reader Expr := do
  symbol "("
  let part ← datePart
  let between ← do
    if ← keyword? "FROM" then pure " FROM "
    else if ← feature (·.extractComma) <&&> symbol? "," then pure ", "
    else expected "'FROM' or ','"
  let e ← r.expr 0
  symbol ")"
  return .phrase [.text ("EXTRACT(" ++ part ++ between), .expr e, .text ")"]

/-- `CEIL` or `FLOOR` after its word. -/
def roundExpr (r : Rules) (word : String) : Reader Expr := do
  symbol "("
  let e ← r.expr 0
  let scale ← do
    if ← keyword? "TO" then do pure (" TO " ++ (← datePart))
    else if ← symbol? "," then do
      match ← constant with
      | .number n => pure (", " ++ n)
      | _ => expected "a number"
    else pure ""
  symbol ")"
  return .phrase [.text (word ++ "("), .expr e, .text (scale ++ ")")]

/-- `POSITION` after its word, written `n`. -/
def positionExpr (r : Rules) (n : Ident) : Reader Expr := do
  let special ← attempt do
    symbol "("
    let e ← r.expr (← strength .between)
    keyword "IN"
    let text ← r.expr 0
    symbol ")"
    return Expr.phrase [.text "POSITION(", .expr e, .text " IN ", .expr text, .text ")"]
  match special with
  | some e => return e
  | none => call r [n]

/-- `SUBSTRING` or `SUBSTR` after its word. -/
def substringExpr (r : Rules) (word : String) : Reader Expr := do
  symbol "("
  let e ← r.expr 0
  let comma ← symbol? ","
  let start ←
    if comma then do pure [.text ", ", .expr (← r.expr 0)] else wordExpr? r "FROM"
  let isFor ← keyword? "FOR"
  let length ←
    if ← pure isFor <||> symbol? "," then do
      pure [.text (if comma then ", " else " FOR "), .expr (← r.expr 0)]
    else pure []
  symbol ")"
  return .phrase (.text (word ++ "(") :: .expr e :: start ++ length ++ [.text ")"])

/-- `OVERLAY` after its word. -/
def overlayExpr (r : Rules) : Reader Expr := do
  symbol "("
  let e ← r.expr 0
  keyword "PLACING"
  let what ← r.expr 0
  keyword "FROM"
  let start ← r.expr 0
  let length ← wordExpr? r "FOR"
  symbol ")"
  return .phrase (.text "OVERLAY(" :: .expr e :: .text " PLACING " :: .expr what ::
    .text " FROM " :: .expr start :: length ++ [.text ")"])

/-- `TRIM` after its word. -/
def trimExpr (r : Rules) : Reader Expr := do
  symbol "("
  let side := match ← keywordOf? ["BOTH", "LEADING", "TRAILING"] with
    | some k => k ++ " "
    | none => ""
  let e ← r.expr 0
  if ← keyword? "FROM" then
    let text ← r.expr 0
    symbol ")"
    return .phrase [.text ("TRIM(" ++ side), .swapped [.expr e, .text " FROM "] [.expr text],
      .text ")"]
  else if ← symbol? "," then
    if ← inDialect [.generic] then
      let characters ← commaList (r.expr 0)
      symbol ")"
      return .phrase
        (.text "TRIM(" :: .expr e :: .text ", " :: exprPieces characters ++ [.text ")"])
    else
      symbol ")"
      return .phrase [.text ("TRIM(" ++ side), .expr e, .text ")"]
  else
    symbol ")"
    return .phrase [.text ("TRIM(" ++ side), .expr e, .text ")"]

/-- `MATCH` after its word. -/
def matchAgainstExpr : Reader Expr := do
  let columns ← nameList
  keyword "AGAINST"
  symbol "("
  let value ← constantText
  let mode ← do
    if ← keywords? ["IN", "NATURAL", "LANGUAGE", "MODE"] then
      if ← keywords? ["WITH", "QUERY", "EXPANSION"] then
        pure " IN NATURAL LANGUAGE MODE WITH QUERY EXPANSION"
      else pure " IN NATURAL LANGUAGE MODE"
    else if ← keywords? ["IN", "BOOLEAN", "MODE"] then pure " IN BOOLEAN MODE"
    else if ← keywords? ["WITH", "QUERY", "EXPANSION"] then pure " WITH QUERY EXPANSION"
    else pure ""
  symbol ")"
  return .phrase [.text ("MATCH " ++ columns ++ " AGAINST (" ++ value ++ mode ++ ")")]

/-- The members of an array, from its opening bracket on. -/
def arrayExpr (r : Rules) (word : String) : Reader Expr := do
  symbol "["
  let es ← commaListUntil "]" (r.expr 0)
  symbol "]"
  return .phrase (.text (word ++ "[") :: exprPieces es ++ [.text "]"])

/-- `STRUCT` after its word. Its values are named only where its fields have no types. -/
def structExpr (r : Rules) : Reader Expr := do
  let (fields, closesOuter) ← structFields r (innerType r)
  if closesOuter then expected "a single >"
  let values ← parens <| commaList do
    let e ← r.expr 0
    if ← pure (fields == "") <&&> keyword? "AS" then
      return [.expr e, .text (" AS " ++ (← identText))]
    else return [.expr e]
  return .phrase (.text ("STRUCT" ++ fields ++ "(") :: commaPieces values ++ [.text ")"])

/-- What stands between braces: a dated constant, a call, or a dictionary. -/
def braceExpr (r : Rules) : Reader Expr := do
  symbol "\x7b"
  let special ← attempt do
    match ← peek with
    | some (.word v none _) =>
      advance
      if ["d", "t", "ts"].contains v then
        return Expr.phrase [.text ("\x7b" ++ v ++ " " ++ (← constantText) ++ "\x7d")]
      else if Text.keywordForm v == "FN" then
        return Expr.phrase [.text "\x7bfn ", .expr (← call r (← name)), .text "\x7d"]
      else expected "a constant or a call"
    | _ => expected "a constant or a call"
  match special with
  | some e => symbol "\x7d"; return e
  | none =>
    if ← feature (·.dictionary) then
      let fields ← commaListUntil "\x7d" do
        let k ← ident
        symbol ":"
        return [Piece.text (k.render ++ ": "), .expr (← r.expr 0)]
      symbol "\x7d"
      return .phrase (.text "\x7b" :: commaPieces fields ++ [.text "\x7d"])
    else expected "an expression"

/-- `MAP` after its word. -/
def mapExpr (r : Rules) : Reader Expr := do
  symbol "\x7b"
  let fields ← commaListUntil "\x7d" do
    let k ← r.expr 0
    symbol ":"
    return [Piece.expr k, .text ": ", .expr (← r.expr 0)]
  symbol "\x7d"
  return .phrase (.text "MAP \x7b" :: commaPieces fields ++ [.text "\x7d"])

/-! ## Operands -/

/-- The words that begin a geometric value, with the type they are written as. -/
def geometricTypes : List (String × String) :=
  [("POINT", "point"), ("LINE", "line"), ("LSEG", "lseg"), ("BOX", "box"), ("PATH", "path"),
    ("POLYGON", "polygon"), ("CIRCLE", "circle")]

/-- The operand that the special word `w` begins, or nothing for any other word. -/
def specialOperand (r : Rules) (w : Ident) (k : String) : Reader (Option Expr) := do
  let f := (← read).dialect.features
  let d := (← read).dialect
  match k with
  | "TRUE" | "FALSE" =>
    if f.booleanLiterals then return some (.literal (.boolean (k == "TRUE"))) else return none
  | "NULL" => return some (.literal .null)
  | "CURRENT_CATALOG" | "CURRENT_USER" | "SESSION_USER" | "USER" =>
    if f.sessionWords then return some (.call [w] []) else return none
  | "CURRENT_TIMESTAMP" | "CURRENT_TIME" | "CURRENT_DATE" | "LOCALTIME" | "LOCALTIMESTAMP" =>
    return some (← timeCall r [w])
  | "CASE" => return some (← caseExpr r)
  | "CONVERT" => return some (← convertExpr r k)
  | "TRY_CONVERT" => if f.tryConvert then return some (← convertExpr r k) else return none
  | "CAST" | "TRY_CAST" | "SAFE_CAST" => return some (← castExpr r k)
  | "EXISTS" => return some (← existsExpr r k)
  | "EXTRACT" => return some (← extractExpr r)
  | "CEIL" | "FLOOR" => return some (← roundExpr r k)
  | "POSITION" =>
    if ← peekSymbol "(" then return some (← positionExpr r w) else return none
  | "SUBSTR" | "SUBSTRING" => return some (← substringExpr r k)
  | "OVERLAY" => return some (← overlayExpr r)
  | "TRIM" => return some (← trimExpr r)
  | "INTERVAL" => return some (← interval r)
  | "ARRAY" =>
    if ← peekSymbol "[" then return some (← arrayExpr r k)
    else if ← peekSymbol "(" then
      let q ← parens r.query
      return some (.call [w] [.text "(", .query q, .text ")"])
    else return none
  | "NOT" =>
    if ← keyword? "EXISTS" then return some (← existsExpr r "NOT EXISTS")
    else return some (signed "NOT " (← r.expr (d.strength .not)))
  | "MATCH" => if f.matchAgainst then return some (← matchAgainstExpr) else return none
  | "STRUCT" => if f.structLiteral then return some (← structExpr r) else return none
  | "PRIOR" =>
    if (← read).connecting then return some (signed "PRIOR " (← r.expr (d.strength .plus)))
    else return none
  | "MAP" =>
    if f.mapLiteral && (← peekSymbol "\x7b") then return some (← mapExpr r) else return none
  | _ =>
    match geometricTypes.lookup k with
    | some t =>
      if f.geometric then return some (.phrase [.text (t ++ " " ++ (← constantText))])
      else return none
    | none => return none

/-- Whether the mark of the optional side of a join comes next. -/
def outerJoinMarkNext : Reader Bool := do
  if ← feature (·.outerJoinMark) then
    return ((← get).take 3).map Lexeme.token == [.symbol "(", .symbol "+", .symbol ")"]
  else return false

/-- The operand that a word begins where it has no form of its own: a call, a constant after its
character set, or a column. -/
def wordOperand (r : Rules) (w : Ident) : Reader Expr := do
  match ← peek with
  | some (.symbol "(") =>
    if ← outerJoinMarkNext then return .column [w] else call r [w]
  | some (.string kind _) =>
    if w.value.toList.head? == some '_' && (kind == .plain || kind == .double || kind == .hex) then
      return .phrase [.text (w.render ++ " " ++ (← introducedText))]
    else return .column [w]
  | _ => return .column [w]

/-- A constant behind the name of its type. -/
def typedConstant (r : Rules) : Reader Expr := do
  let t ← typeReading r
  match t.kind with
  | .named => expected "a constant"
  | .interval => interval r
  | .builtin => return .phrase [.text (t.text ++ " " ++ (← constantText))]

/-- A query between parentheses. -/
def subquery (q : Query) : Expr :=
  .phrase [.text "(", .query q, .text ")"]

/-- Whether an expression is a query between parentheses. -/
def isSubquery : Expr → Bool
  | .phrase [.text "(", .query _, .text ")"] => true
  | _ => false

/-- Whether a query comes next. -/
def queryNext : Reader Bool :=
  return ["SELECT", "WITH"].contains (← keywordAt 0)

/-- What stands between parentheses: a query, an expression, or several. -/
def parenthesised (r : Rules) : Reader Expr := do
  if ← queryNext then
    let q ← r.query
    symbol ")"
    return subquery q
  else
    let es ← commaList (r.expr 0)
    symbol ")"
    match es with
    | [e] => return .nested e
    | es => return .phrase (.text "(" :: exprPieces es ++ [.text ")"])

/-- The operand that the word `w` begins, whose keyword is `k`, and whether it is read as a mere
name because its own form did not fit. Some words are never a mere name. -/
def operandOfWord (r : Rules) (w : Ident) (k : String) : Reader (Expr × Bool) := do
  match specialOperand r w k (← read) (← get) with
  | .ok (some e, rest) => set rest; return (e, false)
  | .ok (none, _) => return (← wordOperand r w, false)
  | .error fault =>
    if ["EXISTS", "INTERVAL", "STRUCT", "TRIM"].contains k then throw fault
    else
      match ← attempt (wordOperand r w) with
      | some e => return (e, true)
      | none => throw fault

/-- The operand that a symbol begins. -/
def operandOfSymbol (r : Rules) (s : String) : Reader Expr := do
  let d := (← read).dialect
  match s with
  | "[" => arrayExpr r ""
  | "-" | "+" => advance; return signed s (← r.expr (d.strength .times))
  | "~" => advance; return signed "~" (← r.expr (d.strength .plus))
  | "(" => advance; parenthesised r
  | "\x7b" => braceExpr r
  | ":" => return .literal (← constant)
  | s =>
    if d == .postgresql && ["!!", "|/", "||/", "@"].contains s then
      advance
      return signed s (← r.expr (d.strength .plus))
    else if d.features.geometric && ["#", "@-@", "@@", "?-", "?|"].contains s then
      advance
      return signed (s ++ " ") (← r.expr (d.strength .plus))
    else if s == "@" then return .literal (← constant)
    else expected "an expression"

/-- An operand. A constant behind its type and a word read as a mere name take no collation
here. -/
def operand (r : Rules) : Reader Expr := do
  match ← attempt (typedConstant r) with
  | some e => return e
  | none =>
    let (e, bare) ← match ← peek with
      | some (.word v q k) => do
        advance
        operandOfWord r ⟨v, q⟩ k
      | some (.symbol s) => do pure (← operandOfSymbol r s, false)
      | some (.number _ _) | some (.string _ _) | some (.dollar _ _) | some (.placeholder _) =>
        pure (.literal (← constant), false)
      | _ => expected "an expression"
    if ← pure (!bare && !(← read).inColumn) <&&> keyword? "COLLATE" then
      return .phrase [.expr e, .text (" COLLATE " ++ (← nameText))]
    else return e

/-! ## Accesses -/

/-- One access behind an operand. -/
inductive Access where
  | dot (e : Expr)
  | subscript (pieces : List Piece)

/-- The identifier that an expression is, if it is one. -/
def identOf? : Expr → Option Ident
  | .column [i] => some i
  | _ => none

/-- The identifiers that the accesses are, if all of them are. -/
def identsOf? : List Access → Option (List Ident)
  | [] => some []
  | .dot e :: rest => do return (← identOf? e) :: (← identsOf? rest)
  | .subscript _ :: _ => none

/-- An access as pieces. -/
def Access.pieces : Access → List Piece
  | .dot e => [.text ".", .expr e]
  | .subscript ps => .text "[" :: ps ++ [.text "]"]

/-- What a subscript holds, its closing bracket included. -/
def subscript (r : Rules) : Reader (List Piece) := do
  let bound : Reader (List Piece) := do return [.expr (← r.expr 0)]
  let lower ← if ← symbol? ":" then pure [] else bound
  if ← symbol? "]" then return if lower.isEmpty then [.text ":"] else lower
  unless lower.isEmpty do symbol ":"
  let upTo := lower ++ [.text ":"]
  if ← symbol? "]" then return upTo
  let upper ← bound
  if ← symbol? "]" then return upTo ++ upper
  symbol ":"
  if ← symbol? "]" then return upTo ++ upper
  let stride ← r.expr 0
  symbol "]"
  return upTo ++ upper ++ [.text ":", .expr stride]

/-- A column marked as the optional side of a join. -/
def outerMarked (path : List Ident) : Expr :=
  .phrase [.expr (.column path), .text " (+)"]

/-- The column that is marked, if an expression is one. -/
def outerMarked? : Expr → Option (List Ident)
  | .phrase [.expr (.column path), .text " (+)"] => some path
  | _ => none

/-- The operand with its accesses. A path of names is a column, a path that ends in a call is a call
of a dotted name, and a mark on the last name of a column is a mark on the column. -/
def withAccesses (e : Expr) (accesses : List Access) : Reader Expr := do
  let whole : Expr := .phrase (.expr e :: accesses.flatMap Access.pieces)
  match identOf? e, identsOf? accesses with
  | some i, some is => return .column (i :: is)
  | root, _ =>
    match accesses with
    | [] => return e
    | [.dot last] =>
      match outerMarked? last, root with
      | some path, some i => return outerMarked (i :: path)
      | some _, none => expected "a column before (+)"
      | none, some i => return callOf i [] last whole
      | none, none => return whole
    | _ =>
      match root, accesses.getLast?, identsOf? accesses.dropLast with
      | some i, some (.dot last), some is => return callOf i is last whole
      | _, _, _ => return whole
where
  /-- The last access as a call of the name `i` and `is` before it, or else the whole. -/
  callOf (i : Ident) (is : List Ident) (last whole : Expr) : Expr :=
    match last with
    | .call n rest => .call (i :: is ++ n) rest
    | _ => whole

/-- The accesses behind an operand. A path of several names counts as one access each. -/
def accesses (r : Rules) (e : Expr) : Reader Expr := do
  let (accs, star) ← loop (fun ((acc, star) : List Access × Bool) => do
    if star then return none
    else if (← peekSymbol ".") && (← peekAt 1) == some (.symbol "*") then
      if (← read).dialect == .postgresql then
        modify (List.drop 2)
        return some (acc, true)
      else return none
    else if ← symbol? "." then
      match ← peek with
      | some (.string .plain s) =>
        advance
        return some (acc ++ [.dot (.column [⟨s, some '\''⟩])], false)
      | _ =>
        match ← r.expr (← strength .period) with
        | .column path => return some (acc ++ path.map fun i => .dot (.column [i]), false)
        | e => return some (acc ++ [.dot e], false)
    else if ← symbol? "[" then return some (acc ++ [.subscript (← subscript r)], false)
    else return none) ([], false)
  let path? := do return (← identOf? e) :: (← identsOf? accs)
  if star then
    match path? with
    | some path => return .phrase [.text (Name.render path ++ ".*")]
    | none => expected "an identifier or a '*' after '.'"
  else if ← outerJoinMarkNext then
    match path? with
    | some path => modify (List.drop 3); return outerMarked path
    | none => expected "a column before (+)"
  else withAccesses e accs

/-! ## Operators -/

/-- The operator between two expressions that the symbol `s` is, as printed. -/
def symbolOperator? (d : Dialect) (s : String) : Option BinaryOp :=
  let f := d.features
  if s == "=" || s == "==" then some .eq
  else if s == "+" then some .plus
  else if s == "!=" then some (.other "<>")
  else if s == "//" then if f.doubleSlash then some (.other s) else none
  else if s == "<<" || s == ">>" then if f.shifts then some (.other s) else none
  else if s == "#" then if d == .postgresql then some (.other s) else none
  else if s == "^@" || s == "&&" then
    if d == .postgresql || d == .generic then some (.other s) else none
  else if ["##", "&<", "&>", "&<|", "|&>", "<->", "<^", ">^", "?#", "?-", "?-|", "?||", "~=", "@",
      "<<|", "|>>"].contains s then
    if f.geometric then some (.other s) else none
  else if [":=", "<=>", "<>", ">", ">=", "<", "<=", "-", "*", "%", "||", "|", "^", "&", "/", "~",
      "~*", "!~", "!~*", "~~", "~~*", "!~~", "!~~*", "->", "->>", "#>", "#>>", "@>", "<@", "#-",
      "@?", "@@", "?", "?&", "?|"].contains s then some (.other s)
  else none

/-- The operators that compare with any or all rows of a query. -/
def quantifiable : BinaryOp → Bool
  | .eq => true
  | .other s =>
    [">", "<", ">=", "<=", "<>", "~", "~*", "!~", "!~*", "~~", "~~*", "!~~", "!~~*"].contains s
  | _ => false

/-- The right side of an operator. A query compared with has no parentheses beside its own. -/
def rightSide (r : Rules) (left : Expr) (op : BinaryOp) (strength : Nat) : Reader Expr := do
  match ← keywordOf? ["ANY", "ALL", "SOME"] with
  | none => return .binary left op (← r.expr strength)
  | some k =>
    let k1 ← keywordAt 1
    let isQuery := (← peekSymbol "(") && (k1 == "SELECT" || k1 == "WITH")
    let right ← if isQuery then r.expr strength else parens (r.expr strength)
    unless quantifiable op do expected "a comparison operator"
    let head := Piece.text (" " ++ op.render ++ " " ++ k)
    if isSubquery right then return .phrase [.expr left, head, .expr right]
    else return .phrase [.expr left, head, .text "(", .expr right, .text ")"]

/-- What follows `IS`. -/
def isExpr (r : Rules) (e : Expr) : Reader Expr := do
  if ← keyword? "NULL" then return .isNull e
  else if ← keywords? ["NOT", "NULL"] then return .phrase [.expr e, .text " IS NOT NULL"]
  else
    let not ← keyword? "NOT"
    let word := if not then " IS NOT " else " IS "
    match ← keywordOf? ["TRUE", "FALSE", "UNKNOWN"] with
    | some k => return .phrase [.expr e, .text (word ++ k)]
    | none =>
      if ← keywords? ["DISTINCT", "FROM"] then
        return .phrase [.expr e, .text (word ++ "DISTINCT FROM "), .expr (← r.expr 0)]
      else
        let form := match ← keywordOf? ["NFC", "NFD", "NFKC", "NFKD"] with
          | some k => k ++ " "
          | none => ""
        keyword "NORMALIZED"
        return .phrase [.expr e, .text (word ++ form ++ "NORMALIZED")]

/-- What follows `IN`. -/
def inExpr (r : Rules) (e : Expr) (word : String) : Reader Expr := do
  if ← keyword? "UNNEST" then
    let array ← parens (r.expr 0)
    return .phrase [.expr e, .text (word ++ " UNNEST("), .expr array, .text ")"]
  else
    symbol "("
    match ← attempt r.query with
    | some q =>
      symbol ")"
      return .phrase [.expr e, .text (word ++ " ("), .query q, .text ")"]
    | none =>
      let es ← if ← feature (·.emptyInList) then commaListUntil ")" (r.expr 0)
        else commaList (r.expr 0)
      symbol ")"
      return .phrase (.expr e :: .text (word ++ " (") :: exprPieces es ++ [.text ")"])

/-- The text that a pattern's escapes begin with. -/
def escape? : Reader String := do
  if ← keyword? "ESCAPE" then return " ESCAPE " ++ (← constantText) else return ""

/-- The pattern behind a word that compares with one. -/
def patternExpr (r : Rules) (e : Expr) (word : String) : Reader Expr := do
  let pattern ← r.expr (← strength .like)
  return .phrase [.expr e, .text (" " ++ word ++ " "), .expr pattern, .text (← escape?)]

/-- The test that an optional `NOT` and a word begin. Behind the words for a regular expression a
`NULL` is passed over. -/
def testExpr (r : Rules) (e : Expr) : Reader Expr := do
  let negated ← keyword? "NOT"
  let not := optionalWord negated "NOT "
  let regexp ← keyword? "REGEXP"
  let rlike ← keyword? "RLIKE"
  let null ← pure (!(← read).inColumn) <&&> keyword? "NULL"
  if regexp || rlike then
    let word := if regexp then "REGEXP " else "RLIKE "
    return .phrase [.expr e, .text (" " ++ not ++ word), .expr (← r.expr (← strength .like))]
  else if negated && null then return .phrase [.expr e, .text " IS NOT NULL"]
  else
    match ← keywordOf ["IN", "BETWEEN", "LIKE", "ILIKE", "SIMILAR"] with
    | "IN" => inExpr r e (" " ++ not ++ "IN")
    | "BETWEEN" =>
      let low ← r.expr (← strength .between)
      keyword "AND"
      let high ← r.expr (← strength .between)
      return .phrase
        [.expr e, .text (" " ++ not ++ "BETWEEN "), .expr low, .text " AND ", .expr high]
    | "SIMILAR" =>
      keyword "TO"
      patternExpr r e (not ++ "SIMILAR TO")
    | k => patternExpr r e (not ++ k ++ (← words? ["ANY"]))

/-- The name of an operator between parentheses. -/
def namedOperator : Reader BinaryOp := do
  return .other ("OPERATOR(" ++ (← parens operatorName) ++ ")")

/-- The expression that the operator after `e`, of strength `s`, forms with `e` and what follows. -/
def infixExpr (r : Rules) (e : Expr) (s : Nat) : Reader Expr := do
  let d := (← read).dialect
  match ← peek with
  | some (.word _ _ k) =>
    match k with
    | "AND" => advance; rightSide r e .and s
    | "OR" => advance; rightSide r e .or s
    | "XOR" => advance; rightSide r e .xor s
    | "OVERLAPS" => advance; rightSide r e (.other "OVERLAPS") s
    | "OPERATOR" =>
      if d == .postgresql || d == .generic then
        advance
        rightSide r e (← namedOperator) s
      else expected "an operator"
    | "DIV" =>
      if d == .mysql then
        advance
        return .binary e (.other "DIV") (← r.expr 0)
      else expected "an operator"
    | "IS" => advance; isExpr r e
    | "AT" =>
      keywords ["AT", "TIME", "ZONE"]
      return .phrase [.expr e, .text " AT TIME ZONE ", .expr (← r.expr s)]
    | "MEMBER" =>
      advance
      keyword "OF"
      let array ← parens (r.expr 0)
      return .phrase [.expr e, .text " MEMBER OF(", .expr array, .text ")"]
    | "NOTNULL" => advance; return .phrase [.expr e, .text " IS NOT NULL"]
    | "COLLATE" =>
      advance
      return .phrase [.expr e, .text (" COLLATE " ++ (← nameText))]
    | "MATCH" | "REGEXP" =>
      if d == .sqlite then
        advance
        return .binary e (.other k) (← r.expr 0)
      else if k == "REGEXP" then testExpr r e
      else expected "an operator"
    | _ => testExpr r e
  | some (.symbol sym) =>
    match symbolOperator? d sym with
    | some op => advance; rightSide r e op s
    | none =>
      match sym with
      | "::" => advance; return .phrase [.expr e, .text ("::" ++ (← dataType r))]
      | "!" =>
        if d.features.factorial then
          advance
          return .phrase [.expr e, .text "!"]
        else expected "an operator"
      | _ => expected "an operator"
  | some (.operator sym) => advance; rightSide r e (.other sym) s
  | _ => expected "an operator"

/-- An expression whose operators bind tighter than `least`. -/
def exprAbove (r : Rules) (least : Nat) : Reader Expr := do
  let first ← accesses r (← operand r)
  loop (fun e => do
    let s ← nextStrength
    if s ≤ least || (← peekSymbol ".") then return none
    else return some (← infixExpr r e s)) first

end Reader

end RowPolicy.Sql
