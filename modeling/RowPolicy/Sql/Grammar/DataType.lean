import RowPolicy.Sql.Grammar.Constant
import RowPolicy.Sql.Grammar.Option

/-!
# Data types

A data type is kept in its printed form: the words of a built-in type in their own letter case, its
lengths between parentheses, and a name of any other type as written. `Reader.typeReading` also says
whether a type is one of the built-in ones, since only those may stand before a constant, and
whether a `>>` that ended it ends the type around it too.
-/

namespace RowPolicy.Sql

/-- What a data type is to a reader of expressions. -/
inductive TypeKind where
  | builtin
  | interval
  | named
  deriving DecidableEq, Repr

/-- A data type as read. -/
structure TypeReading where
  kind : TypeKind
  text : String
  /-- a `>>` at its end has closed the type around it as well -/
  closesOuter : Bool := false
  deriving DecidableEq, Repr

/-- A built-in type that takes nothing else. -/
def TypeReading.ofText (text : String) : TypeReading where
  kind := .builtin
  text := text

namespace Reader

/-! ## Numbers -/

/-- The number that decimal digits denote, if there are digits and nothing else. -/
def decimal? (ds : String) : Option Nat :=
  if !ds.isEmpty && ds.all Char.isDigit then
    some (ds.toList.foldl (fun n c => n * 10 + (c.toNat - '0'.toNat)) 0)
  else none

/-- A whole number below `bound`. -/
def numberBelow (bound : Nat) : Reader Nat := do
  match ← peek with
  | some (.number ds _) =>
    match decimal? ds with
    | some n =>
      if n < bound then
        advance
        return n
      else expected "a smaller number"
    | none => expected "a whole number"
  | _ => expected "a whole number"

/-- A whole number without sign, in its shortest form. -/
def wholeNumber : Reader String :=
  return toString (← numberBelow UInt64.size)

/-- A whole number with an optional sign, in its shortest form. -/
def signedNumber : Reader String := do
  let negative ← symbol? "-"
  unless negative do
    let _ ← symbol? "+"
  let n ← numberBelow (UInt64.size / 2)
  return (if negative && n ≠ 0 then "-" else "") ++ toString n

/-! ## Lengths -/

/-- A length between parentheses. -/
def precision : Reader String :=
  return "(" ++ (← parens wholeNumber) ++ ")"

/-- An optional length between parentheses. -/
def precision? : Reader String :=
  textBefore? "(" precision

/-- An optional precision with an optional scale. -/
def precisionScale? : Reader String := textBefore? "(" do
  symbol "("
  let p ← wholeNumber
  let s ← if ← symbol? "," then do pure ("," ++ (← signedNumber)) else pure ""
  symbol ")"
  return "(" ++ p ++ s ++ ")"

/-- An optional length that may be the greatest there is; `unit` reads what may follow a number. -/
def length? (unit : Reader String) : Reader String := textBefore? "(" do
  symbol "("
  let n ← if ← keyword? "MAX" then pure "MAX" else do pure ((← wholeNumber) ++ (← unit))
  symbol ")"
  return "(" ++ n ++ ")"

/-- An optional length of a text type, with its unit. -/
def textLength? : Reader String :=
  length? (wordOf? ["CHARACTERS", "OCTETS"])

/-- An optional zone of a time. -/
def timeZone? : Reader String := do
  match ← keywordOf? ["WITH", "WITHOUT"] with
  | some k =>
    keywords ["TIME", "ZONE"]
    return " " ++ k ++ " TIME ZONE"
  | none => return ""

/-- The suffix of an unsigned number type. -/
def unsigned? : Reader String :=
  words? ["UNSIGNED"]

/-- The suffix of an unsigned number type; one that only says the opposite is passed over. -/
def signedness? : Reader String := do
  let suffix ← unsigned?
  if suffix == "" && (← feature (·.signedTypes)) then
    let _ ← keyword? "SIGNED"
  return suffix

/-- String constants between parentheses. -/
def stringList : Reader String := parensText do
  match ← peek with
  | some (.string .plain s) => advance; return quoted '\'' s
  | _ => expected "a string"

/-- A member of an enumeration, with its number if it has one. -/
def enumMember : Reader String := do
  let n ← quotedString
  if ← symbol? "=" then return n ++ " = " ++ (← signedNumberText) else return n

/-- The fields of an interval type. -/
def intervalFields? : Reader String := do
  let upTo (field : String) (lasts : List String) : Reader String := do
    if ← keyword? "TO" then return " " ++ field ++ " TO " ++ (← keywordOf lasts)
    else return " " ++ field
  match ← keywordOf? ["YEAR", "DAY", "HOUR", "MINUTE", "MONTH", "SECOND"] with
  | none => return ""
  | some "YEAR" => upTo "YEAR" ["MONTH"]
  | some "DAY" => upTo "DAY" ["HOUR", "MINUTE", "SECOND"]
  | some "HOUR" => upTo "HOUR" ["MINUTE", "SECOND"]
  | some "MINUTE" => upTo "MINUTE" ["SECOND"]
  | some field => return " " ++ field

/-! ## Types of types -/

/-- The `>` that ends the members of a type; `closed` says that a `>>` has ended them already. The
answer is whether the type around it is ended as well. -/
def closeAngle (closed : Bool) : Reader Bool := do
  if closed then return false
  else if ← symbol? ">" then return false
  else
    symbol ">>"
    return true

/-- A field of a structure with its type, which `inner` reads, and whether a `>>` has ended the
structure. -/
def structField (r : Rules) (inner : Reader TypeReading) : Reader (String × Bool) := do
  let next ← peekAt 1
  let named := (← peek).any Token.isWord && (next.any Token.isWord || next == some (.symbol ":"))
  let field ←
    if named then do
      let n ← identText
      let _ ← symbol? ":"
      pure (n ++ " ")
    else pure ""
  let t ← inner
  let options := ((← optionsClause? r).map (" " ++ ·)).getD ""
  return (field ++ t.text ++ options, t.closesOuter)

/-- The fields of a structure between angle brackets, and whether a `>>` has ended the type around
it. -/
def structFields (r : Rules) (inner : Reader TypeReading) : Reader (String × Bool) := do
  if ← symbol? "<" then
    let (fields, closed) ← structField r inner
    let (fields, closed, _) ← loop (fun ((s, closed, done) : String × Bool × Bool) => do
      if closed || done then return none
      else if ← symbol? "," then
        let (f, closed) ← structField r inner
        return some (s ++ ", " ++ f, closed, false)
      else return none) (fields, closed, false)
    let closesOuter ← closeAngle closed
    return ("<" ++ fields ++ ">", closesOuter)
  else return ("", false)

/-- A column of a type with named members. -/
def unionMember (whole : Reader String) : Reader String := do
  let n ← identText
  return n ++ " " ++ (← whole)

/-! ## Types -/

/-- Types of one word that take nothing else and are written in capitals. -/
def plainTypes : List String :=
  ["BOOLEAN", "BOOL", "FLOAT4", "FLOAT64", "FLOAT8", "INT64", "HUGEINT", "UHUGEINT", "UTINYINT",
    "USMALLINT", "UBIGINT", "TINYBLOB", "MEDIUMBLOB", "LONGBLOB", "UUID", "DATE", "JSON", "JSONB",
    "REGCLASS", "TEXT", "TINYTEXT", "MEDIUMTEXT", "LONGTEXT", "BYTEA", "TRIGGER"]

/-- Types of one word that take nothing else and are written in mixed letter case. -/
def mixedTypes : List (String × String) :=
  [("FLOAT32", "Float32"), ("INT16", "Int16"), ("INT32", "Int32"), ("INT128", "Int128"),
    ("INT256", "Int256"), ("UINT8", "UInt8"), ("UINT16", "UInt16"), ("UINT32", "UInt32"),
    ("UINT64", "UInt64"), ("UINT128", "UInt128"), ("UINT256", "UInt256"), ("DATE32", "Date32")]

/-- Number types that take a display width and may be signed or unsigned. -/
def integerTypes : List String :=
  ["TINYINT", "SMALLINT", "MEDIUMINT", "INT", "INTEGER", "BIGINT"]

/-- The words of a type that begins with the keyword `k`, which is already read, and those after
it; nothing for a keyword that begins no such type. `whole` reads a type of its own. -/
def scalarType (whole : Reader String) (k : String) : Reader (Option String) := do
  if plainTypes.contains k then return some k
  else if integerTypes.contains k then return some (k ++ (← precision?) ++ (← signedness?))
  else
    match mixedTypes.lookup k with
    | some t => return some t
    | none =>
      match k with
      | "INT2" | "INT4" | "INT8" => return some (k ++ (← precision?) ++ (← unsigned?))
      | "FLOAT" | "DECIMAL" | "DEC" => return some (k ++ (← precisionScale?) ++ (← unsigned?))
      | "NUMERIC" | "BIGNUMERIC" | "BIGDECIMAL" => return some (k ++ (← precisionScale?))
      | "REAL" => return some (k ++ (← unsigned?))
      | "DOUBLE" =>
        if ← keyword? "PRECISION" then return some ("DOUBLE PRECISION" ++ (← unsigned?))
        else return some ("DOUBLE" ++ (← precisionScale?) ++ (← unsigned?))
      | "VARCHAR" | "NVARCHAR" => return some (k ++ (← textLength?))
      | "CHARACTER" | "CHAR" =>
        if ← keyword? "VARYING" then return some (k ++ " VARYING" ++ (← textLength?))
        else if ← keywords? ["LARGE", "OBJECT"] then
          return some (k ++ " LARGE OBJECT" ++ (← precision?))
        else return some (k ++ (← textLength?))
      | "CLOB" | "BLOB" | "BYTES" | "BINARY" | "DATETIME" | "STRING" | "VARBIT" | "TIMESTAMPTZ"
      | "TIMETZ" | "TIMESTAMP_NTZ" => return some (k ++ (← precision?))
      | "VARBINARY" => return some (k ++ (← length? (return "")))
      | "BIT" => return some ("BIT" ++ (← words? ["VARYING"]) ++ (← precision?))
      | "TIMESTAMP" | "TIME" =>
        let p ← precision?
        return some (k ++ p ++ (← timeZone?))
      | "DATETIME64" =>
        symbol "("
        let p ← wholeNumber
        let zone ← if ← symbol? "," then do pure (", " ++ (← bareString)) else pure ""
        symbol ")"
        return some ("DateTime64(" ++ p ++ zone ++ ")")
      | "ENUM" | "ENUM8" | "ENUM16" => return some (k ++ (← parensText enumMember))
      | "SET" => return some ("SET" ++ (← stringList))
      | "SIGNED" | "UNSIGNED" => return some (k ++ (← words? ["INTEGER"]))
      | "TSVECTOR" | "TSQUERY" =>
        if ← inDialect [.postgresql, .generic] then return some k else return none
      | "ANY" => if ← keyword? "TYPE" then return some "ANY TYPE" else return none
      | "NULLABLE" =>
        if ← inDialect [.generic] then return some ("Nullable(" ++ (← parens whole) ++ ")")
        else return none
      | "LOWCARDINALITY" =>
        if ← inDialect [.generic] then return some ("LowCardinality(" ++ (← parens whole) ++ ")")
        else return none
      | "FIXEDSTRING" => return some ("FixedString" ++ (← precision))
      | "UNION" =>
        if ← inDialect [.generic] then return some ("UNION" ++ (← parensText (unionMember whole)))
        else return none
      | "MAP" =>
        if ← inDialect [.generic] then
          symbol "("
          let key ← whole
          symbol ","
          let value ← whole
          symbol ")"
          return some ("Map(" ++ key ++ ", " ++ value ++ ")")
        else return none
      | _ => return none

/-- A type made of other types or of columns that begins with the keyword `k`, which is already
read; nothing for a keyword that begins no such type. `inner` reads a type inside another. -/
def compositeType (r : Rules) (inner : Reader TypeReading) (k : String) :
    Reader (Option TypeReading) := do
  match k with
  | "ARRAY" =>
    symbol "<"
    let t ← inner
    let closesOuter ← closeAngle t.closesOuter
    return some { TypeReading.ofText ("ARRAY<" ++ t.text ++ ">") with closesOuter }
  | "STRUCT" =>
    if ← inDialect [.generic] then
      let (fields, closesOuter) ← structFields r inner
      return some { TypeReading.ofText ("STRUCT" ++ fields) with closesOuter }
    else return none
  | "TUPLE" =>
    if ← inDialect [.generic] then
      let fields ← parensText do return (← structField r inner).1
      return some (.ofText ("Tuple" ++ fields))
    else return none
  | "NESTED" =>
    if ← inDialect [.generic] then return some (.ofText ("Nested" ++ (← parensText r.column)))
    else return none
  | "TABLE" => return some (.ofText ("TABLE" ++ (← textBefore? "(" (parensText r.column))))
  | "INTERVAL" =>
    if ← feature (·.intervalTypes) then
      let fields ← intervalFields?
      return some ⟨.interval, "INTERVAL" ++ fields ++ (← precision?), false⟩
    else return some ⟨.interval, "INTERVAL", false⟩
  | _ => return none

/-- A name of a type, with its modifiers. -/
def namedType : Reader String := do
  let n ← nameText
  if ← symbol? "(" then
    let ms ← loop (fun ms => do
      match ← peek with
      | some (.word v q k) => advance; return some (ms ++ [(Token.word v q k).spelling])
      | some (.number v _) => advance; return some (ms ++ [v])
      | some (.string .plain v) => advance; return some (ms ++ [v])
      | some (.symbol ",") => advance; return some ms
      | _ => return none) []
    symbol ")"
    return n ++ (if ms.isEmpty then "" else "(" ++ commaSeparated ms ++ ")")
  else return n

/-- The brackets of an array type. -/
def arraySuffix (t : TypeReading) : Reader TypeReading := do
  if ← feature (·.arrayTypes) then
    loop (fun t => do
      if ← symbol? "[" then
        let size ← attempt wholeNumber
        symbol "]"
        return some { t with kind := .builtin, text := t.text ++ "[" ++ size.getD "" ++ "]" }
      else return none) t
  else return t

/-- A data type as read, nested no deeper than `bound`. -/
def typeReadingWithin (r : Rules) : (bound : Nat) → Reader TypeReading
  | 0 => throw .tooDeep
  | n + 1 => do
    let inner := typeReadingWithin r n
    let whole : Reader String := do
      let t ← inner
      if t.closesOuter then expected "a single >" else return t.text
    let start ← get
    unless start.head?.any fun l => l.token.isWord do expected "a data type name"
    let k ← keywordAt 0
    advance
    match ← compositeType r inner k with
    | some t => arraySuffix t
    | none =>
      match ← scalarType whole k with
      | some t => arraySuffix (.ofText t)
      | none =>
        set start
        arraySuffix ⟨.named, ← namedType, false⟩

/-- A data type that may stand inside another. Each type inside another takes a lexeme. -/
def innerType (r : Rules) : Reader TypeReading := do
  typeReadingWithin r ((← get).length + 1)

/-- A data type as read. -/
def typeReading (r : Rules) : Reader TypeReading := do
  let t ← innerType r
  if t.closesOuter then expected "a type around this one" else return t

/-- A data type in printed form. -/
def dataType (r : Rules) : Reader String := do
  return (← typeReading r).text

end Reader

end RowPolicy.Sql
