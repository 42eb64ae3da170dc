import RowPolicy.Text.Class

/-!
# Dialects

The six dialects and what sets them apart: which characters make a name, which quotes enclose one,
and a record of the features that the lexer and the grammar ask for. The generic dialect takes
nearly everything; the others take what their engines take.
-/

namespace RowPolicy.Sql

/-- The dialect a text is read in. -/
inductive Dialect where
  | generic
  | mysql
  | postgresql
  | sqlite
  | mssql
  | ansi
  deriving DecidableEq, Repr, Inhabited

namespace Dialect

/-- The name of a dialect in a configuration. -/
def name : Dialect → String
  | .generic => "generic"
  | .mysql => "mysql"
  | .postgresql => "postgresql"
  | .sqlite => "sqlite"
  | .mssql => "mssql"
  | .ansi => "ansi"

/-- Every dialect. -/
def all : List Dialect :=
  [.generic, .mysql, .postgresql, .sqlite, .mssql, .ansi]

/-- The dialect of a name, letter case included. -/
def ofName? (s : String) : Option Dialect :=
  all.find? fun d => d.name == s

theorem ofName?_name (d : Dialect) : ofName? d.name = some d := by
  cases d <;> decide

/-! ## Names -/

/-- A character between two code points, both included. -/
def between (lo hi : Nat) (c : Char) : Bool :=
  lo ≤ c.toNat && c.toNat ≤ hi

/-- The characters that may begin an unquoted name. -/
def isNameStart (d : Dialect) (c : Char) : Bool :=
  match d with
  | .generic | .mssql => Text.isLetter c || c == '_' || c == '#' || c == '@'
  | .mysql => Text.isLetter c || c == '_' || c == '$' || c == '@' || 0x80 ≤ c.toNat
  | .postgresql => Text.isLetter c || c == '_' || 0x80 ≤ c.toNat
  | .sqlite => c.isAlpha || c == '_' || between 0x7f 0xffff c
  | .ansi => c.isAlpha

/-- The characters that may continue an unquoted name. -/
def isNamePart (d : Dialect) (c : Char) : Bool :=
  match d with
  | .generic | .mssql =>
    Text.isLetter c || c.isDigit || c == '@' || c == '$' || c == '#' || c == '_'
  | .mysql | .sqlite => d.isNameStart c || c.isDigit
  | .postgresql => Text.isLetter c || c.isDigit || c == '$' || c == '_' || 0x80 ≤ c.toNat
  | .ansi => c.isAlpha || c.isDigit || c == '_'

/-- The quotes that open an identifier. -/
def isQuote (d : Dialect) (c : Char) : Bool :=
  match d with
  | .generic | .ansi => c == '"' || c == '`'
  | .mysql => c == '`'
  | .postgresql => c == '"'
  | .sqlite => c == '`' || c == '"' || c == '['
  | .mssql => c == '"' || c == '['

/-- The characters of which operators without a meaning of their own are made. -/
def isOperatorPart (d : Dialect) (c : Char) : Bool :=
  d == .postgresql && "+-*/<>=~!@#%^&|`?".toList.contains c

/-! ## Features -/

/-- What a dialect takes beyond the common core. -/
structure Features where
  /-- a backslash in a string constant escapes the character after it -/
  backslashEscapes : Bool := false
  /-- the wildcards of patterns keep the backslash that escapes them -/
  wildcardEscapesKept : Bool := false
  /-- adjacent string constants are one constant -/
  adjacentStrings : Bool := false
  /-- `b'..'` -/
  byteStrings : Bool := false
  /-- `r'..'` -/
  rawStrings : Bool := false
  /-- `E'..'` -/
  escapeStrings : Bool := false
  /-- `U&'..'` -/
  unicodeStrings : Bool := false
  /-- a name may begin with digits -/
  digitNames : Bool := false
  /-- `1_000` is a number -/
  digitSeparators : Bool := false
  /-- two dashes begin a comment only before a blank -/
  dashCommentNeedsBlank : Bool := false
  /-- `#` begins a comment -/
  hashComments : Bool := false
  /-- comments nest -/
  nestedComments : Bool := false
  /-- `//` divides integers -/
  doubleSlash : Bool := false
  /-- operators on geometric values -/
  geometric : Bool := false
  /-- `|>` chains query operators -/
  pipes : Bool := false
  /-- `$` may stand inside a placeholder, and so no string stands between dollars -/
  dollarPlaceholders : Bool := false
  /-- `?` is an operator and no placeholder -/
  questionOperators : Bool := false
  /-- `true` and `false` are constants -/
  booleanLiterals : Bool := true
  /-- `a NOTNULL` -/
  notNullOperator : Bool := false
  /-- `a!` -/
  factorial : Bool := false
  /-- `a <<` and `a >>` -/
  shifts : Bool := false
  /-- `IN ()` -/
  emptyInList : Bool := false
  /-- an interval always names its unit -/
  intervalUnit : Bool := false
  /-- `CONVERT(type, value)` -/
  convertTypeFirst : Bool := false
  /-- `TRY_CONVERT` -/
  tryConvert : Bool := false
  /-- `MATCH (a) AGAINST ('x')` -/
  matchAgainst : Bool := false
  /-- `STRUCT(..)` -/
  structLiteral : Bool := false
  /-- `{'a': 1}` -/
  dictionary : Bool := false
  /-- `MAP {..}` -/
  mapLiteral : Bool := false
  /-- a field of `EXTRACT` may be any word -/
  extractAnyField : Bool := false
  /-- a field of `EXTRACT` may be a string -/
  extractQuotedField : Bool := false
  /-- `EXTRACT(f, e)` -/
  extractComma : Bool := false
  /-- `current_user` and its like are calls without parentheses -/
  sessionWords : Bool := false
  /-- `f(..) FILTER (WHERE ..)` -/
  filteredCalls : Bool := false
  /-- `f(x IGNORE NULLS)` -/
  nullTreatmentArgument : Bool := false
  /-- `f(a => 1)` -/
  arrowArguments : Bool := true
  /-- `f(a := 1)` -/
  assignArguments : Bool := false
  /-- `f(a: 1)` -/
  colonArguments : Bool := false
  /-- the name of an argument may be any expression -/
  expressionArgumentNames : Bool := false
  /-- `a = expr` names an item of a projection -/
  equalsAlias : Bool := false
  /-- `SELECT FROM t` -/
  emptyProjection : Bool := false
  /-- a comma may end a projection -/
  projectionTrailingComma : Bool := false
  /-- `FROM t SELECT a` -/
  fromFirst : Bool := false
  /-- `SELECT * EXCEPT (a)` -/
  wildcardExcept : Bool := false
  /-- `SELECT * EXCLUDE (a)` -/
  wildcardExclude : Bool := false
  /-- `SELECT * REPLACE (..)`, `SELECT * RENAME (..)`, `SELECT * ILIKE 'x'` -/
  wildcardEdits : Bool := false
  /-- `CONNECT BY` -/
  connectBy : Bool := false
  /-- `PREWHERE`, `SETTINGS`, `FINAL` and `FORMAT` -/
  columnStore : Bool := false
  /-- `GROUPING SETS`, `CUBE` and `ROLLUP` -/
  groupByExpr : Bool := false
  /-- `GROUP BY .. WITH ROLLUP` -/
  groupByWith : Bool := false
  /-- `WINDOW w AS v` -/
  windowAlias : Bool := false
  /-- `LIMIT a, b` -/
  limitComma : Bool := false
  /-- `CROSS JOIN t ON ..` -/
  crossJoinConstraint : Bool := false
  /-- `a STRAIGHT_JOIN b`, so that the word is no alias -/
  straightJoin : Bool := false
  /-- `a (+)` marks the optional side of a join -/
  outerJoinMark : Bool := false
  /-- `VALUES ..` as a relation without parentheses -/
  valuesRelation : Bool := false
  /-- a relation between parentheses -/
  parenthesisedRelation : Bool := false
  /-- `MATCH_RECOGNIZE` -/
  matchRecognize : Bool := false
  /-- `USE INDEX (..)` after a table -/
  indexHints : Bool := false
  /-- `FOR SYSTEM_TIME AS OF ..` -/
  tableVersions : Bool := false
  /-- `TABLESAMPLE` before the alias -/
  sampleBeforeAlias : Bool := false
  /-- `INSERT INTO t SET ..` -/
  insertSet : Bool := false
  /-- `INSERT INTO t AS a` -/
  insertAlias : Bool := false
  /-- `DELETE t WHERE ..` -/
  deleteWithoutFrom : Bool := false
  /-- `DELETE a FROM ..` -/
  deleteTables : Bool := true
  /-- `a..b` leaves out a part of a name -/
  doubleDotNames : Bool := false
  /-- `INT UNSIGNED` -/
  signedTypes : Bool := false
  /-- `INT[]` -/
  arrayTypes : Bool := false
  /-- `INTERVAL YEAR TO MONTH` as a type -/
  intervalTypes : Bool := false
  /-- `BEGIN DEFERRED` and its like -/
  beginModifier : Bool := false
  /-- `EXPLAIN (ANALYZE) ..` -/
  explainOptions : Bool := false
  /-- `SET (a, b) = (1, 2)` -/
  parenthesisedSet : Bool := false
  /-- `SET a = 1, b = 2` -/
  listedSet : Bool := false
  /-- `SET NAMES x` -/
  setNames : Bool := false
  /-- `SET x y` -/
  setWithoutEquals : Bool := false

/-- The features of each dialect. -/
def features : Dialect → Features
  | .generic =>
    { byteStrings := true, rawStrings := true, escapeStrings := true,
      unicodeStrings := true, nestedComments := true, doubleSlash := true, pipes := true,
      shifts := true, tryConvert := true, matchAgainst := true,
      structLiteral := true, dictionary := true, mapLiteral := true, extractAnyField := true,
      extractQuotedField := true, extractComma := true, sessionWords := true,
      filteredCalls := true, nullTreatmentArgument := true, assignArguments := true,
      emptyProjection := true, projectionTrailingComma := true, fromFirst := true,
      wildcardExcept := true, wildcardExclude := true, wildcardEdits := true, connectBy := true,
      columnStore := true, groupByExpr := true, groupByWith := true, windowAlias := true,
      limitComma := true, valuesRelation := true, parenthesisedRelation := true,
      matchRecognize := true, deleteWithoutFrom := true, deleteTables := false,
      signedTypes := true, arrayTypes := true, intervalTypes := true, beginModifier := true,
      explainOptions := true, parenthesisedSet := true, listedSet := true, setNames := true }
  | .mysql =>
    { backslashEscapes := true, wildcardEscapesKept := true, adjacentStrings := true,
      byteStrings := true, digitNames := true, dashCommentNeedsBlank := true,
      hashComments := true, intervalUnit := true, matchAgainst := true, limitComma := true,
      crossJoinConstraint := true, straightJoin := true, indexHints := true, insertSet := true,
      signedTypes := true, listedSet := true, setNames := true }
  | .postgresql =>
    { byteStrings := true, escapeStrings := true, unicodeStrings := true,
      digitSeparators := true, nestedComments := true, geometric := true,
      questionOperators := true, notNullOperator := true, factorial := true, shifts := true,
      extractAnyField := true, extractQuotedField := true, sessionWords := true,
      extractComma := true, filteredCalls := true, assignArguments := true,
      colonArguments := true, expressionArgumentNames := true, emptyProjection := true,
      groupByExpr := true, insertAlias := true, arrayTypes := true,
      intervalTypes := true, explainOptions := true, setNames := true }
  | .sqlite =>
    { dollarPlaceholders := true, notNullOperator := true, emptyInList := true,
      filteredCalls := true, limitComma := true, beginModifier := true }
  | .mssql =>
    { nestedComments := true, booleanLiterals := false, convertTypeFirst := true,
      tryConvert := true, arrowArguments := false, colonArguments := true,
      expressionArgumentNames := true, equalsAlias := true, connectBy := true,
      outerJoinMark := true, tableVersions := true, doubleDotNames := true, beginModifier := true,
      setWithoutEquals := true }
  | .ansi => { nestedComments := true, intervalUnit := true }

end Dialect

end RowPolicy.Sql
