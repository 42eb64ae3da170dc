import RowPolicy.Sql.Grammar.Basic

/-!
# Binding strengths

How tightly an operator binds its operands. A larger number binds tighter; zero ends an expression.
The order of `XOR` above comparison, and of comparison above `AND`, is what the two logical
operators of a policy's predicates rest on.
-/

namespace RowPolicy.Sql

/-- The classes of operators of one strength. -/
inductive Strength where
  | period
  | cast
  | timeZone
  | times
  | plus
  | xor
  | ampersand
  | caret
  | pipe
  | between
  | comparison
  | like
  | is
  | custom
  | not
  | and
  | or
  deriving DecidableEq, Repr

/-- The strength of a class of operators in a dialect. -/
def Dialect.strength (d : Dialect) (s : Strength) : Nat :=
  if d == .postgresql then
    match s with
    | .period => 200
    | .cast => 140
    | .timeZone => 110
    | .times => 90
    | .plus => 80
    | .xor => 75
    | .ampersand => 70
    | .caret => 100
    | .pipe => 70
    | .between => 60
    | .comparison => 50
    | .like => 60
    | .is => 40
    | .custom => 70
    | .not => 30
    | .and => 20
    | .or => 10
  else
    match s with
    | .period => 100
    | .cast => 50
    | .timeZone => 41
    | .times => 40
    | .plus => 30
    | .xor => 24
    | .ampersand => 23
    | .caret => 22
    | .pipe => 21
    | .between => 20
    | .comparison => 20
    | .like => 19
    | .is => 17
    | .custom => 16
    | .not => 15
    | .and => 10
    | .or => 5

/-- The keywords that compare a text with a pattern. -/
def patternWords : List String :=
  ["LIKE", "ILIKE", "RLIKE", "REGEXP", "MATCH", "SIMILAR", "MEMBER"]

/-- The class of an operator that the keyword `k` begins; the keywords `k1` and `k2` follow it. -/
def keywordStrength (notNull inColumn : Bool) (k k1 k2 : String) : Option Strength :=
  match k with
  | "OR" => some .or
  | "AND" => some .and
  | "XOR" => some .xor
  | "AT" => if k1 == "TIME" && k2 == "ZONE" then some .timeZone else none
  | "NOT" =>
    if k1 == "IN" || k1 == "BETWEEN" then some .between
    else if patternWords.contains k1 then some .like
    else if k1 == "NULL" && !inColumn then some .is
    else none
  | "NOTNULL" => if notNull then some .is else none
  | "IS" => some .is
  | "IN" | "BETWEEN" | "OVERLAPS" | "OPERATOR" => some .between
  | "DIV" => some .times
  | k => if patternWords.contains k then some .like else none

/-- The class of an operator that the symbol `s` is. -/
def symbolStrength (s : String) : Option Strength :=
  if s == "." then some .period
  else if [":=", "=", "<", "<=", "<>", "!=", ">", ">=", "==", "~", "~*", "!~", "!~*", "~~", "~~*",
      "!~~", "!~~*", "<=>"].contains s then some .comparison
  else if ["|", "?-", "##", "&&", "&<", "&>", "?-|", "&<|", "|&>", "<->", "<^", ">^", "?#", "?||",
      "?|", "~=", "@", "<<|", "|>>"].contains s then some .pipe
  else if ["^", "#", ">>", "<<"].contains s then some .caret
  else if s == "&" then some .ampersand
  else if ["+", "-"].contains s then some .plus
  else if ["*", "/", "//", "%", "||"].contains s then some .times
  else if ["::", "!", "[", "^@"].contains s then some .cast
  else if ["->", "->>", "#>", "#>>", "@>", "<@", "#-", "@?", "@@", "?", "?&"].contains s then
    some .custom
  else none

/-- The symbols whose strength differs in the dialect with operators of its own. -/
def customSymbols : List String :=
  ["->", "->>", "#>", "#>>", "@>", "<@", "#-", "@?", "@@", "?", "?&", "?|", "!", "&&", "^@", "||",
    "#", ">>", "<<"]

namespace Reader

/-- The strength of a class of operators in the dialect of the text. -/
def strength (s : Strength) : Reader Nat :=
  return (← read).dialect.strength s

/-- The strength of the operator that comes next, zero when none does. -/
def nextStrength : Reader Nat := do
  let setting ← read
  let d := setting.dialect
  match ← peek with
  | some (.word _ _ k) =>
    if d == .postgresql && k == "COLLATE" && !setting.inColumn then return 120
    else
      return ((keywordStrength d.features.notNullOperator setting.inColumn k (← keywordAt 1)
        (← keywordAt 2)).map d.strength).getD 0
  | some (.symbol s) =>
    if d == .postgresql && s == "[" then return 130
    else if d == .postgresql && customSymbols.contains s then return d.strength .custom
    else return ((symbolStrength s).map d.strength).getD 0
  | some (.operator _) => return d.strength .custom
  | _ => return 0

end Reader

end RowPolicy.Sql
