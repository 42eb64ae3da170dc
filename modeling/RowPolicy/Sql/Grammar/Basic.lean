import RowPolicy.Sql.Dialect
import RowPolicy.Sql.Keyword
import RowPolicy.Sql.Render
import RowPolicy.Sql.Token

/-!
# Reading tokens

A reader takes lexemes from the front of what is left of a text and yields a value or a fault.
`attempt` is the only way back: it restores the lexemes when a reader fails, unless the failure is
that the text nests too deeply, which no other reading of the same text would mend.

The rules of the grammar call one another through `Rules`, whose members are the places where a text
can nest without bound.

What no policy looks into is read straight into its printed form, so many readers yield a text. The
combinators at the end put such texts together: a text that is a clause of its own carries the blank
before it, and is empty where the clause is missing.
-/

namespace RowPolicy.Sql

/-- What a reader knows besides the lexemes: the dialect, whether it stands in a column definition,
and whether it stands in a `CONNECT BY`. -/
structure Setting where
  dialect : Dialect
  inColumn : Bool
  connecting : Bool

/-- A reader of lexemes. -/
abbrev Reader := ReaderT Setting (StateT (List Lexeme) (Except Fault))

/-- The rules that may call themselves: an expression whose operators bind tighter than a given
strength, an operand, a query, a statement, and a column with its type and options in printed
form. -/
structure Rules where
  expr : Nat → Reader Expr
  operand : Reader Expr
  query : Reader Query
  statement : Reader Statement
  column : Reader String

namespace Reader

/-! ## One token -/

/-- The next token, left in place. -/
def peek : Reader (Option Token) :=
  return (← get).head?.map Lexeme.token

/-- The token `n` places ahead, left in place. -/
def peekAt (n : Nat) : Reader (Option Token) :=
  return (← get)[n]?.map Lexeme.token

/-- The keyword that the token `n` places ahead spells, empty when it spells none. -/
def keywordAt (n : Nat) : Reader String :=
  return ((← peekAt n).map Token.keyword).getD ""

/-- Takes the next token. -/
def advance : Reader Unit :=
  modify List.tail

/-- Fails for want of `wanted`. -/
def expected {α : Type} (wanted : String) : Reader α := do
  throw (.unexpected wanted (← peek))

/-- Whether the next token is the symbol `s`. -/
def peekSymbol (s : String) : Reader Bool :=
  return (← peek) == some (.symbol s)

/-- Takes the symbol `s` if it is next. -/
def symbol? (s : String) : Reader Bool := do
  if ← peekSymbol s then
    advance
    return true
  else return false

/-- Takes the symbol `s`. -/
def symbol (s : String) : Reader Unit := do
  unless ← symbol? s do expected s

/-- Whether the next token is the keyword `k`. -/
def peekKeyword (k : String) : Reader Bool :=
  return (← keywordAt 0) == k

/-- Takes the keyword `k` if it is next. -/
def keyword? (k : String) : Reader Bool := do
  if ← peekKeyword k then
    advance
    return true
  else return false

/-- Takes the keyword `k`. -/
def keyword (k : String) : Reader Unit := do
  unless ← keyword? k do expected k

/-- Takes these keywords if they all come next, and nothing otherwise. -/
def keywords? (ks : List String) : Reader Bool := do
  let next := (← get).take ks.length
  if next.map (fun l => l.token.keyword) == ks then
    modify (List.drop ks.length)
    return true
  else return false

/-- Takes these keywords. -/
def keywords (ks : List String) : Reader Unit :=
  ks.forM keyword

/-- Takes the next keyword if it is one of these. -/
def keywordOf? (ks : List String) : Reader (Option String) := do
  let k ← keywordAt 0
  if k ≠ "" && ks.contains k then
    advance
    return some k
  else return none

/-- Takes one of these keywords. -/
def keywordOf (ks : List String) : Reader String := do
  match ← keywordOf? ks with
  | some k => return k
  | none => expected (" or ".intercalate ks)

/-- Whether everything is read. -/
def atEnd : Reader Bool :=
  return (← get).isEmpty

/-! ## Going back -/

/-- The value of a reader, or nothing and no lexeme taken where it fails. -/
def attempt {α : Type} (p : Reader α) : Reader (Option α) := fun setting lexemes =>
  match p setting lexemes with
  | .ok (a, rest) => .ok (some a, rest)
  | .error .tooDeep => .error .tooDeep
  | .error _ => .ok (none, lexemes)

/-- Whether a feature holds in the dialect of the text. -/
def feature (f : Dialect.Features → Bool) : Reader Bool :=
  return f (← read).dialect.features

/-- Whether the text is in one of these dialects. -/
def inDialect (ds : List Dialect) : Reader Bool :=
  return ds.contains (← read).dialect

/-! ## Repetition -/

/-- Repeats a step from `a` while it yields a value, `bound` times at most. -/
def iterate {α : Type} (step : α → Reader (Option α)) : (bound : Nat) → α → Reader α
  | 0, a => return a
  | n + 1, a => do
    match ← step a with
    | some a' => iterate step n a'
    | none => return a

/-- Repeats a step from `a` while it yields a value. Every step that does takes a lexeme, so their
number bounds the repetition. -/
def loop {α : Type} (step : α → Reader (Option α)) (a : α) : Reader α := do
  iterate step ((← get).length + 1) a

/-- One or more members with commas between them. -/
def commaList {α : Type} (p : Reader α) : Reader (List α) := do
  let first ← p
  let rest ← loop (fun acc => do
    if ← symbol? "," then return some ((← p) :: acc) else return none) []
  return first :: rest.reverse

/-- Members with commas between them, none when the symbol `close` comes at once. -/
def commaListUntil {α : Type} (close : String) (p : Reader α) : Reader (List α) := do
  if ← peekSymbol close then return [] else commaList p

/-- A reader between parentheses. -/
def parens {α : Type} (p : Reader α) : Reader α := do
  symbol "("
  let a ← p
  symbol ")"
  return a

/-- The value of a reader behind a keyword, if the keyword comes next. -/
def behind? {α : Type} (k : String) (p : Reader α) : Reader (Option α) := do
  if ← keyword? k then return some (← p) else return none

end Reader

/-! ## Phrases -/

/-- The pieces of several stretches with a comma and a blank between them. -/
def commaPieces : List (List Piece) → List Piece
  | [] => []
  | [p] => p
  | p :: ps => p ++ .text ", " :: commaPieces ps

/-- Stretches of a phrase with a blank between them. -/
def blankPieces : List (List Piece) → List Piece
  | [] => []
  | [p] => p
  | p :: ps => p ++ .text " " :: blankPieces ps

/-- Expressions with a comma and a blank between them. -/
def exprPieces (es : List Expr) : List Piece :=
  commaPieces (es.map fun e => [.expr e])

/-- The keyword and a blank, or nothing. -/
def optionalWord (b : Bool) (s : String) : String :=
  if b then s else ""

namespace Reader

/-! ## Printed text -/

/-- The text, or nothing for none. -/
def orEmpty (p : Reader (Option String)) : Reader String :=
  return (← p).getD ""

/-- The words, each behind the blank that sets it apart, if they come next. -/
def words? (ws : List String) : Reader String := do
  return optionalWord (← keywords? ws) (" " ++ " ".intercalate ws)

/-- One of these keywords behind a blank, if one comes next. -/
def wordOf? (ks : List String) : Reader String := do
  return ((← keywordOf? ks).map (" " ++ ·)).getD ""

/-- The first of several phrases that comes next, behind a blank, if one does. -/
def phraseOf? : List (List String) → Reader String
  | [] => return ""
  | ws :: rest => do
    if ← keywords? ws then return " " ++ " ".intercalate ws else phraseOf? rest

/-- The words and the text behind them, if the words come next. -/
def textBehind? (ws : List String) (p : Reader String) : Reader String := do
  if ← keywords? ws then return " " ++ " ".intercalate ws ++ " " ++ (← p) else return ""

/-- A text if the next token is the symbol `s`. -/
def textBefore? (s : String) (p : Reader String) : Reader String := do
  if ← peekSymbol s then p else return ""

/-- One or more members with commas between them, in printed form. -/
def commaText (p : Reader String) : Reader String :=
  return commaSeparated (← commaList p)

/-- One or more members between parentheses, in printed form. -/
def parensText (p : Reader String) : Reader String :=
  return "(" ++ (← parens (commaText p)) ++ ")"

/-- Members between parentheses, perhaps none, in printed form. -/
def parensTextUntil (p : Reader String) : Reader String :=
  return "(" ++ commaSeparated (← parens (commaListUntil ")" p)) ++ ")"

/-- What a reader yields, again and again, put together. -/
def concatText (p : Reader (Option String)) : Reader String :=
  loop (fun s => return (← p).map (s ++ ·)) ""

/-- An expression in printed form. -/
def exprText (r : Rules) : Reader String :=
  return (← r.expr 0).render

/-- A query in printed form. -/
def queryText (r : Rules) : Reader String :=
  return (← r.query).render

/-- A statement in printed form. -/
def statementText (r : Rules) : Reader String :=
  return (← r.statement).render

/-! ## Pieces -/

/-- An expression behind a keyword, with the keyword, or nothing. -/
def wordExpr? (r : Rules) (k : String) : Reader (List Piece) := do
  match ← behind? k (r.expr 0) with
  | some e => return [.text (" " ++ k ++ " "), .expr e]
  | none => return []

/-- Members behind some words, with the words, or nothing. -/
def listBehind? (words : List String) (p : Reader (List Piece)) : Reader (List Piece) := do
  if ← keywords? words then
    return .text (" " ++ " ".intercalate words ++ " ") :: commaPieces (← commaList p)
  else return []

/-- A text as pieces. -/
def textPieces (p : Reader String) : Reader (List Piece) :=
  return [.text (← p)]

end Reader

end RowPolicy.Sql
