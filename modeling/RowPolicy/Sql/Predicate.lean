import RowPolicy.Sql.Tree
import RowPolicy.Text.Fold
import RowPolicy.Value

/-!
# Predicates

The expressions that policies write, the way a predicate is joined to the one that is there, and
the question whether a predicate mentions a column.
-/

namespace RowPolicy.Sql

/-! ## Columns and values -/

/-- A reference to a column, behind a qualifier if there is one. Neither is quoted. -/
def Expr.ofColumn (qualifier : Option String) (column : String) : Expr :=
  .column (qualifier.toList.map Ident.plain ++ [.plain column])

/-- The constant that a value is. -/
def Literal.ofValue : Value → Literal
  | .null => .null
  | .boolean b => .boolean b
  | .integer n => .number (toString n)
  | .real x => .number x.plain
  | .text s => .text s

/-- The constant that a value is, as an expression. -/
def Expr.ofValue (v : Value) : Expr :=
  .literal (.ofValue v)

/-- The predicate that a column has a value. -/
def Expr.hasValue (column : Expr) (v : Value) : Expr :=
  if v.isNull then .isNull column else .binary column .eq (.ofValue v)

/-! ## Conjunction -/

/-- A disjunction between parentheses, and any other expression as it is. -/
def Expr.parenthesized : Expr → Expr
  | e@(.binary _ .or _) => .nested e
  | e@(.binary _ .xor _) => .nested e
  | e => e

/-- A predicate behind the one that is there, if there is one. -/
def Expr.conjoin (existing : Option Expr) (predicate : Expr) : Expr :=
  match existing with
  | some e => .binary e.parenthesized .and predicate.parenthesized
  | none => predicate.parenthesized

/-- Predicates one behind another. -/
def Expr.conjoinAll (existing : Option Expr) (predicates : List Expr) : Option Expr :=
  predicates.foldl (fun e p => some (.conjoin e p)) existing

/-! ## Mentions of a column -/

/-- Whether a dotted name ends in a name, letter case aside. -/
def Name.endsIn (n : Name) (s : String) : Bool :=
  match n.last? with
  | some part => Text.sameName part s
  | none => false

/-- Whether a path of identifiers is a reference to a column: bare, or behind the qualifier, or
behind any one where no qualifier is asked for. -/
def isReference (path : List Ident) (column : String) (qualifier : Option String) : Bool :=
  match path.reverse with
  | [] => false
  | [last] => Text.sameName last.value column
  | last :: owner :: _ =>
    Text.sameName last.value column &&
      match qualifier with
      | some q => Text.sameName owner.value q
      | none => true

mutual

/-- Whether an expression mentions a column outside the queries in it. -/
def Expr.mentions (column : String) (qualifier : Option String) : Expr → Bool
  | .column path => isReference path column qualifier
  | .literal _ => false
  | .binary l _ r => l.mentions column qualifier || r.mentions column qualifier
  | .isNull e => e.mentions column qualifier
  | .nested e => e.mentions column qualifier
  | .call _ rest => piecesMention column qualifier rest
  | .phrase ps => piecesMention column qualifier ps

/-- Whether a piece of an expression mentions a column. -/
def Piece.mentions (column : String) (qualifier : Option String) : Piece → Bool
  | .text _ => false
  | .expr e => e.mentions column qualifier
  | .query _ => false
  | .relation _ => false
  | .swapped first second =>
    piecesMention column qualifier first || piecesMention column qualifier second

/-- Whether a phrase mentions a column. -/
def piecesMention (column : String) (qualifier : Option String) : List Piece → Bool
  | [] => false
  | p :: ps => p.mentions column qualifier || piecesMention column qualifier ps

end

end RowPolicy.Sql
