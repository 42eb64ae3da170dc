import RowPolicy.Policy
import RowPolicy.Sql.Dialect

/-!
# Pagination

The outermost query of a select statement yields one page of its rows, unless it says itself which
of its rows it yields.
-/

namespace RowPolicy

open Sql

/-- How a page is written. -/
inductive PageStyle where
  /-- `LIMIT n OFFSET m` -/
  | limitOffset
  /-- `OFFSET m ROWS FETCH FIRST n ROWS ONLY` -/
  | offsetFetch
  deriving DecidableEq, Repr

namespace PageStyle

/-- The style of a dialect. -/
def ofDialect : Dialect → PageStyle
  | .mssql => offsetFetch
  | _ => limitOffset

/-- The name of a style in a configuration. -/
def name : PageStyle → String
  | limitOffset => "limit_offset"
  | offsetFetch => "offset_fetch"

end PageStyle

/-- How pages are applied. -/
structure Pagination where
  style : PageStyle
  strict : Bool := false
  deriving DecidableEq, Repr

namespace Pagination

variable {m : Type → Type} [Monad m] [MonadExceptOf PolicyError m]

/-- A number of rows as an expression. -/
def count (n : UInt64) : Expr :=
  .literal (.number (toString n.toNat))

/-- The query with a page of its rows. A page that is fetched needs rows in order. -/
def apply (p : Pagination) (page : Page) (q : Query) : m Query := do
  match p.style with
  | .limitOffset =>
    let offset := if page.offset = 0 then none else some (count page.offset)
    return { q with limit := some (.limitOffset (some (count page.limit)) offset .none []) }
  | .offsetFetch =>
    if q.orderBy.isEmpty then
      unsupported p.strict "OFFSET/FETCH without ORDER BY" q.render
      return q
    else
      return { q with
        limit := some (.limitOffset none (some (count page.offset)) .rows [])
        fetch := some ⟨some (count page.limit), false, false⟩ }

/-- The query with the page of the context, unless it cuts its rows itself. -/
def query (p : Pagination) (c : Context) (q : Query) : m Query :=
  match c.page with
  | none => pure q
  | some page => if q.limit.isSome || q.fetch.isSome then pure q else p.apply page q

/-- Pagination as a policy. -/
def policy (p : Pagination) : Policy m where
  name := "pagination"
  strict := p.strict
  appliesTo kind := kind == .select
  query := p.query

end Pagination

end RowPolicy
