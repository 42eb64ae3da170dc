import RowPolicy.Policy
import RowPolicy.Sql.Blocks
import RowPolicy.Sql.Grammar

/-!
# Applying policies to texts

A policy is applied to a statement by its hooks: first for the select blocks in it, inner ones
first, then for the change of data or the outermost query, then for the whole statement. An enforcer
applies several policies in turn to each statement of a text and joins what is left with semicolons.
-/

namespace RowPolicy

open Sql

/-! ## One policy and one statement -/

namespace Policy

variable {m : Type → Type} [Monad m] [MonadExceptOf PolicyError m]

/-- An insertion whose rows fit its columns if those of `before` do. The first row that does not is
an error of the policy. -/
def checkWidths (p : Policy m) (before after : Insertion) : m Insertion :=
  match before.misfits, after.misfits with
  | [], (row, width) :: _ =>
    throw (.invariant p.name ("VALUES row " ++ toString row ++ " has " ++ toString width ++
      " values for " ++ toString after.columns.length ++ " columns"))
  | _, _ => pure after

/-- A statement as a policy leaves it, whether or not the policy is meant for its kind. -/
def run (p : Policy m) (c : Context) (s : Statement) : m Statement := do
  let blocks := p.select c
  let s ← match s with
    | .insert i => do
      let i ← i.mapBlocks blocks .empty
      pure (Statement.insert (← p.checkWidths i (← p.insert c i)))
    | .update u => do pure (.update (← p.update c (← u.mapBlocks blocks .empty)))
    | .delete d => do pure (.delete (← p.delete c (← d.mapBlocks blocks .empty)))
    | .select q => do pure (.select (← p.query c (← q.mapBlocks blocks .empty)))
    | .other text => pure (.other text)
  p.statement c s

/-- A statement as a policy leaves it. -/
def apply (p : Policy m) (c : Context) (s : Statement) : m Statement :=
  if p.appliesTo s.kind then p.run c s else pure s

end Policy

/-! ## Texts -/

/-- Texts with a semicolon between them, blank ones left out; nothing where all are blank. -/
def joinStatements (texts : List String) : Option String :=
  match texts.filter fun t => !Text.isBlankText t with
  | [] => none
  | ts => some (";".intercalate ts)

/-- A text as policies left it, and the kinds of the statements in it. -/
structure Enforced where
  sql : String
  kinds : List StatementKind
  deriving DecidableEq, Repr

/-- The text of printed statements, unless all of them are blank. -/
def assemble (statements : List (StatementKind × String)) : Option Enforced :=
  let kept := statements.filter fun (_, text) => !Text.isBlankText text
  (joinStatements (kept.map Prod.snd)).map fun sql => ⟨sql, kept.map Prod.fst⟩

/-! ## Enforcers -/

/-- The policies for the statements of a dialect, and the guard that lets them act. -/
structure Enforcer (m : Type → Type) [Monad m] where
  dialect : Dialect := .generic
  policies : List (Policy m) := []
  guard : Guard := Guard.allowAll

namespace Enforcer

variable {m : Type → Type} [Monad m] [MonadExceptOf PolicyError m]

/-- The names of the policies, in order. -/
def policyNames (e : Enforcer m) : List String :=
  e.policies.map (·.name)

/-- A statement as the policies leave it. -/
def process (e : Enforcer m) (c : Context) (s : Statement) : m Statement :=
  e.policies.foldlM (fun s p => p.apply c s) s

/-- The statements of a text. -/
def statements (e : Enforcer m) (sql : String) : m (List Statement) :=
  match parseStatements e.dialect sql with
  | .ok ss => pure ss
  | .error fault => throw (.malformed sql fault.message)

/-- A text as the policies leave it; nothing where the guard refuses or no statement is left. -/
def parse (e : Enforcer m) (sql : String) (c : Context) : m (Option Enforced) := do
  if e.guard c then
    let printed ← (← e.statements sql).mapM fun s => do
      let s ← e.process c s
      return (s.kind, s.render)
    return assemble printed
  else return none

/-- A text as the policies leave it, and the text itself where nothing else is left. -/
def enforce (e : Enforcer m) (sql : String) (c : Context) : m String := do
  return ((← e.parse sql c).map (·.sql)).getD sql

end Enforcer

end RowPolicy
