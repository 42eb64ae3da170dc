import RowPolicy.Proofs.Failures.Pipelines
import RowPolicy.Proofs.Tables.Tenants

/-!
# Pages of changes

A query may consist of a change of data: behind a `WITH` or between parentheses an insertion, an
update, a deletion or a merge is the body of a query, and its statement is of the kind of the
queries. Pagination goes by that kind and by the clauses of the outermost query, so such a change
gets a page like any other query (`Pagination.apply_changes`). Where the change can be limited
itself, the page is read as its limit, and only some of the rows are changed.
-/

namespace RowPolicy

open Sql

/-! ## Changes -/

namespace Sql

/-- Whether the body of a query is a change of data, between any parentheses. -/
inductive Body.Changes : Body → Prop
  | insert (i : Insertion) : Changes (.insert i)
  | update (u : Update) : Changes (.update u)
  | delete (d : Deletion) : Changes (.delete d)
  | merge (pieces : List Piece) : Changes (.merge pieces)
  | query {q : Query} (h : q.body.Changes) : Changes (.query q)

/-- A change of data, and the same change of no more than `n` rows. An insertion is limited by the
query that it takes its rows from. -/
inductive Body.Limits (n : Expr) : Body → Body → Prop
  | update {u : Update} (hlimit : u.limit = none) :
    Limits n (.update u) (.update { u with limit := some n })
  | delete {d : Deletion} (hlimit : d.limit = none) :
    Limits n (.delete d) (.delete { d with limit := some n })
  | insert {i : Insertion} {q : Query} (hsource : i.source = some q) (hlimit : q.limit = none)
      (hquery : q.settings = [] ∧ q.fetch = none ∧ q.tail = "" ∧ q.chain = [])
      (hend : i.rowAlias = "" ∧ i.onConflict = [] ∧ i.returning = []) :
    Limits n (.insert i) (.insert { i with
      source := some { q with limit := some (.limitOffset (some n) none .none []) } })

theorem Body.Limits.render {n : Expr} {b b' : Body} (h : b.Limits n b') :
    b'.render = b.render ++ (" LIMIT " ++ n.render) := by
  cases h with
  | @update u hlimit =>
    obtain ⟨head, table, sourcesFirst, sources, assignments, selection, returning, limit⟩ := u
    obtain rfl : limit = none := hlimit
    simp only [Body.render, Update.render, renderOptional, String.append_empty]
  | @delete d hlimit =>
    obtain ⟨tables, fromKeyword, sources, usingSources, selection, returning, orderBy, limit⟩ := d
    obtain rfl : limit = none := hlimit
    simp only [Body.render, Deletion.render, renderOptional, String.append_empty]
  | @insert i q hsource hlimit hquery hend =>
    obtain ⟨head, table, naming, columns, partition, source, assignments, rowAlias, onConflict,
      returning⟩ := i
    obtain ⟨recursive, ctes, body, orderBy, limit, settings, fetch, tail, chain⟩ := q
    obtain rfl : source = _ := hsource
    obtain rfl : limit = none := hlimit
    obtain ⟨rfl, rfl, rfl, rfl⟩ := hquery
    obtain ⟨rfl, rfl, rfl⟩ := hend
    simp [Body.render, Insertion.render, Query.render, renderSource, renderLimit, renderFetch,
      renderPieces, LimitClause.render, renderOptional, OffsetUnit.render, String.append_assoc]

end Sql

/-! ## Pages -/

namespace Pagination

/-- The query with a page of its rows. -/
def paged (p : Pagination) (page : Page) (q : Query) : Query :=
  match p.style with
  | .limitOffset =>
    let offset := if page.offset = 0 then none else some (count page.offset)
    { q with limit := some (.limitOffset (some (count page.limit)) offset .none []) }
  | .offsetFetch =>
    { q with
      limit := some (.limitOffset none (some (count page.offset)) .rows [])
      fetch := some ⟨some (count page.limit), false, false⟩ }

/-- Whether a query is left without a page: it has cut its rows, or they are in no order. -/
def Spares (p : Pagination) (q : Query) : Prop :=
  (q.limit.isSome || q.fetch.isSome) = true ∨
    (p.style = .offsetFetch ∧ q.orderBy = [] ∧ p.strict = false)

/-- Whether a query without order is refused a page. -/
def Refuses (p : Pagination) (q : Query) : Prop :=
  (q.limit.isSome || q.fetch.isSome) = false ∧
    (p.style = .offsetFetch ∧ q.orderBy = [] ∧ p.strict = true)

/-- Numbers are written in decimal. -/
theorem ofDigitChars_toString (n : Nat) : Nat.ofDigitChars 10 (toString n).toList 0 = n := by
  rw [Nat.toString_eq_ofList_toDigits, String.toList_ofList, Nat.ofDigitChars_ten_toDigits]

theorem count_injective : Function.Injective count := by
  intro m n h
  have hdigits : toString m.toNat = toString n.toNat :=
    Literal.number.inj (Expr.literal.inj h)
  apply UInt64.toNat_inj.mp
  rw [← ofDigitChars_toString m.toNat, hdigits, ofDigitChars_toString]

/-- Different pages are written differently. -/
theorem paged_injective (p : Pagination) (q : Query) :
    Function.Injective fun page => p.paged page q := by
  intro page page' h
  obtain ⟨limit, offset⟩ := page
  obtain ⟨limit', offset'⟩ := page'
  unfold paged at h
  cases hstyle : p.style with
  | limitOffset =>
    simp only [hstyle, Query.mk.injEq, Option.some.injEq, LimitClause.limitOffset.injEq] at h
    obtain ⟨hlimit, hoffset⟩ : count limit = count limit' ∧ _ := ⟨h.2.2.2.2.1.1, h.2.2.2.2.1.2.1⟩
    obtain rfl := count_injective hlimit
    by_cases hzero : offset = 0 <;> by_cases hzero' : offset' = 0
    · rw [hzero, hzero']
    · simp [hzero, hzero'] at hoffset
    · simp [hzero, hzero'] at hoffset
    · rw [if_neg hzero, if_neg hzero', Option.some.injEq] at hoffset
      rw [count_injective hoffset]
  | offsetFetch =>
    simp only [hstyle, Query.mk.injEq, Option.some.injEq, LimitClause.limitOffset.injEq,
      Fetch.mk.injEq] at h
    obtain ⟨hoffset, hlimit⟩ : count offset = count offset' ∧ count limit = count limit' :=
      ⟨h.2.2.2.2.1.2.1, h.2.2.2.2.2.2.1.1⟩
    rw [count_injective hoffset, count_injective hlimit]

variable {p : Pagination} {c : Context} {q : Query}

theorem query_of_page_none (h : c.page = none) :
    p.query c q = (.ok q : Except PolicyError Query) := by
  unfold query
  rw [h]
  rfl

theorem query_of_spares (h : p.Spares q) : p.query c q = (.ok q : Except PolicyError Query) := by
  unfold query
  cases c.page with
  | none => rfl
  | some page =>
    rcases h with hcut | ⟨hstyle, horder, hstrict⟩
    · simp only [hcut, if_true]
      rfl
    · simp only [apply, hstyle, horder, hstrict, unsupported]
      split <;> rfl

theorem query_of_refuses {page : Page} (hpage : c.page = some page) (h : p.Refuses q) :
    p.query c q = (.error (.unsupported "OFFSET/FETCH without ORDER BY" q.render) :
      Except PolicyError Query) := by
  obtain ⟨hcut, hstyle, horder, hstrict⟩ := h
  unfold query
  simp only [hpage, hcut, apply, hstyle, horder, hstrict, unsupported]
  rfl

theorem query_of_page {page : Page} (hpage : c.page = some page) (hspares : ¬p.Spares q)
    (hrefuses : ¬p.Refuses q) :
    p.query c q = (.ok (p.paged page q) : Except PolicyError Query) := by
  have hcut : (q.limit.isSome || q.fetch.isSome) = false := by
    rw [← Bool.not_eq_true]
    exact fun h => hspares (.inl h)
  unfold query paged
  simp only [hpage, hcut]
  unfold apply
  cases hstyle : p.style with
  | limitOffset => rfl
  | offsetFetch =>
    have horder : q.orderBy ≠ [] := by
      intro horder
      cases hstrict : p.strict with
      | false => exact hspares (.inr ⟨hstyle, horder, hstrict⟩)
      | true => exact hrefuses ⟨hcut, hstyle, horder, hstrict⟩
    simp only [List.isEmpty_iff, horder]
    rfl

theorem body_paged (page : Page) : (p.paged page q).body = q.body := by
  unfold paged
  split <;> rfl

/-- A page is a limit in either style. -/
theorem limit_paged (page : Page) : (p.paged page q).limit.isSome = true := by
  unfold paged
  split <;> rfl

theorem paged_ne_self {page : Page} (hspares : ¬p.Spares q) : p.paged page q ≠ q := by
  intro h
  have hlimit : q.limit.isSome = true := by
    rw [← h]
    exact limit_paged page
  exact hspares (.inl (by rw [hlimit, Bool.true_or]))

theorem Refuses.not_spares (h : p.Refuses q) : ¬p.Spares q := by
  rintro (hcut | ⟨-, -, hstrict⟩)
  · rw [h.1] at hcut
    cases hcut
  · rw [h.2.2.2] at hstrict
    cases hstrict

/-- The page of a change that can be limited is printed as its limit. -/
theorem render_paged {page : Page} {b : Body} (hstyle : p.style = .limitOffset)
    (hoffset : page.offset = 0) (hspares : ¬p.Spares q) (horder : q.orderBy = [])
    (h : q.body.Limits (count page.limit) b) :
    (p.paged page q).render = { q with body := b }.render := by
  have hcut : q.limit = none := by
    rw [← Option.not_isSome_iff_eq_none]
    exact fun hlimit => hspares (.inl (by rw [hlimit, Bool.true_or]))
  obtain ⟨recursive, ctes, body, orderBy, limit, settings, fetch, tail, chain⟩ := q
  obtain rfl : orderBy = [] := horder
  obtain rfl : limit = none := hcut
  unfold paged
  simp only [hstyle, hoffset, if_true, Query.render, h.render, renderPieces, renderLimit,
    LimitClause.render, renderOptional, OffsetUnit.render, String.append_empty, String.append_assoc]

/-- **A change gets a page like any query.** If the body of a query is a change of data, pagination
leaves the statement as it is if and only if there is no page, or the outermost query has a limit
or fetch clause, or, with pages that are fetched, has no order; without order, strict pagination
refuses a page that would be fetched. In every other case the statement comes out with the page at
its end, so it changes other rows under another page, and what is printed for an insertion, update
or deletion without a limit of its own is that change limited to the rows of the page. -/
theorem apply_changes (hchanges : q.body.Changes) :
    ((p.policy : Policy (Except PolicyError)).apply c (.select q) = .ok (.select q) ↔
      c.page = none ∨ p.Spares q) ∧
    (∀ e, (p.policy : Policy (Except PolicyError)).apply c (.select q) = .error e ↔
      c.page ≠ none ∧ p.Refuses q ∧
        e = .unsupported "OFFSET/FETCH without ORDER BY" q.render) ∧
    ∀ page, c.page = some page → ¬p.Spares q → ¬p.Refuses q →
      (p.policy : Policy (Except PolicyError)).apply c (.select q) =
        .ok (.select (p.paged page q)) ∧
      (p.paged page q).body.Changes ∧
      (∀ page', p.paged page' q = p.paged page q → page' = page) ∧
      ∀ b, p.style = .limitOffset → page.offset = 0 → q.orderBy = [] →
        q.body.Limits (count page.limit) b →
          (p.paged page q).render = { q with body := b }.render := by
  rw [apply_select]
  cases hpage : c.page with
  | none =>
    rw [query_of_page_none hpage]
    refine ⟨⟨fun _ => .inl rfl, fun _ => rfl⟩, fun e => ⟨fun h => ?_, fun h => ?_⟩,
      fun page h => ?_⟩
    · cases h
    · exact absurd rfl h.1
    · cases h
  | some page =>
    by_cases hspares : p.Spares q
    · rw [query_of_spares hspares]
      refine ⟨⟨fun _ => .inr hspares, fun _ => rfl⟩, fun e => ⟨fun h => ?_, fun h => ?_⟩,
        fun _ _ h => absurd hspares h⟩
      · cases h
      · exact absurd hspares h.2.1.not_spares
    by_cases hrefuses : p.Refuses q
    · rw [query_of_refuses hpage hrefuses]
      refine ⟨⟨fun h => ?_, fun h => ?_⟩, fun e => ⟨fun h => ?_, fun h => ?_⟩,
        fun _ _ _ h => absurd hrefuses h⟩
      · cases h
      · exact absurd (h.resolve_left (by simp)) hspares
      · cases h
        exact ⟨by simp, hrefuses, rfl⟩
      · rw [h.2.2]
        rfl
    · rw [query_of_page hpage hspares hrefuses]
      refine ⟨⟨fun h => ?_, fun h => ?_⟩, fun e => ⟨fun h => ?_, fun h => ?_⟩,
        fun page' h _ _ => ?_⟩
      · exact absurd (Statement.select.inj (Except.ok.inj h)) (paged_ne_self hspares)
      · exact absurd (h.resolve_left (by simp)) hspares
      · cases h
      · exact absurd h.2.1 hrefuses
      · obtain rfl := Option.some.inj h
        refine ⟨rfl, ?_, fun page' h => paged_injective p q h, fun b hstyle hoffset horder hb =>
          render_paged hstyle hoffset hspares horder hb⟩
        rw [body_paged]
        exact hchanges

/-- A page of a deletion is the limit of the deletion. -/
theorem apply_changes_deleteBehindWith :
    let p : Pagination := { style := .limitOffset }
    let q : Query := .deleteBehindWith
    let page : Page := ⟨10, 0⟩
    let limited : Query := { q with
      body := .delete { Deletion.ofOrders with limit := some (count 10) } }
    q.body.Changes ∧
      (p.policy : Policy (Except PolicyError)).apply { Context.empty with page := some page }
        (.select q) = .ok (.select (p.paged page q)) ∧
      (p.paged page q).render = limited.render := by
  intro p q page limited
  have hchanges : q.body.Changes := .delete .ofOrders
  have hspares : ¬p.Spares q := by simp [p, q, Spares, Query.deleteBehindWith, Query.ofBody]
  have hrefuses : ¬p.Refuses q := by simp [p, Refuses]
  obtain ⟨houtcome, -, -, hlimited⟩ :=
    (apply_changes (p := p) (c := { Context.empty with page := some page }) hchanges).2.2
      page rfl hspares hrefuses
  exact ⟨hchanges, houtcome, hlimited _ rfl rfl rfl (.delete rfl)⟩

/-- A deletion of all orders becomes one of ten. -/
theorem not_unchanged_deleteBehindWith :
    let p : Pagination := { style := .limitOffset }
    let c : Context := { Context.empty with page := some ⟨10, 0⟩ }
    let s : Statement := .select .deleteBehindWith
    Query.deleteBehindWith.body.Changes ∧ s.render = "WITH c AS (SELECT 1) DELETE FROM orders" ∧
      (p.policy : Policy (Except PolicyError)).apply c s ≠ .ok s ∧
      ∃ s', (p.policy : Policy (Except PolicyError)).apply c s = .ok s' ∧
        s'.render = "WITH c AS (SELECT 1) DELETE FROM orders LIMIT 10" := by
  intro p c s
  have happly : (p.policy : Policy (Except PolicyError)).apply c s =
      .ok (.select (p.paged ⟨10, 0⟩ .deleteBehindWith)) := rfl
  refine ⟨.delete .ofOrders, by decide +kernel, fun h => ?_, _, happly, by decide +kernel⟩
  have hself := Statement.select.inj (Except.ok.inj (happly.symm.trans h))
  cases congrArg (fun q => q.limit.isSome) hself

end Pagination

end RowPolicy
