import RowPolicy.Proofs.Pages.Windows

/-!
# Queries that are bounded

A query is bounded if its clauses let no more than some number of rows through, however many its
body has. Pagination goes by the clauses of the outermost query, whatever they say: an `OFFSET`
counts as one and bounds nothing, and a `TOP`, which stands in the body, does not count. So what is
bounded stays as it is, and all else is given its page, if and only if the query is bounded exactly
where it has such a clause (`Pagination.apply_bounded`).
-/

namespace RowPolicy

open Sql

namespace Sql

variable {Row : Type} (E : Cutter Row)

/-! ## Bounds -/

/-- Whether no more than some number of rows are left of a query, however many its body has. -/
def Query.Bounded (q : Query) : Prop :=
  ∃ n, ∀ rows, (q.cut E rows).length ≤ n

/-- Whether a body lets no more than some number of rows through. -/
def Body.Bounded (b : Body) : Prop :=
  ∃ n, ∀ rows, (b.cut E rows).length ≤ n

/-- Whether the outermost query has a `LIMIT`, `OFFSET` or `FETCH`. -/
def Query.hasClause (q : Query) : Bool :=
  q.limit.isSome || q.fetch.isSome

/-- The number of rows that a clause admits. -/
def LimitClause.number? : LimitClause → Option Expr
  | .limitOffset n _ _ _ => n
  | .offsetComma _ n => some n

/-- The number of rows that a clause skips. -/
def LimitClause.skip? : LimitClause → Option Expr
  | .limitOffset _ skip _ _ => skip
  | .offsetComma skip _ => some skip

/-- Whether a clause counts all rows alike. -/
def LimitClause.IsPlain : LimitClause → Prop
  | .limitOffset _ _ _ groups => groups = []
  | .offsetComma _ _ => True

/-- Whether a query is cut by numbers of rows alone: not by group, by percentage or by ties, and
nothing is chained to it. -/
structure Query.IsPlain (q : Query) : Prop where
  limit : ∀ l ∈ q.limit, l.IsPlain
  fetch : ∀ f ∈ q.fetch, f.percent = false ∧ f.withTies = false
  chain : q.chain = []

/-- The number of rows that a query is limited to. -/
def Query.limitNumber? (q : Query) : Option Nat :=
  q.limit.bind fun l => l.number?.bind E.count?

/-- The number of rows that are fetched of a query. -/
def Query.fetchNumber? (q : Query) : Option Nat :=
  q.fetch.bind fun f => f.quantity.elim (some 1) E.count?

/-- The number of rows that a query skips. -/
def Query.skipped (q : Query) : Nat :=
  (q.limit.bind fun l => l.skip?.bind E.count?).getD 0

/-- Whether a query says how many rows it yields at most. -/
def Query.Limited (q : Query) : Prop :=
  (q.limitNumber? E).isSome ∨ (q.fetchNumber? E).isSome

variable {E} {q : Query}

theorem cut_of_isPlain (h : q.IsPlain) (rows : List Row) :
    q.cut E rows = upTo (q.fetchNumber? E) (upTo (q.limitNumber? E)
      ((q.body.cut E rows).drop (q.skipped E))) := by
  obtain ⟨hlimit, hfetch, hchain⟩ := h
  obtain ⟨recursive, ctes, body, orderBy, limit, settings, fetch, tail, chain⟩ := q
  obtain rfl : chain = [] := hchain
  have hlimit' : cutBy E.limit limit (body.cut E rows) =
      upTo (limit.bind fun l => l.number?.bind E.count?)
        ((body.cut E rows).drop ((limit.bind fun l => l.skip?.bind E.count?).getD 0)) := by
    cases limit with
    | none => rfl
    | some l =>
      cases l with
      | limitOffset n skip unit groups =>
        obtain rfl : groups = [] := hlimit _ rfl
        exact E.limit_plain n skip unit _
      | offsetComma skip n => exact E.limit_comma skip n _
  have hfetch' : ∀ rows, cutBy E.fetch fetch rows =
      upTo (fetch.bind fun f => f.quantity.elim (some 1) E.count?) rows := fun rows => by
    cases fetch with
    | none => rfl
    | some f =>
      obtain ⟨quantity, percent, withTies⟩ := f
      obtain ⟨hpercent, hties⟩ := hfetch _ rfl
      obtain rfl : percent = false := hpercent
      obtain rfl : withTies = false := hties
      cases quantity with
      | none => exact E.fetch_one rows
      | some e => exact E.fetch_plain e rows
  rw [Query.cut, E.chain_nil, hfetch', hlimit']
  rfl

/-- A query that is cut by numbers of rows is bounded by them, or by its body. -/
theorem bounded_iff (h : q.IsPlain) : q.Bounded E ↔ q.Limited E ∨ q.body.Bounded E := by
  simp only [Query.Bounded, cut_of_isPlain h, Query.Limited]
  cases hfetch : q.fetchNumber? E with
  | some n =>
    simp only [Option.isSome_some, or_true, true_or, iff_true]
    exact ⟨n, fun rows => List.length_take_le n _⟩
  | none =>
    cases hlimit : q.limitNumber? E with
    | some n =>
      simp only [Option.isSome_some, true_or, iff_true]
      exact ⟨n, fun rows => List.length_take_le n _⟩
    | none =>
      simp only [Option.isSome_none, Bool.false_eq_true, or_self, false_or, upTo,
        List.length_drop, Body.Bounded]
      constructor
      · rintro ⟨n, hn⟩
        exact ⟨n + q.skipped E, fun rows => by have := hn rows; omega⟩
      · rintro ⟨n, hn⟩
        exact ⟨n, fun rows => by have := hn rows; omega⟩

theorem clauses_of_hasClause_eq_false (h : q.hasClause = false) :
    q.limit = none ∧ q.fetch = none := by
  simpa [Query.hasClause] using h

/-- A query without clauses is not cut in other ways. -/
theorem isPlain_of_hasClause_eq_false (h : q.hasClause = false) (hchain : q.chain = []) :
    q.IsPlain := by
  obtain ⟨hlimit, hfetch⟩ := clauses_of_hasClause_eq_false h
  exact ⟨by simp [hlimit], by simp [hfetch], hchain⟩

theorem hasClause_of_limited (h : q.Limited E) : q.hasClause = true := by
  unfold Query.Limited Query.limitNumber? Query.fetchNumber? at h
  unfold Query.hasClause
  cases hlimit : q.limit with
  | some l => rfl
  | none =>
    cases hfetch : q.fetch with
    | some f => rfl
    | none => simp [hlimit, hfetch] at h

/-- A block with a `TOP` yields no more than so many rows. -/
theorem bounded_of_top {s : Select} {n : Nat}
    (h : s.top = [.text (" TOP " ++ toString n), .text ""]) : (Body.select s).Bounded E := by
  refine ⟨n, fun rows => ?_⟩
  rw [Body.cut, h, E.top_number]
  exact List.length_take_le n rows

/-- A block without a `TOP` lets all rows through. -/
theorem not_bounded_of_top_nil [Nonempty Row] {s : Select} (h : s.top = []) :
    ¬(Body.select s).Bounded E := by
  rintro ⟨n, hn⟩
  obtain ⟨row⟩ := ‹Nonempty Row›
  have hlength := hn (List.replicate (n + 1) row)
  rw [Body.cut, h, E.top_nil, List.length_replicate] at hlength
  omega

end Sql

/-! ## Pages -/

namespace Pagination

variable {p : Pagination} {c : Context} {page : Page} {q : Query}

/-- What pagination is to do: what is bounded stays as it is, all else is given the page, and in
either case the rows are bounded. -/
structure Bounds {Row : Type} (E : Cutter Row) (p : Pagination) (page : Page) (q q' : Query) :
    Prop where
  keeps : q.Bounded E → q' = q
  pages : ¬q.Bounded E → q' = p.paged page q
  bounded : q'.Bounded E

/-- The query behind pagination, where it succeeds and pages that are fetched are of rows in
order. -/
def left (p : Pagination) (page : Page) (q : Query) : Query :=
  if q.hasClause then q else p.paged page q

theorem apply_eq_left (hpage : c.page = some page)
    (horder : p.style = .offsetFetch → q.orderBy ≠ []) :
    (p.policy : Policy (Except PolicyError)).apply c (.select q) =
      .ok (.select (p.left page q)) := by
  rw [apply_select, left]
  cases hclause : q.hasClause with
  | true =>
    rw [query_of_spares (.inl hclause)]
    rfl
  | false =>
    have hspares : ¬p.Spares q := by
      rintro (h | ⟨hstyle, hnil, -⟩)
      · exact absurd (h.symm.trans hclause) (by simp)
      · exact horder hstyle hnil
    rw [query_of_page hpage hspares fun h => horder h.2.1 h.2.2.1]
    rfl

variable {Row : Type} {E : Cutter Row}

theorem bounded_paged (hchain : q.chain = []) (h : q.hasClause = false) :
    (p.paged page q).Bounded E := by
  obtain ⟨hlimit, hfetch⟩ := clauses_of_hasClause_eq_false h
  refine ⟨page.limit.toNat, fun rows => ?_⟩
  rw [cut_paged E page hlimit hfetch, hchain, E.chain_nil]
  exact List.length_take_le _ _

theorem paged_ne (h : q.hasClause = false) : p.paged page q ≠ q := by
  intro heq
  have hlimit : (p.paged page q).limit.isSome = true := limit_paged page
  rw [heq, (clauses_of_hasClause_eq_false h).1] at hlimit
  cases hlimit

/-- Pagination does what it is to do where the clauses of a query are what bounds it. -/
theorem bounds_left_iff (hchain : q.chain = []) :
    Bounds E p page q (p.left page q) ↔ (q.Bounded E ↔ q.hasClause = true) := by
  unfold left
  cases h : q.hasClause with
  | true =>
    simp only [if_true, iff_true]
    exact ⟨Bounds.bounded, fun hb => ⟨fun _ => rfl, fun hnot => absurd hb hnot, hb⟩⟩
  | false =>
    simp only [Bool.false_eq_true, if_false, iff_false]
    refine ⟨fun hb hbounded => paged_ne h (hb.keeps hbounded), fun hnot => ?_⟩
    exact ⟨fun hb => absurd hb hnot, fun _ => rfl, bounded_paged hchain h⟩

theorem left_eq (p : Pagination) (page : Page) (q : Query) :
    { p.left page q with limit := q.limit, fetch := q.fetch } = q := by
  cases q
  unfold left paged
  split
  · rfl
  · cases p.style <;> rfl

theorem apply_of_kind_ne {s : Statement} (h : s.kind ≠ .select) :
    (p.policy : Policy (Except PolicyError)).apply c s = .ok s := by
  have happlies : ¬(p.policy : Policy (Except PolicyError)).appliesTo s.kind = true :=
    fun hkind => h (eq_of_beq hkind)
  rw [Policy.apply, if_neg happlies]
  rfl

/-- **Pagination goes by the clauses of the outermost query.** Where there is a page, and what is to
be fetched is in order, pagination succeeds. It changes no clause but the limit and the fetch of the
outermost query: as they are, if there is one of them, else they are the page, and the rows are
those of the page. What is bounded is left as it is, all else gets the page, and the rows are
bounded, if and only if the query is bounded exactly where it has one of these clauses: in a query
that is cut by numbers of rows, where its clauses admit a number of rows, or its body does, exactly
if it has one of them. -/
theorem apply_bounded (E : Cutter Row) (hpage : c.page = some page)
    (horder : p.style = .offsetFetch → q.orderBy ≠ []) :
    (∀ s, s.kind ≠ .select → (p.policy : Policy (Except PolicyError)).apply c s = .ok s) ∧
    ∃ q', (p.policy : Policy (Except PolicyError)).apply c (.select q) = .ok (.select q') ∧
      { q' with limit := q.limit, fetch := q.fetch } = q ∧
      q' = (if q.hasClause then q else p.paged page q) ∧
      (q.hasClause = false → ∀ rows,
        q'.cut E rows = E.chain q.chain (page.rows (q.body.cut E rows))) ∧
      (q.chain = [] → (Bounds E p page q q' ↔ (q.Bounded E ↔ q.hasClause = true))) ∧
      (q.IsPlain → (Bounds E p page q q' ↔
        (q.Limited E ∨ q.body.Bounded E ↔ q.hasClause = true))) := by
  refine ⟨fun s => apply_of_kind_ne, p.left page q, apply_eq_left hpage horder, left_eq p page q,
    rfl, fun h rows => ?_, bounds_left_iff, fun h => ?_⟩
  · obtain ⟨hlimit, hfetch⟩ := clauses_of_hasClause_eq_false h
    rw [left, h, ← cut_paged E page hlimit hfetch rows]
    rfl
  · rw [bounds_left_iff h.chain, bounded_iff h]

end Pagination

/-! ## Orders of one block -/

/-- `SELECT TOP 5 * FROM orders` -/
def Sql.Query.topOfOrders : Query :=
  .ofBody (.select { Select.allOf "orders" with top := [.text " TOP 5", .text ""] })

/-- `SELECT * FROM orders OFFSET 5` -/
def Sql.Query.restOfOrders : Query :=
  { Query.ofBody (.select (.allOf "orders")) with
    limit := some (.limitOffset none (some (.literal (.number "5"))) .none []) }

namespace Pagination

/-- Orders without a limit get one of ten. -/
theorem apply_bounded_ordersById :
    let p : Pagination := { style := .offsetFetch }
    let c : Context := { Context.empty with page := some ⟨10, 0⟩ }
    let q := Query.ordersById
    c.page = some ⟨10, 0⟩ ∧ (p.style = .offsetFetch → q.orderBy ≠ []) ∧
      ∃ q', (p.policy : Policy (Except PolicyError)).apply c (.select q) = .ok (.select q') ∧
        q'.render = "SELECT * FROM orders ORDER BY id OFFSET 0 ROWS FETCH FIRST 10 ROWS ONLY" ∧
        Bounds (default : Cutter Nat) p ⟨10, 0⟩ q q' := by
  intro p c q
  have horder : p.style = .offsetFetch → q.orderBy ≠ [] := by simp [q, Query.ordersById]
  obtain ⟨-, q', happly, -, hleft, -, hbounds, -⟩ :=
    apply_bounded (p := p) (c := c) (default : Cutter Nat) rfl horder
  have hplain : q.IsPlain := isPlain_of_hasClause_eq_false rfl rfl
  have hnot : ¬q.Bounded (default : Cutter Nat) := by
    rw [bounded_iff hplain]
    rintro (hlimited | hbody)
    · exact absurd (hasClause_of_limited hlimited) (by decide)
    · exact not_bounded_of_top_nil rfl hbody
  refine ⟨rfl, horder, q', happly, ?_, (hbounds rfl).mpr (iff_of_false hnot (by decide))⟩
  rw [hleft]
  decide +kernel

/-- The first five orders get a page although they are bounded, and those behind the first five are
left without one although they are not. -/
theorem not_bounds_topOfOrders :
    let p : Pagination := { style := .limitOffset }
    let c : Context := { Context.empty with page := some ⟨10, 0⟩ }
    (Query.topOfOrders.render = "SELECT TOP 5 * FROM orders" ∧
      (∀ {Row : Type} (E : Cutter Row), Query.topOfOrders.Bounded E) ∧
      ∃ q', (p.policy : Policy (Except PolicyError)).apply c (.select .topOfOrders) =
          .ok (.select q') ∧
        q'.render = "SELECT TOP 5 * FROM orders LIMIT 10" ∧ q' ≠ .topOfOrders) ∧
    Query.restOfOrders.render = "SELECT * FROM orders OFFSET 5" ∧
      (∀ {Row : Type} [Nonempty Row] (E : Cutter Row), ¬Query.restOfOrders.Bounded E) ∧
      (p.policy : Policy (Except PolicyError)).apply c (.select .restOfOrders) =
        .ok (.select .restOfOrders) := by
  intro p c
  have htop : Query.topOfOrders.IsPlain := isPlain_of_hasClause_eq_false rfl rfl
  have hrest : Query.restOfOrders.IsPlain :=
    ⟨by simp [Query.restOfOrders, LimitClause.IsPlain],
      by simp [Query.restOfOrders, Query.ofBody], rfl⟩
  have hbounded {Row : Type} (E : Cutter Row) : Query.topOfOrders.Bounded E :=
    (bounded_iff htop).mpr (.inr (bounded_of_top (n := 5) rfl))
  have hpaged : p.left ⟨10, 0⟩ .topOfOrders = p.paged ⟨10, 0⟩ .topOfOrders := rfl
  have happly (q : Query) : (p.policy : Policy (Except PolicyError)).apply c (.select q) =
      .ok (.select (p.left ⟨10, 0⟩ q)) := apply_eq_left rfl fun h => by cases h
  refine ⟨⟨by decide +kernel, hbounded, p.left ⟨10, 0⟩ .topOfOrders, happly _,
    by decide +kernel, ?_⟩, by decide +kernel, fun E h => ?_, happly _⟩
  · rw [hpaged]
    exact paged_ne rfl
  · rcases (bounded_iff hrest).mp h with (hlimit | hfetch) | hbody
    · exact absurd hlimit Bool.false_ne_true
    · exact absurd hfetch Bool.false_ne_true
    · exact not_bounded_of_top_nil rfl hbody

end Pagination

end RowPolicy
