import Mathlib.Order.CompletePartialOrder
import Mathlib.Order.Interval.Set.Disjoint
import RowPolicy.Proofs.Pages.Changes

/-!
# Windows on the rows of a query

A `Cutter` is what an engine makes of the clauses that cut the rows of a query, and `Query.cut` the
rows that are left. Both ways of writing a page leave the same: the rows behind its offset, as many
as its limit. The pages of one size are windows side by side, from the first row on, and no offset
wraps (`Pagination.page_windows`).
-/

namespace RowPolicy

open Sql

namespace Sql

/-! ## Cut rows -/

/-- So many of the rows, or all of them. -/
def upTo {α : Type} (n : Option Nat) (rows : List α) : List α :=
  match n with
  | some n => rows.take n
  | none => rows

/-- What an engine makes of the clauses that cut the rows of a query, and of the operators that are
chained to it. The plain forms of the clauses are laid down. -/
structure Cutter (Row : Type) where
  /-- the number of rows that an expression stands for; an expression may stand for all of them -/
  count? : Expr → Option Nat
  top : List Piece → List Row → List Row
  limit : LimitClause → List Row → List Row
  fetch : Fetch → List Row → List Row
  chain : List Piece → List Row → List Row
  /-- numbers are read in decimal -/
  count?_number : ∀ digits : String, digits.toList ≠ [] → (∀ d ∈ digits.toList, d.isDigit = true) →
    count? (.literal (.number digits)) = some (Nat.ofDigitChars 10 digits.toList 0)
  top_nil : ∀ rows, top [] rows = rows
  top_number : ∀ (n : Nat) rows, top [.text (" TOP " ++ toString n), .text ""] rows = rows.take n
  limit_plain : ∀ n skip unit rows, limit (.limitOffset n skip unit []) rows =
    upTo (n.bind count?) (rows.drop ((skip.bind count?).getD 0))
  limit_comma : ∀ skip n rows, limit (.offsetComma skip n) rows =
    upTo (count? n) (rows.drop ((count? skip).getD 0))
  fetch_plain : ∀ e rows, fetch ⟨some e, false, false⟩ rows = upTo (count? e) rows
  fetch_one : ∀ rows, fetch ⟨none, false, false⟩ rows = rows.take 1
  fetch_le : ∀ f rows, (fetch f rows).length ≤ rows.length
  chain_nil : ∀ rows, chain [] rows = rows

/-- A clause that may not be there. -/
def cutBy {α β : Type} (f : α → List β → List β) (clause : Option α) (rows : List β) : List β :=
  match clause with
  | some c => f c rows
  | none => rows

variable {Row : Type} (E : Cutter Row)

mutual

/-- What is left of the rows of a body: those of a select block that its `TOP` lets through, those
of a query between parentheses that its clauses let through, and all rows of any other body. -/
def Body.cut : Body → List Row → List Row
  | .select s, rows => E.top s.top rows
  | .query q, rows => q.cut rows
  | .setOperation _ _ _, rows => rows
  | .values _ _ _, rows => rows
  | .insert _, rows => rows
  | .update _, rows => rows
  | .delete _, rows => rows
  | .merge _, rows => rows
  | .table _ _, rows => rows

/-- What is left of the rows of a query, in their order. -/
def Query.cut : Query → List Row → List Row
  | ⟨_, _, body, _, limit, _, fetch, _, chain⟩, rows =>
    E.chain chain (cutBy E.fetch fetch (cutBy E.limit limit (body.cut rows)))

end

theorem length_upTo_le {α : Type} (n : Option Nat) (rows : List α) :
    (upTo n rows).length ≤ rows.length := by
  cases n with
  | none => exact Nat.le_refl _
  | some n => exact List.length_take_le' n rows

/-- The number that an expression is written as in decimal. -/
def Expr.decimal? : Expr → Option Nat
  | .literal (.number digits) => some (Nat.ofDigitChars 10 digits.toList 0)
  | _ => none

/-- An engine to which numbers of rows are what is written in digits. -/
instance : Inhabited (Cutter Row) where
  default :=
    { count? := Expr.decimal?
      top := fun
        | .text s :: _, rows => rows.take (Nat.ofDigitChars 10 (s.toList.drop 5) 0)
        | _, rows => rows
      limit := fun
        | .limitOffset n skip _ _, rows =>
          upTo (n.bind Expr.decimal?) (rows.drop ((skip.bind Expr.decimal?).getD 0))
        | .offsetComma skip n, rows => upTo n.decimal? (rows.drop (skip.decimal?.getD 0))
      fetch := fun f rows => upTo (f.quantity.elim (some 1) Expr.decimal?) rows
      chain := fun _ rows => rows
      count?_number := fun _ _ _ => rfl
      top_nil := fun _ => rfl
      top_number := fun n rows => by
        have hdigits : (" TOP " ++ toString n).toList.drop 5 = (toString n).toList := by simp
        simp only
        rw [hdigits, Pagination.ofDigitChars_toString]
      limit_plain := fun _ _ _ _ => rfl
      limit_comma := fun _ _ _ => rfl
      fetch_plain := fun _ _ => rfl
      fetch_one := fun _ => rfl
      fetch_le := fun _ _ => length_upTo_le _ _
      chain_nil := fun _ => rfl }

theorem Cutter.count?_count (n : UInt64) : E.count? (Pagination.count n) = some n.toNat := by
  have hlist : (toString n.toNat).toList = Nat.toDigits 10 n.toNat := by
    rw [Nat.toString_eq_ofList_toDigits, String.toList_ofList]
  have hnumber := E.count?_number (toString n.toNat)
    (by rw [hlist]; exact Nat.toDigits_ne_nil)
    (fun d hd => Nat.isDigit_of_mem_toDigits (by decide) (by decide) (hlist ▸ hd))
  rwa [Pagination.ofDigitChars_toString] at hnumber

end Sql

/-! ## The window of a page -/

namespace Page

/-- The rows of a page. -/
def rows {α : Type} (page : Page) (rows : List α) : List α :=
  (rows.drop page.offset.toNat).take page.limit.toNat

/-- The numbers of the rows of a page. -/
def numbers (page : Page) : Set Nat :=
  { k | ∃ n, k ∈ page.rows (List.range n) }

theorem numbers_eq (page : Page) :
    page.numbers = Set.Ico page.offset.toNat (page.offset.toNat + page.limit.toNat) := by
  ext k
  simp only [numbers, rows, Set.mem_ofPred_eq, Set.mem_Ico, List.mem_take_iff_getElem,
    List.getElem_drop, List.getElem_range, List.length_drop, List.length_range]
  constructor
  · rintro ⟨n, i, hi, rfl⟩
    omega
  · rintro ⟨hle, hlt⟩
    exact ⟨k + 1, k - page.offset.toNat, by omega, by omega⟩

theorem offset_of (current size : UInt64) :
    (Page.of current size).offset.toNat =
      min ((current.toNat - 1) * size.toNat) (UInt64.size - 1) := by
  have hlt : min ((current.toNat - 1) * size.toNat) (UInt64.size - 1) < UInt64.size :=
    Nat.lt_of_le_of_lt (Nat.min_le_right _ _) (by decide)
  exact UInt64.toNat_ofNat_of_lt' hlt

end Page

namespace Pagination

variable {Row : Type} (E : Cutter Row) {p : Pagination} {q : Query}

/-- A query that is not cut gets the rows of the page, in either style. -/
theorem cut_paged (page : Page) (hlimit : q.limit = none) (hfetch : q.fetch = none)
    (rows : List Row) :
    (p.paged page q).cut E rows = E.chain q.chain (page.rows (q.body.cut E rows)) := by
  obtain ⟨recursive, ctes, body, orderBy, limit, settings, fetch, tail, chain⟩ := q
  obtain rfl : limit = none := hlimit
  obtain rfl : fetch = none := hfetch
  unfold paged
  cases hstyle : p.style with
  | limitOffset =>
    simp only [Query.cut, cutBy, E.limit_plain, Option.bind_some, E.count?_count, upTo, Page.rows]
    by_cases hzero : page.offset = 0
    · simp [hzero]
    · simp [hzero, E.count?_count]
  | offsetFetch =>
    simp only [Query.cut, cutBy, E.limit_plain, E.fetch_plain, Option.bind_some, Option.bind_none,
      E.count?_count, Option.getD_some, upTo, Page.rows]

end Pagination

/-! ## Pages of one size -/

namespace Page

variable {size n : UInt64}

/-- Where the rows of all pages can be numbered in 64 bits, none of their offsets is cut short. -/
theorem offset_of_le (h : n.toNat * size.toNat < UInt64.size) {k : UInt64} (hk : k ≤ n) :
    (Page.of k size).offset.toNat = (k.toNat - 1) * size.toNat := by
  have hle : (k.toNat - 1) * size.toNat ≤ n.toNat * size.toNat :=
    Nat.mul_le_mul_right _ (Nat.le_trans (Nat.sub_le _ _) (UInt64.le_iff_toNat_le.mp hk))
  rw [offset_of]
  omega

theorem numbers_of_le (h : n.toNat * size.toNat < UInt64.size) {k : UInt64} (hk : k ≤ n)
    (hone : 1 ≤ k) : (Page.of k size).numbers =
      Set.Ico ((k.toNat - 1) * size.toNat) (k.toNat * size.toNat) := by
  have hpos : 1 ≤ k.toNat := UInt64.le_iff_toNat_le.mp hone
  have hstop : (k.toNat - 1) * size.toNat + size.toNat = k.toNat * size.toNat := by
    rw [← Nat.succ_mul, Nat.succ_eq_add_one, Nat.sub_add_cancel hpos]
  rw [numbers_eq, offset_of_le h hk]
  exact congrArg (Set.Ico _) hstop

/-- A page begins where the one before it ends. -/
theorem offset_succ (h : n.toNat * size.toNat < UInt64.size) {k : UInt64} (hone : 1 ≤ k)
    (hk : k < n) :
    (Page.of (k + 1) size).offset.toNat = (Page.of k size).offset.toNat + size.toNat := by
  have hlt : k.toNat < n.toNat := UInt64.lt_iff_toNat_lt.mp hk
  have hpos : 1 ≤ k.toNat := UInt64.le_iff_toNat_le.mp hone
  have hsucc : (k + 1).toNat = k.toNat + 1 := by
    rw [UInt64.toNat_add, UInt64.toNat_one]
    exact Nat.mod_eq_of_lt (Nat.lt_of_le_of_lt hlt (UInt64.toNat_lt n))
  have hle : k + 1 ≤ n := UInt64.le_iff_toNat_le.mpr (by rw [hsucc]; exact hlt)
  rw [offset_of_le h hle, offset_of_le h (UInt64.le_of_lt hk), hsucc, Nat.add_sub_cancel,
    ← Nat.succ_mul, Nat.succ_eq_add_one, Nat.sub_add_cancel hpos]

theorem disjoint_numbers (h : n.toNat * size.toNat < UInt64.size) {j k : UInt64} (hone : 1 ≤ j)
    (hjk : j < k) (hk : k ≤ n) : Disjoint (Page.of j size).numbers (Page.of k size).numbers := by
  have hlt : j.toNat < k.toNat := UInt64.lt_iff_toNat_lt.mp hjk
  have hle : j.toNat * size.toNat ≤ (k.toNat - 1) * size.toNat :=
    Nat.mul_le_mul_right _ (Nat.le_sub_one_of_lt hlt)
  have hj : j ≤ n := UInt64.le_of_lt (UInt64.lt_of_lt_of_le hjk hk)
  have hk' : 1 ≤ k := UInt64.le_of_lt (UInt64.lt_of_le_of_lt hone hjk)
  rw [numbers_of_le h hj hone, numbers_of_le h hk hk', Set.disjoint_left]
  intro x hx hx'
  exact absurd (Nat.lt_of_lt_of_le hx.2 hle) (Nat.not_lt.mpr hx'.1)

/-- Every row is on a page. -/
theorem exists_mem_numbers_iff (h : n.toNat * size.toNat < UInt64.size) (x : Nat) :
    (∃ k, 1 ≤ k ∧ k ≤ n ∧ x ∈ (Page.of k size).numbers) ↔ x < n.toNat * size.toNat := by
  constructor
  · rintro ⟨k, hone, hk, hx⟩
    rw [numbers_of_le h hk hone] at hx
    exact Nat.lt_of_lt_of_le hx.2 (Nat.mul_le_mul_right _ (UInt64.le_iff_toNat_le.mp hk))
  · intro hx
    have hsize : 0 < size.toNat := Nat.pos_of_ne_zero fun hzero => by simp [hzero] at hx
    have hdiv : x / size.toNat + 1 ≤ n.toNat := (Nat.div_lt_iff_lt_mul hsize).mpr hx
    have hk : (UInt64.ofNat (x / size.toNat + 1)).toNat = x / size.toNat + 1 :=
      UInt64.toNat_ofNat_of_lt' (Nat.lt_of_le_of_lt hdiv (UInt64.toNat_lt n))
    have hone : 1 ≤ UInt64.ofNat (x / size.toNat + 1) :=
      UInt64.le_iff_toNat_le.mpr (by rw [hk]; exact Nat.le_add_left 1 _)
    have hle : UInt64.ofNat (x / size.toNat + 1) ≤ n :=
      UInt64.le_iff_toNat_le.mpr (by rw [hk]; exact hdiv)
    refine ⟨_, hone, hle, ?_⟩
    rw [numbers_of_le h hle hone, hk, Nat.add_sub_cancel]
    exact ⟨Nat.div_mul_le_self x size.toNat, (Nat.div_lt_iff_lt_mul hsize).mp (Nat.lt_succ_self _)⟩

end Page

namespace Pagination

/-- **A page is one window in either style, and pages of one size are windows side by side.** A
query in order that is not cut gets the rows behind the offset of the page, as many as its limit,
whether the page is written with `LIMIT` or is fetched. As long as the rows of pages of one size can
be numbered in 64 bits, each begins where the one before it ends, no two share a row, and together
they have all rows from the first on. An offset that does not fit in 64 bits is the greatest that
does. -/
theorem page_windows :
    (∀ (q : Query) (page : Page) (c : Context) (strict strict' : Bool), c.page = some page →
      q.orderBy ≠ [] → q.limit = none → q.fetch = none →
      ∃ q₁ q₂,
        (policy ⟨.limitOffset, strict⟩ : Policy (Except PolicyError)).apply c (.select q) =
          .ok (.select q₁) ∧
        (policy ⟨.offsetFetch, strict'⟩ : Policy (Except PolicyError)).apply c (.select q) =
          .ok (.select q₂) ∧
        ∀ {Row : Type} (E : Cutter Row) (rows : List Row),
          q₁.cut E rows = E.chain q.chain (page.rows (q.body.cut E rows)) ∧
          q₂.cut E rows = E.chain q.chain (page.rows (q.body.cut E rows))) ∧
    (∀ size n : UInt64, n.toNat * size.toNat < UInt64.size →
      (∀ k, 1 ≤ k → k < n →
        (Page.of (k + 1) size).offset.toNat = (Page.of k size).offset.toNat + size.toNat) ∧
      (∀ j k, 1 ≤ j → j < k → k ≤ n →
        Disjoint (Page.of j size).numbers (Page.of k size).numbers) ∧
      ∀ x, (∃ k, 1 ≤ k ∧ k ≤ n ∧ x ∈ (Page.of k size).numbers) ↔ x < n.toNat * size.toNat) ∧
    ∀ current size, (Page.of current size).limit = size ∧
      (Page.of current size).offset.toNat =
        min ((max current.toNat 1 - 1) * size.toNat) (UInt64.size - 1) := by
  refine ⟨fun q page c strict strict' hpage horder hlimit hfetch => ?_, fun size n h => ?_,
    fun current size => ⟨rfl, ?_⟩⟩
  · have hspares : ∀ p : Pagination, ¬p.Spares q := by
      simp [Spares, hlimit, hfetch, horder]
    have hrefuses : ∀ p : Pagination, ¬p.Refuses q := fun p hr => horder hr.2.2.1
    have happly : ∀ p : Pagination, (p.policy : Policy (Except PolicyError)).apply c (.select q) =
        .ok (.select (p.paged page q)) := fun p => by
      rw [apply_select, query_of_page hpage (hspares p) (hrefuses p)]
      rfl
    exact ⟨_, _, happly _, happly _, fun E rows =>
      ⟨cut_paged E page hlimit hfetch rows, cut_paged E page hlimit hfetch rows⟩⟩
  · exact ⟨fun k hone hk => Page.offset_succ h hone hk,
      fun j k hone hjk hk => Page.disjoint_numbers h hone hjk hk, Page.exists_mem_numbers_iff h⟩
  · rw [Page.offset_of]
    congr 2
    omega

end Pagination

/-! ## The third page of orders -/

/-- `SELECT * FROM orders ORDER BY id` -/
def Sql.Query.ordersById : Query :=
  { Query.ofBody (.select (.allOf "orders")) with
    orderBy := [.text " ORDER BY ", .expr (.column [.plain "id"])] }

/-- The third page of ten orders has those behind the first 20, in either style, and the fourth page
has others. -/
theorem Pagination.page_windows_thirdOfOrders :
    let q := Query.ordersById
    let c : Context := { Context.empty with page := some (.of 3 10) }
    q.orderBy ≠ [] ∧ q.limit = none ∧ q.fetch = none ∧
      (4 : UInt64).toNat * (10 : UInt64).toNat < UInt64.size ∧
      (∃ q₁ q₂,
        (policy ⟨.limitOffset, false⟩ : Policy (Except PolicyError)).apply c (.select q) =
          .ok (.select q₁) ∧
        (policy ⟨.offsetFetch, true⟩ : Policy (Except PolicyError)).apply c (.select q) =
          .ok (.select q₂) ∧
        q₁.render = "SELECT * FROM orders ORDER BY id LIMIT 10 OFFSET 20" ∧
        q₂.render = "SELECT * FROM orders ORDER BY id OFFSET 20 ROWS FETCH FIRST 10 ROWS ONLY" ∧
        q₁.cut (default : Cutter Nat) (List.range 25) = [20, 21, 22, 23, 24] ∧
        q₂.cut (default : Cutter Nat) (List.range 25) = [20, 21, 22, 23, 24]) ∧
      Disjoint (Page.of 3 10).numbers (Page.of 4 10).numbers := by
  intro q c
  have horder : q.orderBy ≠ [] := by simp [q, Query.ordersById]
  have hfits : (4 : UInt64).toNat * (10 : UInt64).toNat < UInt64.size := by decide
  obtain ⟨hstyles, hpages, -⟩ := page_windows
  obtain ⟨q₁, q₂, h₁, h₂, hcut⟩ := hstyles q (.of 3 10) c false true rfl horder rfl rfl
  have hrows : (default : Cutter Nat).chain q.chain
      ((Page.of 3 10).rows (q.body.cut default (List.range 25))) = [20, 21, 22, 23, 24] := by
    decide +kernel
  refine ⟨horder, rfl, rfl, hfits, ⟨q₁, q₂, h₁, h₂, ?_, ?_, (hcut _ _).1.trans hrows,
    (hcut _ _).2.trans hrows⟩, (hpages 10 4 hfits).2.1 3 4 (by decide) (by decide) (by decide)⟩
  · cases h₁
    decide +kernel
  · cases h₂
    decide +kernel

end RowPolicy
