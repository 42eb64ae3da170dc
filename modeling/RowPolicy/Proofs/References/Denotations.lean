import RowPolicy.Metadata
import RowPolicy.Proofs.Blocks.Calls
import RowPolicy.Proofs.Lexing.Readings
import RowPolicy.Proofs.References.Owners

/-!
# What an injected column refers to

The predicate for a table names its column behind the name of the table, or alone if the block has
one relation. The name is written without its quotes, so a name that came with quotes is another
name, or none, when the statement is read again. `RowBlock.denotes_column_iff` says for which tables
the printed reference denotes a column of the table and of no other relation of the block, for every
engine that compares quoted names exactly and others up to letter case.
-/

namespace RowPolicy.Sql

/-! ## Names in engines -/

/-- Whether a text is not empty and has no period and no quotes. -/
def IsBare (v : String) : Prop :=
  v ≠ "" ∧ ∀ c ∈ v.toList, c ≠ '.' ∧ isNameQuote c = false

/-- How an engine reads names: when two are the same, and which texts are names without quotes. How
it compares a quoted name with one that is not is left open. -/
structure Naming where
  same : Ident → Ident → Bool
  regular : String → Bool
  same_plain : ∀ v w, same (.plain v) (.plain w) = Text.sameName v w
  same_quoted : ∀ v w q r, same ⟨v, some q⟩ ⟨w, some r⟩ = (v == w)
  same_comm : ∀ x y, same x y = same y x
  isBare : ∀ v, regular v = true → IsBare v

namespace Naming

variable (N : Naming)

/-- Whether a name can be written. -/
def Written (x : Ident) : Prop :=
  match x.quote with
  | none => N.regular x.value = true
  | some q => isNameQuote q = true

/-- Whether a text is written by these names with periods between them. -/
structure Reads (text : String) (path : Name) : Prop where
  render : Name.render path = text
  written : ∀ x ∈ path, N.Written x

/-- Whether a reference at a place of a block is one to a column of a relation. A bare column may be
one of any relation; behind a name, it is one of a relation of that name that is in the same named
nested joins as the place. -/
def Finds (place : List Ident) (path : Name) (s : Seat) : Prop :=
  match path with
  | [_] => s.relation.isLeaf = true
  | [q, _] => s.nests = place ∧ ∃ x, s.name? = some x ∧ N.same x q = true
  | _ => False

/-- Whether a text at a place of a block is a reference to a column of the relation with number `k`
and of no other relation of the block. -/
structure Denotes (b : RowBlock) (place : List Ident) (text : String) (k : Nat) : Prop where
  reads : ∃ path, N.Reads text path
  finds : ∀ path, N.Reads text path → ∀ i s, b.seats[i]? = some s →
    (N.Finds place path s ↔ i = k)

/-- Whether the text of a name, without its quotes, is a name of the relation with number `k` and of
no other that can be named at a place of a block. -/
structure Calls (b : RowBlock) (place : List Ident) (x : Ident) (k : Nat) : Prop where
  regular : N.regular x.value = true
  same : N.same x (.plain x.value) = true
  apart : ∀ i s, b.seats[i]? = some s → i ≠ k → s.nests = place →
    ∀ y, s.name? = some y → N.same y (.plain x.value) = false

end Naming

/-- Whether no two relations of a block have the same name. -/
def RowBlock.Distinct (N : Naming) (b : RowBlock) : Prop :=
  b.seats.Pairwise fun s s' => ∀ x ∈ s.name?, ∀ y ∈ s'.name?, N.same x y = false

/-! ## Printed names -/

theorem length_le_quoteContent (q : Char) (escaped : Bool) (cs : List Char) :
    cs.length ≤ (quoteContent q escaped cs).length := by
  fun_induction quoteContent q escaped cs
  all_goals
    simp_all
    try omega

/-- A quoted name is printed between quotes. -/
theorem Ident.exists_render_quoted {x : Ident} {q : Char} (hx : x.quote = some q)
    (hq : isNameQuote q = true) : ∃ o inner c, x.render.toList = o :: inner ++ [c] ∧
      isNameQuote o = true ∧ isNameQuote c = true ∧ x.value.toList.length ≤ inner.length := by
  unfold Ident.render
  rw [hx]
  split
  · rename_i h
    cases h
  · exact ⟨'[', x.value.toList, ']', by simp, rfl, rfl, Nat.le_refl _⟩
  · rename_i r _ h
    cases h
    refine ⟨q, quoteContent q false x.value.toList, q, ?_, hq, hq, length_le_quoteContent _ _ _⟩
    simp [quoted]

theorem Name.render_concat {n : Name} (hn : n ≠ []) (x : Ident) :
    Name.render (n ++ [x]) = Name.render n ++ "." ++ x.render := by
  rw [Name.render, List.map_append, String.intercalate_append_of_ne_nil (by simpa using hn) (by simp)]
  simp [Name.render]

namespace Naming

variable {N : Naming} {x : Ident}

/-- A name that can be written is a bare text, or longer than itself between quotes. -/
theorem Written.cases (h : N.Written x) :
    (x = .plain x.value ∧ N.regular x.value = true) ∨
      x.quote.isSome = true ∧ ∃ o inner c, x.render.toList = o :: inner ++ [c] ∧
        isNameQuote o = true ∧ isNameQuote c = true ∧
        x.value.toList.length ≤ inner.length := by
  obtain ⟨v, quote⟩ := x
  cases quote with
  | none => exact .inl ⟨rfl, h⟩
  | some q => exact .inr ⟨rfl, Ident.exists_render_quoted rfl h⟩

/-- A name whose text is bare has no quotes. -/
theorem Written.eq_plain {v : String} (h : N.Written x) (hv : IsBare v) (hrender : x.render = v) :
    x = .plain v := by
  rcases h.cases with ⟨hx, -⟩ | ⟨-, o, inner, c, hlist, ho, -⟩
  · rw [hx] at hrender ⊢
    exact congrArg Ident.plain hrender
  · rw [hrender] at hlist
    have hbare := (hv.2 o (by simp [hlist])).2
    rw [ho] at hbare
    cases hbare

/-- No name ends in a bare text behind a period. -/
theorem Written.not_period {v : String} (h : N.Written x) (hv : IsBare v) (l : List Char) :
    x.render.toList ≠ l ++ '.' :: v.toList := by
  intro heq
  rcases h.cases with ⟨hx, hregular⟩ | ⟨-, o, inner, c, hlist, -, hc, -⟩
  · rw [hx] at heq
    have hlist : x.value.toList = l ++ '.' :: v.toList := heq
    exact ((N.isBare _ hregular).2 '.' (by simp [hlist])).1 rfl
  · -- the last character is a quote, and one of the bare text
    have hne : v.toList ≠ [] := by simpa using hv.1
    have hlast : (o :: inner ++ [c]).getLast? = (l ++ '.' :: v.toList).getLast? := by
      rw [← hlist, heq]
    have hmem : c ∈ v.toList := by
      rw [List.getLast?_append_of_ne_nil _ (by simp), List.getLast?_append_of_ne_nil _ (by simp),
        List.getLast?_cons_of_ne_nil hne] at hlast
      exact List.mem_of_getLast? (by simpa using hlast.symm)
    have hbare := (hv.2 c hmem).2
    rw [hc] at hbare
    cases hbare

/-! ## Readings -/

theorem Written.plain {v : String} (h : N.regular v = true) : N.Written (.plain v) :=
  h

/-- A bare text is read as one name. -/
theorem Reads.eq_singleton {v : String} {path : Name} (h : N.Reads v path) (hv : IsBare v) :
    path = [.plain v] := by
  obtain ⟨hrender, hwritten⟩ := h
  match path with
  | [] => exact absurd hrender.symm hv.1
  | [x] =>
    rw [(hwritten x (by simp)).eq_plain hv (by simpa [Name.render] using hrender)]
  | x :: y :: n =>
    rw [Name.render_cons_cons] at hrender
    have hmem : '.' ∈ v.toList := by simp [← hrender]
    exact absurd rfl (hv.2 '.' hmem).1

/-- A text behind a period is the last name of what is read, if it is bare. -/
theorem Reads.exists_front {q c : String} {path : Name} (h : N.Reads (q ++ "." ++ c) path)
    (hc : IsBare c) : ∃ front, path = front ++ [.plain c] ∧ N.Reads q front ∧ front ≠ [] := by
  obtain ⟨hrender, hwritten⟩ := h
  rcases List.eq_nil_or_concat path with rfl | ⟨front, last, rfl⟩
  · have hempty := congrArg String.toList hrender
    simp [Name.render] at hempty
  rw [List.concat_eq_append] at hrender hwritten ⊢
  have hlast := hwritten last (by simp)
  have hfront : front ≠ [] := by
    rintro rfl
    refine hlast.not_period hc q.toList ?_
    simpa [Name.render] using congrArg String.toList hrender
  rw [Name.render_concat hfront] at hrender
  have hlist : (Name.render front).toList ++ '.' :: last.render.toList =
      q.toList ++ '.' :: c.toList := by
    simpa using congrArg String.toList hrender
  have hsplit : (Name.render front).toList = q.toList ∧ last.render.toList = c.toList := by
    -- the last name begins at the period, or before it, or behind it in the bare text
    rcases List.append_eq_append_iff.mp hlist with ⟨l, hq, hrest⟩ | ⟨l, hq, hrest⟩
    · cases l with
      | nil => exact ⟨by simpa using hq.symm, by simpa using hrest⟩
      | cons a l => exact absurd (List.cons.inj hrest).2 (hlast.not_period hc l)
    · cases l with
      | nil => exact ⟨by simpa using hq, by simpa using hrest.symm⟩
      | cons a l =>
        have hmem : '.' ∈ c.toList := by
          rw [(List.cons.inj hrest).2]
          simp
        exact absurd rfl (hc.2 '.' hmem).1
  obtain rfl := hlast.eq_plain hc (String.toList_inj.mp hsplit.2)
  exact ⟨front, rfl, ⟨String.toList_inj.mp hsplit.1, fun x hx => hwritten x (by simp [hx])⟩, hfront⟩

end Naming

/-! ## Tables and their names -/

theorem index_eq_of_countP_le_one {α : Type} {p : α → Bool} {l : List α} (h : l.countP p ≤ 1)
    {i j : Nat} {a b : α} (hi : l[i]? = some a) (ha : p a = true) (hj : l[j]? = some b)
    (hb : p b = true) : i = j := by
  induction l generalizing i j with
  | nil => cases hi
  | cons c l ih =>
    have hnone : p c = true → ∀ d ∈ l, p d ≠ true := by
      intro hc
      rw [List.countP_cons_of_pos hc] at h
      exact List.countP_eq_zero.mp (by omega)
    cases i with
    | zero =>
      obtain rfl : c = a := by simpa using hi
      cases j with
      | zero => rfl
      | succ j => exact absurd hb (hnone ha b (List.mem_of_getElem? (by simpa using hj)))
    | succ i =>
      cases j with
      | zero =>
        obtain rfl : c = b := by simpa using hj
        exact absurd ha (hnone hb a (List.mem_of_getElem? (by simpa using hi)))
      | succ j =>
        have hle : l.countP p ≤ 1 := Nat.le_trans (List.sublist_cons_self c l).countP_le h
        exact congrArg (· + 1) (ih hle (by simpa using hi) (by simpa using hj))

namespace Naming

variable {N : Naming} {b : RowBlock} {k : Nat} {s : Seat} {place : List Ident} {x : Ident}
  {column : String}

/-- In a block whose relations have different names, a name without quotes calls its relation. -/
theorem Calls.of_unquoted (hdistinct : b.Distinct N) (hseat : b.seats[k]? = some s)
    (hname : s.name? = some x) (hquote : x.quote = none) (hregular : N.regular x.value = true) :
    N.Calls b place x k := by
  have hplain : x = .plain x.value := by
    cases x
    cases hquote
    rfl
  refine ⟨hregular, ?_, fun i s' hi hne _ y hy => ?_⟩
  · rw [hplain]
    exact (N.same_plain _ _).trans (Text.sameName_self _)
  · rw [← hplain]
    obtain ⟨hk, hseat⟩ := List.getElem?_eq_some_iff.mp hseat
    obtain ⟨hi, hs'⟩ := List.getElem?_eq_some_iff.mp hi
    have hapart := List.pairwise_iff_getElem.mp hdistinct
    rcases Nat.lt_or_gt_of_ne hne with hlt | hlt
    · exact hapart i k hi hk hlt y (by rw [hs']; exact hy) x (by rw [hseat]; exact hname)
    · rw [N.same_comm]
      exact hapart k i hk hi hlt x (by rw [hseat]; exact hname) y (by rw [hs']; exact hy)

/-- A bare column denotes one of the only relation. -/
theorem denotes_bare_column (hcolumn : N.regular column = true) (hseat : b.seats[k]? = some s)
    (hleaf : s.relation.isLeaf = true) (hqualify : b.qualify = false) :
    N.Denotes b place column k := by
  have hone : b.seats.countP (·.relation.isLeaf) ≤ 1 := by
    rw [b.countP_seats]
    simpa [RowBlock.qualify] using hqualify
  refine ⟨⟨[.plain column], by simp [Name.render, Ident.render, Ident.plain], ?_⟩, ?_⟩
  · simpa using Written.plain hcolumn
  · intro path hpath i s' hi
    obtain rfl := hpath.eq_singleton (N.isBare column hcolumn)
    constructor
    · intro hleaf'
      exact index_eq_of_countP_le_one hone hi hleaf' hseat hleaf
    · rintro rfl
      obtain rfl : s = s' := Option.some.inj (hseat.symm.trans hi)
      exact hleaf

/-- A quoted name that is written behind its period as it is denotes the relation only if it is
read without quotes: between quotes it would be shorter. -/
theorem Reads.eq_plain_of_same {y : Ident} (hread : N.Reads x.value [y]) (hsame : N.same x y = true)
    (hquote : x.quote.isSome = true) : y = .plain x.value ∧ N.regular x.value = true := by
  have hrender : y.render = x.value := by simpa [Name.render] using hread.render
  rcases (hread.written y (by simp)).cases with ⟨hy, hregular⟩ | ⟨hy, o, inner, c, hlist, -, -, hle⟩
  · have hvalue : y.value = x.value := by
      rw [hy] at hrender
      exact hrender
    rw [hvalue] at hy hregular
    exact ⟨hy, hregular⟩
  · obtain ⟨v, quote⟩ := x
    obtain ⟨w, quote'⟩ := y
    obtain ⟨q, rfl⟩ := Option.isSome_iff_exists.mp hquote
    obtain ⟨q', rfl⟩ := Option.isSome_iff_exists.mp hy
    rw [N.same_quoted] at hsame
    obtain rfl : v = w := by simpa using hsame
    have hlength := congrArg List.length hlist
    rw [hrender] at hlength
    simp only [List.cons_append, List.length_cons, List.length_append] at hlength hle
    omega

/-- A name is called if and only if the column behind its text denotes one of its relation. -/
theorem denotes_qualified_iff (hcolumn : N.regular column = true) (hdistinct : b.Distinct N)
    (hseat : b.seats[k]? = some s) (hname : s.name? = some x)
    (hregular : x.quote = none → N.regular x.value = true) :
    N.Denotes b place (x.value ++ "." ++ column) k ↔
      s.nests = place ∧ N.Calls b place x k := by
  have hbare := N.isBare column hcolumn
  constructor
  · rintro ⟨⟨path, hpath⟩, hfinds⟩
    obtain ⟨front, rfl, hfront, hne⟩ := hpath.exists_front hbare
    have hk := (hfinds _ hpath k s hseat).mpr rfl
    obtain ⟨y, rfl⟩ : ∃ y, front = [y] := by
      rcases front with _ | ⟨y, _ | ⟨z, front⟩⟩
      · exact absurd rfl hne
      · exact ⟨y, rfl⟩
      · simp [Finds] at hk
    obtain ⟨hnests, x', hx', hsame⟩ := hk
    obtain rfl : x = x' := Option.some.inj (hname.symm.trans hx')
    refine ⟨hnests, ?_⟩
    cases hquote : x.quote with
    | none => exact .of_unquoted hdistinct hseat hname hquote (hregular hquote)
    | some q =>
      obtain ⟨rfl, hregular⟩ := hfront.eq_plain_of_same hsame (by simp [hquote])
      refine ⟨hregular, hsame, fun i s' hi hne hnests' y hy => ?_⟩
      -- a second relation of that name would be denoted too
      by_contra hsame'
      exact hne ((hfinds _ hpath i s' hi).mp ⟨hnests', y, hy, by simpa using hsame'⟩)
  · rintro ⟨hnests, hcalls⟩
    refine ⟨⟨[.plain x.value, .plain column], ?_, ?_⟩, ?_⟩
    · simp [Name.render, Ident.render, Ident.plain]
    · simpa using ⟨Written.plain hcalls.regular, Written.plain hcolumn⟩
    · intro path hpath i s' hi
      obtain ⟨front, rfl, hfront, -⟩ := hpath.exists_front hbare
      obtain rfl := hfront.eq_singleton (N.isBare _ hcalls.regular)
      constructor
      · rintro ⟨hnests', y, hy, hsame⟩
        by_contra hne
        rw [hcalls.apart i s' hi hne hnests' y hy] at hsame
        cases hsame
      · rintro rfl
        obtain rfl : s = s' := Option.some.inj (hseat.symm.trans hi)
        exact ⟨hnests, x, hname, hcalls.same⟩

end Naming

/-! ## An engine that folds names -/

theorem isBare_of_isPlainWord {v : String} (h : isPlainWord v = true) : IsBare v := by
  obtain ⟨c, tail, hlist, hc, htail⟩ := isPlainWord_iff.mp h
  have hword : ∀ x ∈ v.toList, isWordPart x = true := by
    rw [hlist]
    simpa [isWordPart, Char.isAlphanum, hc] using htail
  refine ⟨fun hempty => by simp [hempty] at hlist, fun x hx => ?_⟩
  have hx := hword x hx
  constructor
  · rintro rfl
    exact absurd hx (by decide)
  · rw [← Bool.not_eq_true]
    intro hquote
    simp only [isNameQuote, Bool.or_eq_true, beq_iff_eq] at hquote
    rcases hquote with ((rfl | rfl) | rfl) | rfl <;> exact absurd hx (by decide)

/-- A name in lower case, if it has no quotes. -/
def Ident.folded (x : Ident) : String :=
  match x.quote with
  | none => Text.fold x.value
  | some _ => x.value

/-- Names without quotes are put in lower case, and then all names are compared exactly. -/
def Naming.folding : Naming where
  same x y := x.folded == y.folded
  regular := isPlainWord
  same_plain _ _ := rfl
  same_quoted _ _ _ _ := rfl
  same_comm _ _ := Bool.beq_comm
  isBare _ := isBare_of_isPlainWord

/-! ## Injected columns -/

theorem Target.render_column (t : Target) (column : String) :
    (t.column column).render =
      match t.qualifier with
      | none => column
      | some q => q ++ "." ++ column := by
  cases hq : t.qualifier <;>
    simp [Target.column, Expr.ofColumn, Expr.render, Name.render, Ident.render, Ident.plain, hq]

/-- A table with an alias. -/
def Relation.ofTable (table : String) (x : Ident) : Relation :=
  .table [.plain table] "" none "" (some ⟨false, x, ""⟩) []

/-- `SELECT * FROM orders x, users y` -/
def RowBlock.ordersAndUsers (x y : Ident) : RowBlock :=
  .select .empty { Select.allOf "orders" with
    sources := [⟨.ofTable "orders" x, []⟩, ⟨.ofTable "users" y, []⟩] }

theorem RowBlock.seats_ordersAndUsers (x y : Ident) :
    (RowBlock.ordersAndUsers x y).seats = [⟨.ofTable "orders" x, []⟩, ⟨.ofTable "users" y, []⟩] :=
  rfl

theorem RowBlock.distinct_ordersAndUsers_iff {N : Naming} {x y : Ident} :
    (RowBlock.ordersAndUsers x y).Distinct N ↔ N.same x y = false := by
  simp [Distinct, seats_ordersAndUsers, Seat.name?, Relation.exposed?, Relation.ofTable]

/-- In a block whose relations have different names, the injected column of a table denotes one of
the table and of no other relation if and only if it is not qualified, or its place is in the same
named nested joins as the table and the table's name, if it came with quotes, can do without. -/
theorem RowBlock.denotes_column_iff (N : Naming) {b : RowBlock} {k : Nat} {s : Seat} {l : Leaf}
    {column : String} (hseat : b.seats[k]? = some s) (hleaf : s.leaf? b.scope b.qualify = some l)
    (hcolumn : N.regular column = true)
    (hregular : ∀ x, s.name? = some x → x.quote = none → N.regular x.value = true)
    (hdistinct : b.Distinct N) :
    N.Denotes b s.place (l.target.column column).render k ↔
      l.target.qualifier = none ∨ s.nests = s.place ∧
        ∃ x, s.name? = some x ∧ (x.quote = none ∨ N.Calls b s.place x k) := by
  obtain ⟨t, htarget, rfl⟩ := Option.map_eq_some_iff.mp hleaf
  rw [Target.render_column]
  obtain ⟨hleaf, ⟨hqualifier, hqualify⟩ | ⟨x, hname, hqualifier⟩⟩ :=
    Relation.qualifier_of_target? htarget
  · simp only [hqualifier, true_or, iff_true]
    exact Naming.denotes_bare_column hcolumn hseat hleaf hqualify
  · have hname : s.name? = some x := hname
    simp only [hqualifier]
    rw [Naming.denotes_qualified_iff hcolumn hdistinct hseat hname (hregular x hname)]
    have hcalls : x.quote = none → N.Calls b s.place x k :=
      fun hquote => .of_unquoted hdistinct hseat hname hquote (hregular x hname hquote)
    constructor
    · intro ⟨hnests, h⟩
      exact .inr ⟨hnests, x, hname, .inr h⟩
    · rintro (h | ⟨hnests, x', hx', h⟩)
      · cases h
      · obtain rfl : x = x' := Option.some.inj (hname.symm.trans hx')
        exact ⟨hnests, h.elim hcalls id⟩

/-- Where names are folded, a quoted name in small letters can do without its quotes. -/
theorem RowBlock.denotes_column_ordersAndUsers :
    (RowBlock.ordersAndUsers ⟨"o", some '"'⟩ (.plain "u")).Distinct .folding ∧
      Naming.folding.Denotes (.ordersAndUsers ⟨"o", some '"'⟩ (.plain "u")) [] "o.tenant_id" 0 := by
  have hdistinct : (RowBlock.ordersAndUsers ⟨"o", some '"'⟩ (.plain "u")).Distinct .folding :=
    distinct_ordersAndUsers_iff.mpr (by decide)
  have hseat : (RowBlock.ordersAndUsers ⟨"o", some '"'⟩ (.plain "u")).seats[0]? =
    some ⟨.ofTable "orders" ⟨"o", some '"'⟩, []⟩ := rfl
  have hleaf : Seat.leaf? .empty true ⟨.ofTable "orders" ⟨"o", some '"'⟩, []⟩ =
    some ⟨⟨"orders", some "o", "orders \"o\""⟩, []⟩ := rfl
  have hcolumn : Naming.folding.regular "tenant_id" = true := by decide
  have hrender : ((⟨"orders", some "o", "orders \"o\""⟩ : Target).column "tenant_id").render =
    "o.tenant_id" := by decide
  refine ⟨hdistinct, ?_⟩
  rw [← hrender]
  refine (denotes_column_iff .folding hseat hleaf hcolumn ?_ hdistinct).mpr
    (.inr ⟨rfl, ⟨"o", some '"'⟩, rfl, .inr ⟨by decide, by decide, ?_⟩⟩)
  · rintro x ⟨⟩ hquote
    cases hquote
  · intro i s hi hne _ y hy
    match i with
    | 0 => exact absurd rfl hne
    | 1 =>
      obtain ⟨⟩ := hi
      obtain ⟨⟩ := hy
      decide
    | i + 2 => cases hi

/-- Without its quotes the alias `"O"` of the orders is the alias `o` of the users, for every engine
that takes the two for different names. -/
theorem RowBlock.not_denotes_ordersAndUsers :
    (RowBlock.ordersAndUsers ⟨"O", some '"'⟩ (.plain "o")).Distinct .folding ∧
      ∃ s l, (RowBlock.ordersAndUsers ⟨"O", some '"'⟩ (.plain "o")).seats[0]? = some s ∧
        s.leaf? .empty true = some l ∧
        ∀ N : Naming, N.regular "tenant_id" = true →
          (RowBlock.ordersAndUsers ⟨"O", some '"'⟩ (.plain "o")).Distinct N →
          ¬ N.Denotes (.ordersAndUsers ⟨"O", some '"'⟩ (.plain "o")) s.place
            (l.target.column "tenant_id").render 0 := by
  refine ⟨distinct_ordersAndUsers_iff.mpr (by decide), _,
    ⟨⟨"orders", some "O", "orders \"O\""⟩, []⟩, rfl, rfl, fun N hcolumn hdistinct h => ?_⟩
  rw [Target.render_column] at h
  have hcalls : N.Calls _ [] ⟨"O", some '"'⟩ 0 :=
    ((Naming.denotes_qualified_iff hcolumn hdistinct rfl rfl fun h => by cases h).mp h).2
  have hsame : N.same (.plain "o") (.plain "O") = false := hcalls.apart 1 _ rfl (by decide) rfl _ rfl
  rw [Naming.same_plain] at hsame
  exact absurd hsame (by decide)

end RowPolicy.Sql
