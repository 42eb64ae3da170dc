import RowPolicy.Proofs.Grammar.Plain

/-!
# Printing statements

A plain statement is printed as its tokens, with blanks, periods, commas and parentheses between
them that let each token be read by itself (`Statement.spells`).
-/

namespace RowPolicy.Sql

variable {d : Dialect} {s s' : String} {ts ts' : List Token}

/-! ## Keywords -/

/-- The words that plain statements are printed with. -/
def printedWords : List String :=
  ["NULL", "AND", "OR", "XOR", "IS", "AS", "ON", "SELECT", "FROM", "WHERE", "JOIN", "INNER", "LEFT",
    "OUTER", "RIGHT", "FULL", "CROSS"]

theorem plainWord_of_printedWords {k : String} (h : k ∈ printedWords) :
    isPlainWord k = true ∧ Token.plainWord k = .capital k := by
  have hall : ∀ k ∈ printedWords, isPlainWord k = true ∧ Token.plainWord k = .capital k := by
    decide +kernel
  exact hall k h

theorem spells_capital {k : String} (h : k ∈ printedWords) : d.Spells k [.capital k] := by
  obtain ⟨hplain, htoken⟩ := plainWord_of_printedWords h
  rw [← htoken]
  exact spells_word hplain

/-! ## Names -/

/-- A quoted name is read to its closing quote. -/
theorem scanQuotedName_render {q : Char} {v : String} (hquote : d.isQuote q = true)
    (hback : (Enclosed.name q v).readsBack d = true) :
    ∃ front, (Ident.render ⟨v, some q⟩).toList = q :: front ∧ ∀ rest, EndsWord rest →
      scanQuotedName q (front ++ rest) = .ok (.quotedWord q v, rest) := by
  have hstop : ∀ rest, EndsWord rest → ∀ q' ∈ ['"', '`', ']'], rest.head? ≠ some q' := by
    intro rest hrest q' hq' hhead
    simp only [List.mem_cons, List.not_mem_nil, or_false] at hq'
    obtain rfl | rfl | rfl := hq' <;> exact absurd (hrest _ hhead) (by decide)
  have hdoubled : ∀ q' ∈ ['"', '`'], readsBackIn q' false false v.toList = true → ∀ rest,
      EndsWord rest → scanQuotedName q' (quoteContent q' false v.toList ++ [q'] ++ rest) =
        .ok (.quotedWord q' v, rest) := by
    intro q' hq' hback rest hrest
    simp only [List.mem_cons, List.not_mem_nil, or_false] at hq'
    obtain rfl | rfl := hq' <;>
      simp [scanQuotedName, Token.closingQuote, Scanned.token, Except.map,
        scanQuoted_of_readsBackIn (by decide) hback (hstop rest hrest _ (by simp))]
  obtain rfl | rfl | rfl := isQuote_cases hquote
  · exact ⟨_, by simp [Ident.render, quoted], hdoubled '"' (by simp) hback⟩
  · exact ⟨_, by simp [Ident.render, quoted], hdoubled '`' (by simp) hback⟩
  · refine ⟨v.toList ++ [']'], by simp [Ident.render], fun rest hrest => ?_⟩
    have hread := scanQuoted_of_keepsContent (q := ']') (by decide)
      (hstop rest hrest ']' (by simp)) hback
    simp [scanQuotedName, Token.closingQuote, hread, Scanned.token, Except.map]

/-- A name is one token in front of whatever ends a word. -/
theorem Ident.scanToken_render {i : Ident} (hi : i.isWritten d = true) :
    ∃ c front, i.render.toList = c :: front ∧ c.isDigit = false ∧ c ≠ '_' ∧
      ∀ last rest, EndsWord rest →
        scanToken d last c (front ++ rest) = .ok (some i.token, rest) := by
  obtain ⟨v, quote⟩ := i
  cases quote with
  | none =>
    obtain ⟨c, tail, hv, hc, htail⟩ := isPlainWord_iff.mp hi
    refine ⟨c, tail, hv, isDigit_of_isAlpha hc, by simpa using beq_eq_false_of_kind hc '_' rfl,
      fun last rest hrest => ?_⟩
    rw [scanToken_word d last hc htail hrest, ← hv, String.ofList_toList]
    rfl
  | some q =>
    simp only [Ident.isWritten, Bool.and_eq_true] at hi
    obtain ⟨hquote, hback⟩ := hi
    obtain ⟨front, hrender, hscan⟩ := scanQuotedName_render hquote hback
    have hhead : q.isDigit = false ∧ q ≠ '_' := by
      obtain rfl | rfl | rfl := isQuote_cases hquote <;> decide
    refine ⟨q, front, hrender, hhead.1, hhead.2, fun last rest hrest => ?_⟩
    rw [scanToken_quotedName hquote, hscan rest hrest]
    rfl

theorem Ident.spells {i : Ident} (hi : i.isWritten d = true) : d.Spells i.render [i.token] := by
  obtain ⟨c, front, hrender, -, -, hscan⟩ := Ident.scanToken_render hi
  exact .of_scanToken hrender fun last rest hrest => hscan last rest hrest.word

/-- A dotted name begins with no mark that a number begins with. -/
theorem Name.exists_render (i : Ident) (is : List Ident) (h : i.isWritten d = true) :
    ∃ c front, (Name.render (i :: is)).toList = c :: front ∧ c.isDigit = false ∧ c ≠ '_' := by
  obtain ⟨c, front, hrender, hdigit, hlow, -⟩ := Ident.scanToken_render h
  cases is with
  | nil => exact ⟨c, front, by rw [Name.render_singleton, hrender], hdigit, hlow⟩
  | cons j is =>
    exact ⟨c, _, by rw [Name.render_cons_cons, String.toList_append, String.toList_append, hrender,
      List.cons_append, List.cons_append], hdigit, hlow⟩

/-- A dotted name is spelled as its parts with periods between them. -/
theorem Name.spells (i : Ident) (is : List Ident) (h : ∀ j ∈ i :: is, j.isWritten d = true) :
    d.Spells (Name.render (i :: is)) (Name.tokens (i :: is)) := by
  induction is generalizing i with
  | nil =>
    rw [Name.render_singleton]
    exact Ident.spells (h i (by simp))
  | cons j is ih =>
    have hrests := ih j fun k hk => h k (List.mem_cons_of_mem i hk)
    obtain ⟨c, front, hrender, -, -, hscan⟩ := Ident.scanToken_render (h i (by simp))
    obtain ⟨c', front', hrender', hdigit, hlow⟩ := Name.exists_render j is (h j (by simp))
    intro last rest hrest
    have hassoc : (Name.render (i :: j :: is)).toList ++ rest =
        c :: (front ++ '.' :: ((Name.render (j :: is)).toList ++ rest)) := by
      simp [Name.render_cons_cons, hrender]
    have hperiod : scanToken d (some i.token) '.' (c' :: (front' ++ rest)) =
        .ok (some (.symbol "."), c' :: (front' ++ rest)) := scanToken_period d i.token hdigit hlow
    rw [← List.cons_append, ← hrender'] at hperiod
    rw [hassoc, tokensFrom_token (hscan last _ (endsWord_period _)), tokensFrom_token hperiod,
      hrests _ rest hrest]
    cases tokensFrom d none rest <;> simp [Except.map, Name.tokens]

/-! ## Expressions -/

theorem Literal.spells {l : Literal} (h : l.isPlain d = true) : d.Spells l.render l.tokens := by
  cases l with
  | null => exact spells_capital (by decide)
  | boolean b =>
    have htrue : Token.plainWord "true" = .word "true" none "TRUE" := by decide +kernel
    have hfalse : Token.plainWord "false" = .word "false" none "FALSE" := by decide +kernel
    cases b with
    | true =>
      rw [Literal.tokens, ← htrue]
      exact spells_word (by decide)
    | false =>
      rw [Literal.tokens, ← hfalse]
      exact spells_word (by decide)
  | number ds =>
    simp only [Literal.isPlain, Bool.and_eq_true, List.all_eq_true, Bool.not_eq_true'] at h
    have hspells : d.Spells (String.ofList ds.toList) [.number (String.ofList ds.toList) false] :=
      spells_number (by simpa using h.1) h.2
    rwa [String.ofList_toList] at hspells
  | text s => exact spells_text h
  | spelled s => cases h

/-- An operator in front of a blank. -/
theorem scanToken_operator {op : BinaryOp} {k : Nat} (hop : op.strength? d = some k) :
    ∃ c front, op.render.toList = c :: front ∧ ∀ last rest,
      scanToken d last c (front ++ ' ' :: rest) = .ok (some op.token, ' ' :: rest) := by
  have hword : ∀ k ∈ printedWords, ∃ c front, k.toList = c :: front ∧ ∀ last rest,
      scanToken d last c (front ++ ' ' :: rest) = .ok (some (.capital k), ' ' :: rest) := by
    intro k hk
    obtain ⟨hplain, htoken⟩ := plainWord_of_printedWords hk
    obtain ⟨c, tail, hw, hc, htail⟩ := isPlainWord_iff.mp hplain
    refine ⟨c, tail, hw, fun last rest => ?_⟩
    rw [scanToken_word d last hc htail (endsToken_space rest).word, ← hw, String.ofList_toList,
      htoken]
  obtain ⟨c, hc, -⟩ := Option.map_eq_some_iff.mp hop
  obtain ⟨front, back, hlist, -⟩ := List.lookup_eq_some_iff.mp hc
  have hmem : (op, c) ∈ plainOperators := by simp [hlist]
  simp only [plainOperators, List.mem_cons, List.not_mem_nil, or_false, Prod.mk.injEq] at hmem
  obtain ⟨rfl, -⟩ | ⟨rfl, -⟩ | ⟨rfl, -⟩ | hmem := hmem
  · exact hword "AND" (by decide)
  · exact hword "OR" (by decide)
  · exact hword "XOR" (by decide)
  · obtain ⟨rfl, -⟩ | ⟨rfl, -⟩ | ⟨rfl, -⟩ | ⟨rfl, -⟩ | ⟨rfl, -⟩ | ⟨rfl, -⟩ | ⟨rfl, -⟩ | ⟨rfl, -⟩ |
      ⟨rfl, -⟩ | ⟨rfl, -⟩ := hmem
    all_goals
      refine ⟨_, _, rfl, fun last rest => ?_⟩
      cases d <;> rfl

theorem Dialect.Spells.operator {op : BinaryOp} {k : Nat} (hop : op.strength? d = some k)
    (h : d.Spells s ts) (h' : d.Spells s' ts') :
    d.Spells (s ++ " " ++ op.render ++ " " ++ s') (ts ++ op.token :: ts') := by
  obtain ⟨c, front, hrender, hscan⟩ := scanToken_operator hop
  intro last rest hrest
  have hassoc : (s ++ " " ++ op.render ++ " " ++ s').toList ++ rest =
      s.toList ++ ' ' :: c :: (front ++ ' ' :: (s'.toList ++ rest)) := by
    simp [hrender]
  rw [hassoc, h last _ (endsToken_space _).number, tokensFrom_blank (scanToken_space d none _),
    tokensFrom_token (hscan none _), tokensFrom_blank (scanToken_space d _ _), h' none rest hrest]
  cases tokensFrom d none rest <;> simp [Except.map]

/-- **A plain expression is printed as its tokens.** -/
theorem Expr.spells {n least : Nat} {e : Expr} (h : e.isPlain d n least = true) :
    d.Spells e.render e.tokens := by
  refine Expr.isPlain_induction (motive := fun _ _ e => d.Spells e.render e.tokens)
    ?_ ?_ ?_ ?_ ?_ h
  · intro n least path hpath _
    obtain ⟨i, is, rfl, hall⟩ := Name.eq_of_isPlain hpath
    exact Name.spells i is fun j hj => Ident.isWritten_of_isApart (hall j hj)
  · exact fun n least l hl => Literal.spells hl
  · exact fun n least l op r s hop _ _ _ hl hr => .operator hop hl hr
  · intro n least e _ _ he
    have hnull := (spells_capital (d := d) (k := "IS") (by decide)).spaced
      (spells_capital (k := "NULL") (by decide))
    have hspaced := he.spaced hnull
    rw [String.append_assoc] at hspaced
    exact hspaced
  · exact fun n least e _ he => he.nested

/-! ## Clauses and lists -/

theorem Dialect.Spells.capital (h : d.Spells s ts) {k : String} (hk : k ∈ printedWords)
    (h' : d.Spells s' ts') : d.Spells (s ++ (" " ++ k ++ " " ++ s')) (ts ++ .capital k :: ts') := by
  have hspells := h.spaced ((spells_capital hk).spaced h')
  simpa [String.append_assoc] using hspells

/-- An optional expression behind a keyword. -/
theorem Dialect.Spells.optional (h : d.Spells s ts) {k : String} (hk : k ∈ printedWords) {n : Nat}
    {o : Option Expr} (ho : o.all (·.isPlain d n 0) = true) :
    d.Spells (s ++ renderOptional (" " ++ k ++ " ") o)
      (ts ++ (o.map fun e => .capital k :: e.tokens).getD []) := by
  cases o with
  | none => simpa [renderOptional] using h
  | some e => exact h.capital hk (Expr.spells ho)

/-- Texts with a separator between them that is read as a mark. -/
theorem Dialect.Spells.separated {α : Type} {sep mark : String}
    (hsep : ∀ {s s' : String} {ts ts' : List Token}, d.Spells s ts → d.Spells s' ts' →
      d.Spells (s ++ sep ++ s') (ts ++ .symbol mark :: ts'))
    (text : α → String) (tokens : α → List Token) {xs : List α} (hne : xs ≠ [])
    (h : ∀ x ∈ xs, d.Spells (text x) (tokens x)) :
    d.Spells (sep.intercalate (xs.map text)) (Token.separated mark (xs.map tokens)) := by
  induction xs with
  | nil => exact absurd rfl hne
  | cons x xs ih =>
    simp only [List.forall_mem_cons] at h
    cases xs with
    | nil => simpa [Token.separated] using h.1
    | cons y ys =>
      have hspells := hsep h.1 (ih (List.cons_ne_nil y ys) h.2)
      simpa [String.intercalate_cons_cons, Token.separated] using hspells

/-! ## Relations -/

theorem Alias.spells (h : d.Spells s ts) {a : Alias} (ha : a.isPlain d = true) :
    d.Spells (s ++ a.render) (ts ++ a.tokens) := by
  obtain ⟨explicit, i, columns⟩ := a
  rw [Alias.isPlain, Bool.and_eq_true, beq_iff_eq] at ha
  obtain ⟨rfl, hi⟩ := ha
  have hname := Ident.spells (Ident.isWritten_of_isApart hi)
  cases explicit with
  | true => simpa [Alias.render, Alias.tokens] using h.capital (k := "AS") (by decide) hname
  | false => simpa [Alias.render, Alias.tokens, String.append_assoc] using h.spaced hname

theorem Relation.spells {rel : Relation} (h : rel.isPlain d = true) :
    d.Spells rel.render rel.tokens := by
  obtain ⟨n, naming, rfl, hn, hnaming⟩ := Relation.eq_of_isPlain h
  obtain ⟨i, is, rfl, hall⟩ := Name.eq_of_isPlain hn
  have hname := Name.spells (d := d) i is fun j hj => Ident.isWritten_of_isApart (hall j hj)
  cases naming with
  | none => simpa [Relation.render, Relation.tokens, renderArguments, renderAlias, renderPieces,
      Piece.render] using hname
  | some a => simpa [Relation.render, Relation.tokens, renderArguments, renderAlias, renderPieces,
      Piece.render] using Alias.spells hname hnaming

theorem JoinKind.spells {kind : JoinKind} (h : kind.words ≠ []) :
    d.Spells kind.render (kind.words.map Token.capital) := by
  have hword : ∀ k ∈ ["JOIN", "INNER", "LEFT", "OUTER", "RIGHT", "FULL", "CROSS"],
      d.Spells k [.capital k] := by
    have hprinted : ∀ k ∈ ["JOIN", "INNER", "LEFT", "OUTER", "RIGHT", "FULL", "CROSS"],
        k ∈ printedWords := by decide
    exact fun k hk => spells_capital (hprinted k hk)
  simp only [List.forall_mem_cons] at hword
  obtain ⟨hjoin, hinner, hleft, houter, hright, hfull, hcross, -⟩ := hword
  cases kind
  case join => exact hjoin
  case inner => simpa [JoinKind.render, JoinKind.words] using hinner.spaced hjoin
  case left => simpa [JoinKind.render, JoinKind.words] using hleft.spaced hjoin
  case leftOuter =>
    simpa [JoinKind.render, JoinKind.words] using (hleft.spaced houter).spaced hjoin
  case right => simpa [JoinKind.render, JoinKind.words] using hright.spaced hjoin
  case rightOuter =>
    simpa [JoinKind.render, JoinKind.words] using (hright.spaced houter).spaced hjoin
  case full => simpa [JoinKind.render, JoinKind.words] using hfull.spaced hjoin
  case cross => simpa [JoinKind.render, JoinKind.words] using hcross.spaced hjoin
  all_goals exact absurd rfl h

theorem Join.spells (h : d.Spells s ts) {n : Nat} {j : Join} (hj : j.isPlain d n = true) :
    d.Spells (s ++ j.render) (ts ++ j.tokens) := by
  obtain ⟨kind, rel, on, rfl, hkind, hrel, hon, -⟩ := Join.eq_of_isPlain hj
  have hrelation := (h.spaced (JoinKind.spells hkind)).spaced (Relation.spells hrel)
  have hspells := hrelation.optional (k := "ON") (by decide) hon
  simpa [Join.render, Join.tokens, renderOptional, String.append_assoc] using hspells

theorem JoinTree.spells {n : Nat} {t : JoinTree} (ht : t.isPlain d n = true) :
    d.Spells t.render t.tokens := by
  obtain ⟨rel, joins⟩ := t
  rw [JoinTree.isPlain, Bool.and_eq_true, List.all_eq_true] at ht
  suffices hjoins : ∀ s ts, d.Spells s ts →
      d.Spells (s ++ renderJoins joins) (ts ++ joins.flatMap Join.tokens) from
    hjoins _ _ (Relation.spells ht.1)
  induction joins with
  | nil =>
    intro s ts h
    simpa [renderJoins] using h
  | cons j js ih =>
    simp only [List.forall_mem_cons] at ht
    intro s ts h
    have hspells := ih ⟨ht.1, ht.2.2⟩ _ _ (Join.spells h ht.2.1)
    simpa [renderJoins, String.append_assoc] using hspells

/-! ## Blocks -/

theorem spells_star : d.Spells "*" [.symbol "*"] := by
  have hstar : "*".toList = '*' :: [] := rfl
  refine .of_scanToken hstar fun last rest _ => ?_
  have hnone : scanPrefixed d ('*' :: rest) = none := scanPrefixed_eq_none (.inl (by decide))
  cases d <;> simp only [scanToken, List.nil_append, hnone] <;> rfl

theorem SelectItem.spells {n : Nat} {item : SelectItem} (h : item.isPlain d n = true) :
    d.Spells item.render item.tokens := by
  cases item with
  | expr e =>
    rw [SelectItem.isPlain, Bool.and_eq_true] at h
    exact Expr.spells h.1
  | aliased e i =>
    simp only [SelectItem.isPlain, Bool.and_eq_true] at h
    have hspells := (Expr.spells h.1.1).capital (k := "AS") (by decide) (Ident.spells h.2)
    simpa [SelectItem.render, SelectItem.tokens, String.append_assoc] using hspells
  | wildcard ps =>
    obtain rfl := SelectItem.eq_of_isPlain h
    simpa [SelectItem.render, SelectItem.tokens, renderPieces, Piece.render] using spells_star

theorem renderItems_eq (items : List SelectItem) : renderItems items = items.map (·.render) := by
  induction items with
  | nil => rfl
  | cons item items ih => rw [renderItems, ih, List.map_cons]

theorem renderTrees_eq (sources : List JoinTree) :
    renderTrees sources = sources.map (·.render) := by
  induction sources with
  | nil => rfl
  | cons t ts ih => rw [renderTrees, ih, List.map_cons]

theorem Select.render_eq {items : List SelectItem} (hne : items ≠ []) (sources : List JoinTree)
    (selection : Option Expr) :
    Select.render ⟨.standard, [], [], items, "", sources, [], selection, [], [], [], false, []⟩ =
      "SELECT" ++ " " ++ commaSeparated (items.map SelectItem.render) ++
        clause " FROM " (sources.map JoinTree.render) ++
          renderOptional (" " ++ "WHERE" ++ " ") selection := by
  calc
    _ = "SELECT" ++ renderPieces [] ++ renderPieces [] ++ clause " " (renderItems items) ++ "" ++
          clause " FROM " (renderTrees sources) ++ renderPieces [] ++
            renderOptional " WHERE " selection ++ renderPieces [] ++
              (renderPieces [] ++ renderPieces []) ++ renderPieces [] := rfl
    _ = _ := by
      simp [renderItems_eq, renderTrees_eq, renderPieces, clause, hne, ← String.append_assoc]

/-- **A plain block is printed as its tokens.** -/
theorem Select.spells {n : Nat} {b : Select} (h : b.isPlain d n = true) :
    d.Spells b.render b.tokens := by
  obtain ⟨items, sources, selection, rfl, hne, hitems, hsources, hselection⟩ :=
    Select.eq_of_isPlain h
  have hlist := Dialect.Spells.separated (d := d) .listed SelectItem.render SelectItem.tokens hne
    fun item hitem => SelectItem.spells (hitems item hitem)
  have hselect := (spells_capital (k := "SELECT") (by decide)).spaced hlist
  have hfrom : d.Spells
      ("SELECT" ++ " " ++ commaSeparated (items.map SelectItem.render) ++
        clause " FROM " (sources.map JoinTree.render))
      ([.capital "SELECT"] ++ Token.separated "," (items.map SelectItem.tokens) ++
        if sources.isEmpty then [] else
          .capital "FROM" :: Token.separated "," (sources.map JoinTree.tokens)) := by
    by_cases hempty : sources = []
    · subst hempty
      simpa [clause, commaSeparated] using hselect
    · have hrelations := Dialect.Spells.separated (d := d) .listed JoinTree.render JoinTree.tokens
        hempty fun t ht => JoinTree.spells (hsources t ht)
      have hspells := hselect.capital (k := "FROM") (by decide) hrelations
      simpa [clause, commaSeparated, hempty] using hspells
  rw [Select.render_eq hne]
  exact hfrom.optional (by decide) hselection

/-! ## Statements -/

theorem Statement.render_eq (b : Select) :
    Statement.render (.select ⟨false, [], .select b, [], none, [], none, "", []⟩) = b.render := by
  calc
    _ = clause "WITH " [] ++ "" ++ b.render ++ renderPieces [] ++ "" ++ renderPieces [] ++ "" ++
          "" ++ renderPieces [] := rfl
    _ = b.render := by simp [clause, renderPieces]

/-- **A plain statement is printed as its tokens.** -/
theorem Statement.spells {x : Statement} (h : x.isPlain d = true) :
    d.Spells x.render x.tokens := by
  obtain ⟨b, rfl, hb⟩ := Statement.eq_of_isPlain h
  rw [Statement.render_eq]
  exact Select.spells hb

theorem Statement.isBlankText_render {x : Statement} (h : x.isPlain d = true) :
    Text.isBlankText x.render = false := by
  obtain ⟨b, rfl, hb⟩ := Statement.eq_of_isPlain h
  obtain ⟨items, sources, selection, rfl, hne, -⟩ := Select.eq_of_isPlain hb
  have hletter : Text.isBlank 'S' = false := by decide +kernel
  simp [Statement.render_eq, Select.render_eq hne, Text.isBlankText, hletter]

end RowPolicy.Sql
