import RowPolicy.Proofs.Grammar.Relations

/-!
# Reading blocks

A block is read as its items, its relations and its condition. An item is read twice where it begins
with a name, since a star may come behind the names (`starOrExpr_apply`). Every other clause of a
block is asked for by its first word and found missing.
-/

namespace RowPolicy.Text

theorem toNat_lt_of_toLower {c : Char} (h : c.toLower.toNat < 128) : c.toNat < 128 := by
  by_contra hc
  have hupper : ¬(c.val ≥ 'A'.val ∧ c.val ≤ 'Z'.val) := by
    rintro ⟨-, hle⟩
    rw [UInt32.le_iff_toNat_le] at hle
    exact hc (Nat.lt_of_le_of_lt hle (by decide))
  unfold Char.toLower at h
  rw [dif_neg hupper] at h
  exact hc h

/-- Of all words only those that spell it are the same as `FROM`. -/
theorem keywordForm_of_sameName_from {v : String} (h : sameName v "FROM" = true) :
    keywordForm v = "FROM" := by
  have hletters : ∀ n < 128, (['f', 'r', 'o', 'm'].all fun x =>
      (Char.ofNat n).toLower != x || capitals (Char.ofNat n) == [x.toUpper]) = true := by
    decide +kernel
  have hcapitals : ∀ c : Char, ∀ x ∈ ['f', 'r', 'o', 'm'], c.toLower = x →
      capitals c = [x.toUpper] := by
    intro c x hx hc
    have hlt : c.toLower.toNat < 128 := by
      have hsmall : ∀ x ∈ ['f', 'r', 'o', 'm'], x.toNat < 128 := by simp
      exact hc ▸ hsmall x hx
    have hchar := List.all_eq_true.mp (hletters c.toNat (toNat_lt_of_toLower hlt)) x hx
    rw [Char.ofNat_toNat] at hchar
    simpa [hc] using hchar
  have hfold : v.toList.map Char.toLower = ['f', 'r', 'o', 'm'] := by
    have hlist := congrArg String.toList (sameName_iff.mp h)
    simpa [fold] using hlist
  obtain ⟨a, as, hv, ha, hfold⟩ := List.map_eq_cons_iff.mp hfold
  obtain ⟨b, bs, rfl, hb, hfold⟩ := List.map_eq_cons_iff.mp hfold
  obtain ⟨c, cs, rfl, hc, hfold⟩ := List.map_eq_cons_iff.mp hfold
  obtain ⟨d, ds, rfl, hd, hfold⟩ := List.map_eq_cons_iff.mp hfold
  obtain rfl := List.map_eq_nil_iff.mp hfold
  simp only [keywordForm, hv, List.flatMap_cons, List.flatMap_nil, hcapitals a 'f' (by simp) ha,
    hcapitals b 'r' (by simp) hb, hcapitals c 'o' (by simp) hc, hcapitals d 'm' (by simp) hd]
  decide

end RowPolicy.Text

namespace RowPolicy.Sql

/-! ## The front of an expression -/

/-- The tokens that a plain expression begins with: a dotted name, a text or a number, with no
period behind it, or a parenthesis with no star behind it. -/
inductive Fronted : List Token → Prop
  | names (i : Ident) (is : List Ident) (us : List Token) (h : us.head? ≠ some (.symbol ".")) :
    Fronted (Name.tokens (i :: is) ++ us)
  | text (s : String) (us : List Token) (h : us.head? ≠ some (.symbol ".")) :
    Fronted (.string .plain s :: us)
  | number (ds : String) (us : List Token) : Fronted (.number ds false :: us)
  | nested (t : Token) (us : List Token) (h : t ≠ .symbol "*") : Fronted (.symbol "(" :: t :: us)

theorem Fronted.append {ts us : List Token} (h : Fronted ts)
    (hus : us.head? ≠ some (.symbol ".")) : Fronted (ts ++ us) := by
  have hbehind : ∀ vs : List Token, vs.head? ≠ some (.symbol ".") →
      (vs ++ us).head? ≠ some (.symbol ".") := by
    intro vs hvs
    cases vs with
    | nil => exact hus
    | cons v vs => exact hvs
  cases h with
  | names i is vs h =>
    rw [List.append_assoc]
    exact .names i is _ (hbehind vs h)
  | text s vs h => exact .text s _ (hbehind vs h)
  | number ds vs => exact .number ds _
  | nested t vs h => exact .nested t _ h

theorem Fronted.of_word {v k : String} (h : Text.keywordForm v = k) :
    Fronted [.word v none k] := by
  rw [← Reader.token_plain h]
  exact .names (Ident.plain v) [] [] (by simp)

theorem fronted_of_isPlain {d : Dialect} {n least : Nat} {e : Expr}
    (h : e.isPlain d n least = true) : Fronted e.tokens := by
  refine Expr.isPlain_induction (motive := fun _ _ e => Fronted e.tokens) ?_ ?_ ?_ ?_ ?_ h
  · intro n least path hpath _
    obtain ⟨i, is, rfl, -⟩ := Name.eq_of_isPlain hpath
    simpa [Expr.tokens] using Fronted.names i is [] (by simp)
  · intro n least l hl
    cases l with
    | null => exact .of_word (by decide +kernel)
    | boolean b => cases b <;> exact .of_word (by decide +kernel)
    | number ds => exact .number ds []
    | text s => exact .text s [] (by simp)
    | spelled s => cases hl
  · intro n least l op r s hop _ _ _ hl _
    have hperiod : op.token ≠ .symbol "." := by
      obtain ⟨c, hc, -⟩ := Reader.mem_plainOperators hop
      have hall : ∀ op ∈ plainOperators, op.1.token ≠ .symbol "." := by decide
      exact hall _ hc
    exact hl.append (by simpa using hperiod)
  · intro n least e _ _ he
    exact he.append (by simp [Token.capital])
  · intro n least e he _
    obtain ⟨t, ts, htokens, -, hsymbol⟩ := Expr.exists_tokens he
    rw [Expr.tokens, htokens]
    refine .nested t _ ?_
    rintro rfl
    exact absurd (hsymbol _ rfl) (by decide)

theorem SelectItem.exists_tokens {d : Dialect} {n : Nat} {item : SelectItem}
    (h : item.isPlain d n = true) :
    ∃ t ts, item.tokens = t :: ts ∧ t.keyword ∉ headWords ∧
      ∀ s, t = .symbol s → s ∈ ["(", "*"] := by
  cases item with
  | expr e =>
    rw [SelectItem.isPlain, Bool.and_eq_true] at h
    obtain ⟨t, ts, htokens, ht, hsymbol⟩ := Expr.exists_tokens h.1
    exact ⟨t, ts, htokens, ht, fun s hs => by simp [hsymbol s hs]⟩
  | aliased e i =>
    simp only [SelectItem.isPlain, Bool.and_eq_true] at h
    obtain ⟨t, ts, htokens, ht, hsymbol⟩ := Expr.exists_tokens h.1.1
    exact ⟨t, _, by rw [SelectItem.tokens, htokens, List.cons_append], ht,
      fun s hs => by simp [hsymbol s hs]⟩
  | wildcard ps => exact ⟨_, _, rfl, by decide, by simp⟩

namespace Reader

variable {r : Rules} {σ : Setting} {ls rest : List Lexeme}

theorem iterateNames_apply {is : List Ident} (i : Ident)
    (h : Ahead rest (is.flatMap fun i => [.symbol ".", i.token]) ls)
    (hrest : headToken rest ≠ some (.symbol ".")) :
    starOrExpr.iterateNames [i] σ ls = .ok (none, rest) := by
  unfold starOrExpr.iterateNames
  rw [bind_apply]
  refine Eq.trans (congrArg (Except.bind · _) (Walks.loop (a := ([i], false))
    (walks_members (fun acc => (acc ++ [i], false)) (fun i : Ident => [.symbol ".", i.token])
      (P := fun _ => True) ?_ ?_ ?_ trivial h []) ?_)) ?_
  · intro acc j _ ls mid hj _
    obtain _ | ⟨_, _, _ | ⟨_, _, _ | _⟩⟩ := hj
    obtain ⟨k, hk⟩ := j.exists_token
    simp [hk]
  · simp
  · simp
  · simp [hrest]
  · simp

theorem starOrExpr_apply {ts : List Token} (hts : Fronted ts) (h : Ahead rest ts ls)
    (hrest : headToken rest ≠ some (.symbol ".")) :
    starOrExpr r σ ls = (r.expr 0 σ ls).map fun x => (.inr x.1, x.2) := by
  cases hts with
  | names i is us hus =>
    obtain ⟨mid, hname, hmid⟩ := h.exists_append
    obtain ⟨glued, ls', rfl, his⟩ := hname.exists_cons
    have hperiod : headToken mid ≠ some (.symbol ".") := by
      cases us with
      | nil =>
        cases hmid
        exact hrest
      | cons u us => rwa [hmid.headToken_eq]
    have hnames := iterateNames_apply (σ := σ) i his hperiod
    obtain ⟨k, hk⟩ := i.exists_token
    have hident := ident_apply (σ := σ) (i := i) glued ls'
    rw [hk] at hident ⊢
    simp [starOrExpr, hident, hnames]
  | text s us hus =>
    obtain ⟨glued, ls', rfl, hmid⟩ := h.exists_cons
    have hperiod : headToken ls' ≠ some (.symbol ".") := by
      cases us with
      | nil =>
        cases hmid
        exact hrest
      | cons u us => rwa [hmid.headToken_eq]
    have hnone : Ahead ls' (([] : Name).flatMap fun i => [.symbol ".", i.token]) ls' := .nil
    have hnames := iterateNames_apply (σ := σ) ⟨s, some '\''⟩ hnone hperiod
    simp [starOrExpr, hnames]
  | number ds us =>
    obtain ⟨glued, ls', rfl, hmid⟩ := h.exists_cons
    simp [starOrExpr]
  | nested t us ht =>
    obtain _ | ⟨_, glued, _ | ⟨_, glued', hmid⟩⟩ := h
    simp [starOrExpr, ht]

/-! ## Items -/

/-- A plain expression is not the bare word that introduces the relations. -/
theorem isFrom_of_isPlain {d : Dialect} {n least : Nat} {e : Expr}
    (h : e.isPlain d n least = true) : selectItem.isFrom e = false := by
  unfold selectItem.isFrom
  split
  · rename_i v
    rw [Bool.eq_false_iff]
    intro hfrom
    simp only [Expr.isPlain, Name.isPlain, Bool.and_eq_true, List.all_cons] at h
    refine Ident.keyword_notMem h.1.2.1 ?_
    change Text.keywordForm v ∈ reservedWords
    rw [Text.keywordForm_of_sameName_from hfrom]
    decide
  · rfl

/-- What may follow an item of a projection. -/
def itemEnds : List (Option Token) :=
  [none, some (.symbol ","), some (.symbol ")"), some (.symbol ";"), some (.capital "FROM"),
    some (.capital "WHERE")]

theorem itemAlias?_absent (h : headToken ls ∈ itemEnds) : itemAlias? σ ls = .ok (none, ls) := by
  have hends : ∀ d : Dialect, ∀ t ∈ itemEnds,
      isNoAlias (fun k => !(reservedForColumn d).contains k) t = true := by
    intro d
    cases d <;> decide
  exact alias?_absent (hends σ.dialect _ h)

theorem itemAlias?_apply {i : Ident} {glued : Bool} (h : Ahead rest [i.token] ls) :
    itemAlias? σ (⟨.capital "AS", glued⟩ :: ls) = .ok (some i, rest) := by
  obtain _ | ⟨_, glued', _ | _⟩ := h
  obtain ⟨k, hk⟩ := i.exists_token
  simp [itemAlias?, alias?, Token.capital, Token.keyword, hk]

theorem wildcardEdits_absent (h : headToken ls ∈ itemEnds) :
    wildcardEdits r σ ls = .ok ([.text "", .text ""], ls) := by
  have hwords := headKeyword_notMem ["ILIKE", "EXCLUDE", "EXCEPT", "REPLACE", "RENAME"]
    (by decide) h
  simp only [List.mem_cons, List.not_mem_nil, or_false, not_or] at hwords
  simp [wildcardEdits, exclusion?, hwords]

/-- Behind an expression only its alias is left to read. -/
theorem selectItem_of_expr {e : Expr} (hread : starOrExpr r σ ls = .ok (.inr e, rest))
    (hnames : (σ.dialect.features.equalsAlias && e.namesAnother) = false)
    (hfrom : selectItem.isFrom e = false) :
    selectItem r σ ls =
      (itemAlias? σ rest).map fun x => ((x.1.map (SelectItem.aliased e)).getD (.expr e), x.2) := by
  unfold selectItem
  simp only [bind_apply, hread, ok_bind, feature_apply]
  generalize σ.dialect.features.equalsAlias = equals at hnames
  split
  · simp [Expr.namesAnother] at hnames
  · simp only [hfrom, Bool.false_eq_true, if_false, bind_apply]
    cases halias : itemAlias? σ rest with
    | error fault => rfl
    | ok x =>
      obtain ⟨a, mid⟩ := x
      cases a <;> rfl

theorem selectItem_apply {n : Nat} {item : SelectItem} (hitem : item.isPlain σ.dialect n = true)
    (h : Ahead rest item.tokens ls) (hrest : headToken rest ∈ itemEnds) :
    selectItem (rules (n + 1)) σ ls = .ok (item, rest) := by
  have hends : ∀ t ∈ itemEnds, t ∈ closers ∧ t ≠ some (.symbol ".") := by decide
  obtain ⟨hcloses, hperiod⟩ := hends _ hrest
  cases item with
  | expr e =>
    rw [SelectItem.isPlain, Bool.and_eq_true, Bool.not_eq_true'] at hitem
    have hstar := starOrExpr_apply (r := rules (n + 1)) (σ := σ) (fronted_of_isPlain hitem.1) h
      hperiod
    rw [expr_apply hitem.1 h hcloses] at hstar
    rw [selectItem_of_expr hstar hitem.2 (isFrom_of_isPlain hitem.1), itemAlias?_absent hrest]
    rfl
  | aliased e i =>
    simp only [SelectItem.isPlain, Bool.and_eq_true, Bool.not_eq_true'] at hitem
    obtain ⟨⟨he, hnames⟩, -⟩ := hitem
    obtain ⟨mid, he', halias⟩ := h.exists_append
    obtain ⟨glued, ls', rfl, hi⟩ := halias.exists_cons
    have has : some (Token.capital "AS") ∈ closers := by decide
    have hstar := starOrExpr_apply (r := rules (n + 1)) (σ := σ) (fronted_of_isPlain he) he'
      (by simp [Token.capital])
    rw [expr_apply he he' has] at hstar
    rw [selectItem_of_expr hstar hnames (isFrom_of_isPlain he), itemAlias?_apply hi]
    rfl
  | wildcard ps =>
    obtain rfl := SelectItem.eq_of_isPlain hitem
    obtain _ | ⟨_, glued, _ | _⟩ := h
    simp [selectItem, starOrExpr, wildcardEdits_absent hrest]

/-! ## Lists -/

theorem ahead_commas {α : Type} {tokens : α → List Token} {P : List Lexeme → Prop} {as : List α}
    (hcomma : ∀ glued ls, P (⟨.symbol ",", glued⟩ :: ls)) (hrest : P rest)
    (h : Ahead rest ((as.map tokens).flatMap fun ts => .symbol "," :: ts) ls) : P ls := by
  rw [List.flatMap_map] at h
  refine ahead_members (fun a _ ls mid hls => ?_) hrest h
  obtain ⟨glued, ls', rfl, -⟩ := hls.exists_cons
  exact hcomma glued ls'

/-- Members behind commas are collected by a loop. -/
theorem loop_commas {α : Type} {step : List α → Reader (Option (List α))} (tokens : α → List Token)
    {P : List Lexeme → Prop} {as : List α}
    (hsome : ∀ acc, ∀ a ∈ as, ∀ glued ls mid, Ahead mid (tokens a) ls → P mid →
      step acc σ (⟨.symbol ",", glued⟩ :: ls) = .ok (some (a :: acc), mid))
    (hnone : ∀ acc, step acc σ rest = .ok (none, rest))
    (hcomma : ∀ glued ls, P (⟨.symbol ",", glued⟩ :: ls)) (hrest : P rest)
    (h : Ahead rest ((as.map tokens).flatMap fun ts => .symbol "," :: ts) ls) :
    loop step [] σ ls = .ok (as.reverse, rest) := by
  rw [List.flatMap_map] at h
  refine loop_members _ (fun acc a ha ls mid hls hmid => ?_) hnone (by simp)
    (fun a _ ls mid hls => ?_) hrest h
  · obtain ⟨glued, ls', rfl, hls'⟩ := hls.exists_cons
    exact hsome acc a ha glued ls' mid hls' hmid
  · obtain ⟨glued, ls', rfl, -⟩ := hls.exists_cons
    exact hcomma glued ls'

/-- A list is read if each of its members is in front of a comma and in front of its end. -/
theorem commaList_apply {α : Type} {p : Reader α} (tokens : α → List Token)
    {P : List Lexeme → Prop} {as : List α} (hne : as ≠ [])
    (hread : ∀ a ∈ as, ∀ ls mid, Ahead mid (tokens a) ls → P mid → p σ ls = .ok (a, mid))
    (hcomma : ∀ glued ls, P (⟨.symbol ",", glued⟩ :: ls)) (hrest : P rest)
    (hend : headToken rest ≠ some (.symbol ","))
    (h : Ahead rest (Token.separated "," (as.map tokens)) ls) :
    commaList p σ ls = .ok (as, rest) := by
  cases as with
  | nil => exact absurd rfl hne
  | cons a as =>
    simp only [List.forall_mem_cons] at hread
    obtain ⟨mid, ha, has⟩ := h.exists_append
    unfold commaList
    rw [bind_apply, hread.1 ls mid ha (ahead_commas hcomma hrest has), ok_bind, bind_apply,
      loop_commas tokens ?_ ?_ hcomma hrest has]
    · simp
    · intro acc b hb glued ls mid hls hmid
      simp [hread.2 b hb ls mid hls hmid]
    · simp [hend]

/-! ## The projection -/

/-- No item of a projection is taken for the end of it. -/
theorem endsList_apply {n : Nat} {item : SelectItem} {mid : List Lexeme}
    (hcomma : σ.dialect.features.projectionTrailingComma = true)
    (hitem : item.isPlain σ.dialect n = true) (h : Ahead mid item.tokens ls) :
    endsList σ ls = .ok (false, ls) := by
  obtain ⟨t, ts, htokens, ht, hsymbol⟩ := SelectItem.exists_tokens hitem
  rw [htokens] at h
  obtain ⟨glued, ls', rfl, -⟩ := h.exists_cons
  have hwords : ∀ d : Dialect, d.features.projectionTrailingComma = true →
      ∀ k ∈ reservedForColumn d, k ∈ headWords := by
    intro d
    cases d <;> decide
  cases t with
  | word v q k =>
    have hk : k ∉ reservedForColumn σ.dialect := fun hk => ht (hwords _ hcomma _ hk)
    simp [endsList, hk]
  | symbol s =>
    have hs := hsymbol s rfl
    simp only [List.mem_cons, List.not_mem_nil, or_false] at hs
    rcases hs with rfl | rfl <;> simp [endsList]
  | _ => simp [endsList]

theorem projection_apply {n : Nat} {items : List SelectItem} (hne : items ≠ [])
    (hitems : ∀ item ∈ items, item.isPlain σ.dialect n = true)
    (h : Ahead rest (Token.separated "," (items.map SelectItem.tokens)) ls)
    (hrest : headToken rest ∈ itemEnds) (hend : headToken rest ≠ some (.symbol ",")) :
    projection (rules (n + 1)) σ ls = .ok (items, rest) := by
  cases items with
  | nil => exact absurd rfl hne
  | cons item items =>
    simp only [List.forall_mem_cons] at hitems
    obtain ⟨mid, hitem, hrests⟩ := h.exists_append
    have hcomma : some (Token.symbol ",") ∈ itemEnds := by decide
    have hmid := ahead_commas (P := fun ls => headToken ls ∈ itemEnds) (fun _ _ => hcomma) hrest
      hrests
    have hfrom : headKeyword ls ≠ "FROM" := by
      obtain ⟨t, ts, htokens, ht, -⟩ := SelectItem.exists_tokens hitems.1
      rw [htokens] at hitem
      rw [headKeyword, hitem.headToken_eq]
      intro (hfrom : t.keyword = "FROM")
      rw [hfrom] at ht
      exact ht (by decide)
    unfold projection
    rw [bind_apply, read_apply, ok_bind]
    dsimp only
    rw [bind_apply, peekKeyword_apply, ok_bind, ite_apply, if_neg (by simp [hfrom]), bind_apply,
      selectItem_apply hitems.1 hitem hmid, ok_bind, bind_apply,
      loop_commas SelectItem.tokens (P := fun ls => headToken ls ∈ itemEnds) ?_ ?_
        (fun _ _ => hcomma) hrest hrests]
    · simp
    · intro acc item' hitem' glued ls mid hls hmid
      have hread := selectItem_apply (hitems.2 item' hitem') hls hmid
      by_cases hfeature : σ.dialect.features.projectionTrailingComma = true
      · simp [hread, hfeature, endsList_apply hfeature (hitems.2 item' hitem') hls]
      · simp [hread, hfeature]
    · simp [hend]

/-! ## Clauses that are missing -/

theorem distinct?_absent (hall : headKeyword ls ≠ "ALL") (hdistinct : headKeyword ls ≠ "DISTINCT") :
    distinct? r σ ls = .ok ([], ls) := by
  simp [distinct?, hall, hdistinct]

theorem top?_absent (h : headKeyword ls ≠ "TOP") : top? r σ ls = .ok ([], ls) := by
  simp [top?, h]

theorem exclusion?_absent (h : headKeyword ls ≠ "EXCLUDE") : exclusion? σ ls = .ok ("", ls) := by
  simp [exclusion?, h]

theorem lateralViews_absent (h : headKeyword ls ≠ "LATERAL") :
    lateralViews r σ ls = .ok ([], ls) :=
  loop_of_none (by simp [keywords?_of_ne h])

theorem behind?_absent {α : Type} {k : String} {p : Reader α} (h : headKeyword ls ≠ k) :
    behind? k p σ ls = .ok (none, ls) := by
  simp [behind?, h]

theorem wordExpr?_absent {k : String} (h : headKeyword ls ≠ k) :
    wordExpr? r k σ ls = .ok ([], ls) := by
  simp [wordExpr?, behind?_absent h]

theorem listBehind?_absent {k : String} {ks : List String} {p : Reader (List Piece)}
    (h : headKeyword ls ≠ k) : listBehind? (k :: ks) p σ ls = .ok ([], ls) := by
  simp [listBehind?, keywords?_of_ne h]

theorem groupBy?_absent (h : headKeyword ls ≠ "GROUP") : groupBy? r σ ls = .ok ([], ls) := by
  simp [groupBy?, keywords?_of_ne h]

theorem windowsAndQualify_absent (hwindow : headKeyword ls ≠ "WINDOW")
    (hqualify : headKeyword ls ≠ "QUALIFY") :
    windowsAndQualify r σ ls = .ok (([], [], false), ls) := by
  simp [windowsAndQualify, hwindow, wordExpr?_absent hqualify]

theorem connectBy?_absent (hconnect : headKeyword ls ≠ "CONNECT")
    (hstart : headKeyword ls ≠ "START") : connectBy? r σ ls = .ok ([], ls) := by
  simp [connectBy?, hconnect, hstart]

/-! ## Blocks -/

/-- What may follow a block. -/
def blockEnds : List (Option Token) :=
  [none, some (.symbol ";")]

theorem headKeyword_of_blockEnds (h : headToken ls ∈ blockEnds) : headKeyword ls = "" := by
  have hall : ∀ t ∈ blockEnds, (t.map Token.keyword).getD "" = "" := by decide
  exact hall _ h

theorem selection_apply {n : Nat} {selection : Option Expr}
    (hplain : selection.all (·.isPlain σ.dialect n 0) = true)
    (h : Ahead rest ((selection.map fun e => .capital "WHERE" :: e.tokens).getD []) ls)
    (hrest : headToken rest ∈ blockEnds) :
    behind? "WHERE" ((rules (n + 1)).expr 0) σ ls = .ok (selection, rest) := by
  cases selection with
  | none =>
    cases h
    exact behind?_absent (by simp [headKeyword_of_blockEnds hrest])
  | some e =>
    obtain ⟨glued, ls', rfl, he⟩ := h.exists_cons
    have hends : ∀ t ∈ blockEnds, t ∈ closers := by decide
    have hread := expr_apply hplain he (hends _ hrest)
    simp [behind?, Token.capital, Token.keyword, hread]

theorem sources_apply {n : Nat} {sources : List JoinTree}
    (hplain : ∀ t ∈ sources, t.isPlain σ.dialect n = true)
    (h : Ahead rest (if sources.isEmpty then [] else
      .capital "FROM" :: Token.separated "," (sources.map JoinTree.tokens)) ls)
    (hrest : headToken rest ∈ some (.capital "WHERE") :: blockEnds) :
    ∃ ts, behind? "FROM" (commaList (joinTree (rules (n + 1)))) σ ls = .ok (ts, rest) ∧
      ts.getD [] = sources := by
  have hends : ∀ t ∈ some (Token.capital "WHERE") :: blockEnds, t ∈ sourceEnds ∧
      t ≠ some (.symbol ",") ∧ (t.map Token.keyword).getD "" ≠ "FROM" := by decide
  obtain ⟨hsource, hcomma, hfrom⟩ := hends _ hrest
  cases sources with
  | nil =>
    cases h
    exact ⟨none, behind?_absent hfrom, rfl⟩
  | cons t ts =>
    obtain ⟨glued, ls', rfl, hlist⟩ := h.exists_cons
    have hcommas : some (Token.symbol ",") ∈ sourceEnds := by decide
    have hread := commaList_apply (p := joinTree (rules (n + 1))) JoinTree.tokens
      (P := fun ls => headToken ls ∈ sourceEnds) (List.cons_ne_nil t ts)
      (fun t ht ls mid hls hmid => joinTree_apply (hplain t ht) hls hmid)
      (fun _ _ => hcommas) hsource hcomma hlist
    exact ⟨some (t :: ts), by simp [behind?, Token.capital, Token.keyword, hread], rfl⟩

theorem selectFrom_apply {n : Nat} {s : Select} (hs : s.isPlain σ.dialect n = true)
    (h : Ahead rest s.tokens ls) (hrest : headToken rest ∈ blockEnds) :
    selectFrom (rules (n + 1)) none σ ls = .ok (s, rest) := by
  obtain ⟨items, sources, selection, rfl, hne, hitems, hsources, hselection⟩ :=
    Select.eq_of_isPlain hs
  obtain ⟨mid', hfront, hwhere⟩ := h.exists_append
  obtain ⟨mid, hselect, hfrom⟩ := hfront.exists_append
  obtain ⟨glued, ls', rfl, hlist⟩ := hselect.exists_cons
  have hmid' : headToken mid' ∈ some (.capital "WHERE") :: blockEnds := by
    cases selection with
    | none =>
      cases hwhere
      exact List.mem_cons_of_mem _ hrest
    | some e =>
      obtain ⟨glued', ls'', rfl, -⟩ := hwhere.exists_cons
      simp
  have hmid : headToken mid ∈ some (.capital "FROM") :: some (.capital "WHERE") :: blockEnds := by
    cases sources with
    | nil =>
      cases hfrom
      exact List.mem_cons_of_mem _ hmid'
    | cons t ts =>
      obtain ⟨glued', ls'', rfl, -⟩ := hfrom.exists_cons
      simp
  have hends : ∀ t ∈ some (Token.capital "FROM") :: some (.capital "WHERE") :: blockEnds,
      t ∈ itemEnds ∧ t ≠ some (.symbol ",") := by decide
  obtain ⟨hitemEnds, hcomma⟩ := hends _ hmid
  have hfirst : headKeyword ls' ∉ headWords := by
    obtain ⟨item, items, rfl⟩ := List.exists_cons_of_ne_nil hne
    obtain ⟨t, ts, htokens, ht, -⟩ := SelectItem.exists_tokens (hitems item (by simp))
    obtain ⟨next, hitem, -⟩ := hlist.exists_append
    rw [htokens] at hitem
    rwa [headKeyword, hitem.headToken_eq]
  have hnext := headKeyword_notMem ["EXCLUDE", "INTO"] (by decide) hmid
  have hbehind := headKeyword_notMem ["LATERAL", "PREWHERE"] (by decide) hmid'
  simp only [headWords, clauseWords, reservedEverywhere, List.mem_cons, List.not_mem_nil, or_false,
    not_or, List.mem_append] at hfirst hnext hbehind
  have hkeyword := headKeyword_of_blockEnds hrest
  have hprojection := projection_apply hne hitems hlist hitemEnds hcomma
  obtain ⟨ts, hsource, hts⟩ := sources_apply hsources hfrom hmid'
  have hselected := selection_apply hselection hwhere hrest
  unfold selectFrom
  simp [Token.capital, Token.keyword, hfirst, hnext, hbehind, hkeyword, distinct?_absent,
    top?_absent, exclusion?_absent, lateralViews_absent, wordExpr?_absent, groupBy?_absent,
    listBehind?_absent, windowsAndQualify_absent, connectBy?_absent, hprojection, hsource, hts,
    hselected]

/-- **A plain block is read from its tokens.** -/
theorem select_apply {n : Nat} {s : Select} (hs : s.isPlain σ.dialect n = true)
    (h : Ahead rest s.tokens ls) (hrest : headToken rest ∈ blockEnds) :
    select (rules (n + 1)) σ ls = .ok (s, rest) := by
  have hread := selectFrom_apply hs h hrest
  obtain ⟨ts, hts⟩ := s.exists_tokens
  rw [hts] at h
  obtain ⟨glued, ls', rfl, -⟩ := h.exists_cons
  simp [select, Token.capital, Token.keyword] at hread ⊢
  exact hread

end Reader
end RowPolicy.Sql
