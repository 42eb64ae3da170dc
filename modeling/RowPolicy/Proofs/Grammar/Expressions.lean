import RowPolicy.Proofs.Grammar.Operands

/-!
# Reading expressions

An expression is read as an operand and the operators behind it, as long as they bind tighter than
asked for. `Comes` follows this loop: an operand comes first, and an operator takes what has come
for its left side (`Comes.operator`). By induction on a plain expression it comes from its own
tokens (`comes_expr`), and it is what is read if the operator behind it binds no tighter.
-/

namespace RowPolicy.Sql

variable {d : Dialect}

/-! ## Strengths -/

/-- How tightly the operator that a token is binds, zero where it is none. -/
def Dialect.followStrength (d : Dialect) : Option Token → Nat
  | some (.word _ _ k) =>
    ((keywordStrength d.features.notNullOperator false k "" "").map d.strength).getD 0
  | some (.symbol s) => ((symbolStrength s).map d.strength).getD 0
  | _ => 0

theorem followStrength_le_period {t : Option Token} (h : t ∈ followers) :
    d.followStrength t ≤ d.strength .period := by
  have hall : ∀ t ∈ followers, d.followStrength t ≤ d.strength .period := by
    cases d <;> decide
  exact hall t h

/-- Whether the strength of a token rests on the token alone. -/
def bindsAlone : Option Token → Bool
  | none => true
  | some (.word _ _ k) => !(["AT", "NOT", "COLLATE"].contains k)
  | some (.symbol s) => !("[" :: customSymbols).contains s
  | some _ => false

theorem keywordStrength_of_alone {notNull inColumn : Bool} {k k1 k2 : String}
    (hk : k ∉ ["AT", "NOT", "COLLATE"]) :
    keywordStrength notNull inColumn k k1 k2 = keywordStrength notNull false k "" "" := by
  simp only [List.mem_cons, List.not_mem_nil, or_false, not_or] at hk
  unfold keywordStrength
  split
  case h_4 => exact absurd rfl hk.1
  case h_5 => exact absurd rfl hk.2.1
  all_goals simp [*]

namespace Reader
variable {r : Rules} {σ : Setting} {ls rest : List Lexeme} {i : Ident} {is : List Ident}

theorem nextStrength_of_alone (h : bindsAlone (headToken ls) = true) :
    nextStrength σ ls = .ok (σ.dialect.followStrength (headToken ls), ls) := by
  cases ls with
  | nil => rfl
  | cons l ls =>
    obtain ⟨t, glued⟩ := l
    cases t with
    | word v q k =>
      have hk : k ∉ ["AT", "NOT", "COLLATE"] := by simpa [bindsAlone] using h
      have hcollate : k ≠ "COLLATE" := by simp_all
      simp [nextStrength, keywordAt_apply, keywordStrength_of_alone hk, hcollate,
        Dialect.followStrength]
    | symbol s =>
      have hs : s ∉ "[" :: customSymbols := by simpa [bindsAlone] using h
      rw [List.mem_cons, not_or] at hs
      simp [nextStrength, hs, Dialect.followStrength]
    | _ => simp [bindsAlone] at h

theorem nextStrength_apply (h : headToken ls ∈ followers) :
    nextStrength σ ls = .ok (σ.dialect.followStrength (headToken ls), ls) := by
  have hall : ∀ t ∈ followers, bindsAlone t = true := by decide
  exact nextStrength_of_alone (hall _ h)

/-! ## Accesses -/

theorem identsOf?_dots (is : List Ident) :
    identsOf? (is.map fun i => .dot (.column [i])) = some is := by
  induction is with
  | nil => rfl
  | cons i is ih => simp [identsOf?, identOf?, ih]

theorem withAccesses_dots (i : Ident) (is : List Ident) (σ : Setting) (ls : List Lexeme) :
    withAccesses (.column [i]) (is.map fun i => .dot (.column [i])) σ ls =
      .ok (.column (i :: is), ls) := by
  simp [withAccesses, identOf?, identsOf?_dots]

/-- No access follows where the operand ends. -/
theorem accesses_of_endsOperand {e : Expr} (hls : endsOperand (headToken ls) = true) :
    accesses r e σ ls = withAccesses e [] σ ls := by
  have hdot := ne_symbol_of_endsOperand hls "." (by simp)
  have hbracket := ne_symbol_of_endsOperand hls "[" (by simp)
  have hopen := ne_symbol_of_endsOperand hls "(" (by simp)
  unfold accesses
  rw [bind_apply, loop_of_none (by simp [hdot, hbracket])]
  simp [outerJoinMarkNext_apply hopen]

/-- The names behind the first are read as one column. -/
theorem accesses_of_name {p : Ident} {ps : List Ident} {glued glued' : Bool}
    (hread : r.expr (σ.dialect.strength .period) σ (⟨p.token, glued'⟩ :: ls) =
      .ok (.column (p :: ps), rest))
    (hlt : rest.length ≤ ls.length) (hrest : endsOperand (headToken rest) = true) :
    accesses r (.column [i]) σ (⟨.symbol ".", glued⟩ :: ⟨p.token, glued'⟩ :: ls) =
      .ok (.column (i :: p :: ps), rest) := by
  have hdot := ne_symbol_of_endsOperand hrest "." (by simp)
  have hbracket := ne_symbol_of_endsOperand hrest "[" (by simp)
  have hopen := ne_symbol_of_endsOperand hrest "(" (by simp)
  have hdots := withAccesses_dots i (p :: ps) σ rest
  obtain ⟨k, hk⟩ := p.exists_token
  unfold accesses
  rw [bind_apply, Walks.loop (b := ((p :: ps).map fun i => .dot (.column [i]), false))
    (.head ?_ ?_ (.refl _ rest)) ?_]
  · simpa [outerJoinMarkNext_apply hopen] using hdots
  · rw [hk] at hread ⊢
    simp [hread]
  · simp only [List.length_cons]
    omega
  · simp [hdot, hbracket]

/-! ## Operators -/

/-- The operator behind an expression with its right side, if it binds tighter than `least`. -/
def infixStep (r : Rules) (least : Nat) (e : Expr) : Reader (Option Expr) := do
  let s ← nextStrength
  if s ≤ least || (← peekSymbol ".") then return none
  else return some (← infixExpr r e s)

theorem exprAbove_eq (r : Rules) (least : Nat) :
    exprAbove r least = operand r >>= fun e => accesses r e >>= loop (infixStep r least) :=
  rfl

/-- Whether an expression is among those that are read on the way where operators bind tighter than
`least`: an operand, and operators behind it. -/
def Comes (r : Rules) (least : Nat) (σ : Setting) (ls : List Lexeme) (e : Expr)
    (rest : List Lexeme) : Prop :=
  ∃ x mid, (operand r >>= accesses r) σ ls = .ok (x, mid) ∧
    Walks (infixStep r least) σ x mid e rest

/-- What comes is what is read if the next operator binds no tighter. -/
theorem Comes.exprAbove {least : Nat} {e : Expr} (h : Comes r least σ ls e rest)
    (hrest : headToken rest ∈ followers)
    (hleast : σ.dialect.followStrength (headToken rest) ≤ least) :
    exprAbove r least σ ls = .ok (e, rest) := by
  obtain ⟨x, mid, hx, hwalks⟩ := h
  have hstop : infixStep r least e σ rest = .ok (none, rest) := by
    simp [infixStep, nextStrength_apply hrest, hleast]
  rw [exprAbove_eq, ← bind_assoc, bind_apply, hx, ok_bind, hwalks.loop hstop]

/-- An operator that binds tighter takes what comes for its left side. -/
theorem Comes.operator {least s : Nat} {e e' : Expr} {mid : List Lexeme}
    (h : Comes r least σ ls e mid)
    (hmid : headToken mid ∈ followers) (hs : σ.dialect.followStrength (headToken mid) = s)
    (hleast : least < s) (hread : infixExpr r e s σ mid = .ok (e', rest))
    (hlt : rest.length < mid.length) : Comes r least σ ls e' rest := by
  obtain ⟨x, mid', hx, hwalks⟩ := h
  have hdot := ne_symbol_of_endsOperand (endsOperand_of_mem_followers hmid) "." (by simp)
  refine ⟨x, mid', hx, hwalks.snoc ?_ hlt⟩
  simp [infixStep, nextStrength_apply hmid, hs, Nat.not_le.mpr hleast, hdot, hread]

theorem isExpr_null {e : Expr} {glued : Bool} :
    isExpr r e σ (⟨.capital "NULL", glued⟩ :: ls) = .ok (.isNull e, ls) := by
  simp [isExpr, Token.capital, Token.keyword]

theorem infixExpr_null {e : Expr} {s : Nat} {glued glued' : Bool} :
    infixExpr r e s σ (⟨.capital "IS", glued⟩ :: ⟨.capital "NULL", glued'⟩ :: ls) =
      .ok (.isNull e, ls) := by
  have hnull : isExpr r e σ (⟨.capital "NULL", glued'⟩ :: ls) = .ok (.isNull e, ls) := isExpr_null
  simp only [Token.capital] at hnull
  simp [infixExpr, Token.capital, hnull]

theorem rightSide_apply {left right : Expr} {op : BinaryOp} {s : Nat}
    (hls : headKeyword ls ∉ ["ANY", "ALL", "SOME"])
    (hread : r.expr s σ ls = .ok (right, rest)) :
    rightSide r left op s σ ls = .ok (.binary left op right, rest) := by
  simp [rightSide, keywordOf?_of_notMem hls, hread]

theorem infixExpr_symbol {left : Expr} {op : BinaryOp} {sym : String} {s : Nat} {glued : Bool}
    (hop : symbolOperator? σ.dialect sym = some op) :
    infixExpr r left s σ (⟨.symbol sym, glued⟩ :: ls) = rightSide r left op s σ ls := by
  simp [infixExpr, hop]

theorem infixExpr_operator {left right : Expr} {op : BinaryOp} {c : Strength} {s : Nat}
    {glued : Bool} (hop : (op, c) ∈ plainOperators)
    (hread : rightSide r left op s σ ls = .ok (.binary left op right, rest)) :
    infixExpr r left s σ (⟨op.token, glued⟩ :: ls) = .ok (.binary left op right, rest) := by
  rw [← hread]
  simp only [plainOperators, List.mem_cons, List.not_mem_nil, or_false, Prod.mk.injEq] at hop
  rcases hop with ⟨rfl, -⟩ | ⟨rfl, -⟩ | ⟨rfl, -⟩ | hop
  · rfl
  · rfl
  · rfl
  -- the other operators are symbols
  · rcases hop with ⟨rfl, -⟩ | ⟨rfl, -⟩ | ⟨rfl, -⟩ | ⟨rfl, -⟩ | ⟨rfl, -⟩ | ⟨rfl, -⟩ | ⟨rfl, -⟩ |
      ⟨rfl, -⟩ | ⟨rfl, -⟩ | ⟨rfl, -⟩ <;> exact infixExpr_symbol rfl

theorem mem_plainOperators {d : Dialect} {op : BinaryOp} {s : Nat} (h : op.strength? d = some s) :
    ∃ c, (op, c) ∈ plainOperators ∧ d.strength c = s := by
  obtain ⟨c, hc, rfl⟩ := Option.map_eq_some_iff.mp h
  obtain ⟨front, back, hlist, -⟩ := List.lookup_eq_some_iff.mp hc
  exact ⟨c, by simp [hlist], rfl⟩

theorem follows_operator {d : Dialect} {op : BinaryOp} {s : Nat} (h : op.strength? d = some s) :
    some op.token ∈ followers ∧ d.followStrength (some op.token) = s := by
  obtain ⟨c, hc, rfl⟩ := mem_plainOperators h
  refine ⟨?_, ?_⟩
  · simp only [followers, List.mem_cons, List.mem_append, List.cons_append]
    exact .inr (.inl (.inl (List.mem_map_of_mem (f := fun op => some op.1.token) hc)))
  · have hall : ∀ op ∈ plainOperators, d.followStrength (some op.1.token) = d.strength op.2 := by
      cases d <;> decide
    exact hall _ hc

end Reader

/-! ## Expressions -/

/-- What may follow an expression where it is read in full. -/
def closers : List (Option Token) :=
  none :: [",", ")", ";"].map (fun s => some (.symbol s)) ++
    ["AS", "FROM", "WHERE", "JOIN", "INNER", "LEFT", "RIGHT", "FULL", "CROSS"].map
      (fun k => some (.capital k))

/-- The words that would begin something else where an expression may stand. -/
def headWords : List String :=
  "ANY" :: clauseWords

theorem Literal.exists_tokens {d : Dialect} {l : Literal} (h : l.isPlain d = true) :
    ∃ t ts, l.tokens = t :: ts ∧ t.keyword ∉ headWords ∧ ∀ s, t = .symbol s → s = "(" := by
  cases l with
  | null => exact ⟨_, _, rfl, by decide, nofun⟩
  | boolean b => cases b <;> exact ⟨_, _, rfl, by decide, nofun⟩
  | number ds => exact ⟨_, _, rfl, show "" ∉ headWords by decide, nofun⟩
  | text s => exact ⟨_, _, rfl, show "" ∉ headWords by decide, nofun⟩
  | spelled s => cases h

theorem Expr.exists_tokens {d : Dialect} {n least : Nat} {e : Expr}
    (h : e.isPlain d n least = true) :
    ∃ t ts, e.tokens = t :: ts ∧ t.keyword ∉ headWords ∧ ∀ s, t = .symbol s → s = "(" := by
  refine Expr.isPlain_induction (motive := fun _ _ e =>
    ∃ t ts, e.tokens = t :: ts ∧ t.keyword ∉ headWords ∧ ∀ s, t = .symbol s → s = "(")
    ?_ ?_ ?_ ?_ ?_ h
  · intro n least path hpath _
    obtain ⟨i, is, rfl, hall⟩ := Name.eq_of_isPlain hpath
    have hwords : ∀ k ∈ headWords, k ∈ reservedWords := by decide
    exact ⟨_, _, rfl, fun hk => Ident.keyword_notMem (hall i (by simp)) (hwords _ hk), by simp⟩
  · exact fun n least l hl => Literal.exists_tokens hl
  · intro n least l op r s _ _ _ _ ⟨t, ts, hl, ht⟩ _
    exact ⟨t, _, by rw [Expr.tokens, hl, List.cons_append], ht⟩
  · intro n least e _ _ ⟨t, ts, he, ht⟩
    exact ⟨t, _, by rw [Expr.tokens, he, List.cons_append], ht⟩
  · exact fun n least e _ _ => ⟨_, _, rfl, by decide, by simp⟩

namespace Reader

variable {σ : Setting} {ls rest : List Lexeme}

theorem comes_column {n : Nat} {i : Ident} {is : List Ident}
    (hplain : ∀ j ∈ i :: is, j.isApart σ.dialect reservedWords = true) (hn : is.length ≤ n)
    (h : Ahead rest (Name.tokens (i :: is)) ls) (hrest : headToken rest ∈ followers) :
    (operand (rules n) >>= accesses (rules n)) σ ls = .ok (.column (i :: is), rest) := by
  have hends := endsOperand_of_mem_followers hrest
  have hi := Ident.keyword_notMem (hplain i (by simp))
  induction is generalizing i n ls with
  | nil =>
    obtain ⟨glued, ls', rfl, htail⟩ := h.exists_cons
    cases htail
    rw [bind_apply, operand_of_name h hi hends, ok_bind, accesses_of_endsOperand hends]
    exact withAccesses_dots i [] σ rest
  | cons p ps ih =>
    obtain ⟨n, rfl⟩ := Nat.exists_eq_add_one_of_ne_zero
      (Nat.ne_of_gt (Nat.lt_of_lt_of_le (Nat.succ_pos _) hn))
    obtain ⟨glued, ls', rfl, htail⟩ := h.exists_cons
    obtain _ | ⟨_, glued', _ | ⟨_, glued'', hps⟩⟩ := htail
    have hname := ih (fun j hj => hplain j (List.mem_cons_of_mem i hj)) (Nat.le_of_succ_le_succ hn)
      (.cons _ glued'' hps) (Ident.keyword_notMem (hplain p (by simp)))
    have hread := Comes.exprAbove ⟨_, _, hname, .refl _ rest⟩ hrest (followStrength_le_period hrest)
    rw [bind_apply, operand_of_name h hi hends, ok_bind]
    refine accesses_of_name hread ?_ hends
    rw [hps.length_eq]
    omega

/-- **A plain expression is read from its tokens**, if no operator behind it binds tighter than what
it is read for. -/
theorem comes_expr {n m least : Nat} {e : Expr} (h : e.isPlain σ.dialect n m = true)
    (hleast : least ≤ m) (hls : Ahead rest e.tokens ls) (hrest : headToken rest ∈ followers)
    (hm : σ.dialect.followStrength (headToken rest) ≤ m + 1) :
    Comes (rules n) least σ ls e rest := by
  refine Expr.isPlain_induction (motive := fun n m e => ∀ least ls rest, least ≤ m →
    Ahead rest e.tokens ls → headToken rest ∈ followers →
      σ.dialect.followStrength (headToken rest) ≤ m + 1 → Comes (rules n) least σ ls e rest)
    ?_ ?_ ?_ ?_ ?_ h least ls rest hleast hls hrest hm
  all_goals clear h hleast hls hrest hm
  · intro n m path hpath hlength least ls rest _ hls hrest _
    obtain ⟨i, is, rfl, hall⟩ := Name.eq_of_isPlain hpath
    exact ⟨_, _, comes_column hall (Nat.le_of_succ_le_succ hlength) hls hrest, .refl _ rest⟩
  · intro n m l hl least ls rest _ hls hrest _
    have hends := endsOperand_of_mem_followers hrest
    refine ⟨.literal l, rest, ?_, .refl _ rest⟩
    rw [bind_apply, operand_of_literal hl hls hends, ok_bind, accesses_of_endsOperand hends]
    rfl
  · -- the left side comes first; the operator then takes it and the right side
    intro n m l op r s hop hs hl hr ihl ihr least ls rest hleast hls hrest hm
    obtain ⟨mid, hmid, hop'⟩ := hls.exists_append
    obtain _ | ⟨_, glued, hright⟩ := hop'
    obtain ⟨hfollows, hstrength⟩ := follows_operator hop
    have hcomes := ihl least ls _ (by omega) hmid hfollows
      (by rw [headToken_cons, hstrength]; omega)
    have hread := (ihr s _ rest (Nat.le_refl s) hright hrest (by omega)).exprAbove hrest (by omega)
    obtain ⟨t, ts, hfirst, ht, -⟩ := Expr.exists_tokens hr
    rw [hfirst] at hright
    obtain ⟨c, hc, -⟩ := mem_plainOperators hop
    refine hcomes.operator hfollows hstrength (by omega)
      (infixExpr_operator hc (rightSide_apply ?_ hread)) ?_
    · rw [headKeyword, hright.headToken_eq]
      simp_all [headWords, clauseWords, reservedEverywhere]
    · have hlength := hright.length_eq
      simp only [List.length_cons] at hlength ⊢
      omega
  · intro n m e hs he ih least ls rest hleast hls hrest hm
    obtain ⟨mid, hmid, hnull⟩ := hls.exists_append
    obtain _ | ⟨_, glued, _ | ⟨_, glued', _ | _⟩⟩ := hnull
    have hstrength : σ.dialect.followStrength (some (.capital "IS")) = σ.dialect.strength .is := rfl
    have hfollows : some (Token.capital "IS") ∈ followers := by decide
    have hcomes := ih least ls _ (by omega) hmid hfollows
      (by rw [headToken_cons, hstrength]; omega)
    refine hcomes.operator hfollows hstrength (by omega) infixExpr_null ?_
    simp only [List.length_cons]
    omega
  · intro n m e he ih least ls rest _ hls hrest _
    have hends := endsOperand_of_mem_followers hrest
    obtain ⟨t, ts, hfirst, ht, -⟩ := Expr.exists_tokens he
    obtain _ | ⟨_, glued, hinner⟩ := hls
    obtain ⟨mid, hmid, hclose⟩ := hinner.exists_append
    obtain _ | ⟨_, glued', _ | _⟩ := hclose
    have hfollows : some (Token.symbol ")") ∈ followers := by decide
    have hstrength : σ.dialect.followStrength (some (.symbol ")")) = 0 := rfl
    have hcomes := ih 0 _ _ (Nat.le_refl 0) hmid hfollows
      (by rw [headToken_cons, hstrength]; omega)
    have hread := hcomes.exprAbove hfollows (Nat.le_of_eq hstrength)
    refine ⟨.nested e, rest, ?_, .refl _ rest⟩
    rw [hfirst] at hmid
    rw [bind_apply, operand_of_nested ?_ hread hends, ok_bind, accesses_of_endsOperand hends]
    · rfl
    · rw [headKeyword, hmid.headToken_eq]
      simp_all [headWords, clauseWords, reservedEverywhere]

/-- A plain expression is read in full from its tokens. -/
theorem expr_apply {n : Nat} {e : Expr} (h : e.isPlain σ.dialect n 0 = true)
    (hls : Ahead rest e.tokens ls) (hrest : headToken rest ∈ closers) :
    (rules (n + 1)).expr 0 σ ls = .ok (e, rest) := by
  have hall : ∀ t ∈ closers, t ∈ followers ∧ σ.dialect.followStrength t = 0 := by
    have hdialects : ∀ d : Dialect, ∀ t ∈ closers, t ∈ followers ∧ d.followStrength t = 0 := by
      intro d
      cases d <;> decide
    exact hdialects σ.dialect
  obtain ⟨hfollows, hstrength⟩ := hall _ hrest
  have hcomes := comes_expr h (Nat.le_refl 0) hls hfollows (by omega)
  exact hcomes.exprAbove hfollows (Nat.le_of_eq hstrength)

end Reader

end RowPolicy.Sql
