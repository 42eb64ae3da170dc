import RowPolicy.Proofs.Lexing.Readings
import RowPolicy.Sql.Grammar

/-!
# Predicates between AND

A predicate is joined to others with `AND`, and only one that is a disjunction at its top is put
between parentheses. That is enough if and only if no other one shows an `OR` or an `XOR` outside of
brackets (`Expr.isConjunct_conjoinAll_iff`): then a row passes what is printed if and only if it
passes each predicate, in every engine where only `OR` and `XOR` bind weaker than `AND`. The
predicates that policies write show none (`prints_hasValue`). Those that are read may: an operand of
a comparison can be a disjunction that no parentheses enclose (`not_isConjunct_conjoinAll_xor`).

What is printed is judged by the tokens that it is read back as. `Dialect.Prints` is the condition
under which they are the tokens of the predicates: each one is read alike wherever it stands.
-/

namespace RowPolicy.Sql

/-! ## Brackets -/

/-- What encloses tokens. -/
inductive Bracket where
  | round
  | square
  | curly
  /-- `CASE .. END` -/
  | case
  deriving DecidableEq

namespace Token

/-- What a token opens. -/
def opens? (t : Token) : Option Bracket :=
  if t = .symbol "(" then some .round
  else if t = .symbol "[" then some .square
  else if t = .symbol "\x7b" then some .curly
  else if t.keyword = "CASE" then some .case
  else none

/-- What a token closes. -/
def closes? (t : Token) : Option Bracket :=
  if t = .symbol ")" then some .round
  else if t = .symbol "]" then some .square
  else if t = .symbol "\x7d" then some .curly
  else if t.keyword = "END" then some .case
  else none

/-- Whether a token is `OR` or `XOR`. -/
def isDisjunction (t : Token) : Bool :=
  t.keyword == "OR" || t.keyword == "XOR"

/-- The token `AND`. -/
def conjunction : Token :=
  .plainWord "AND"

/-- The brackets that are open behind a token, innermost first; nothing where it closes another one
than the innermost. An `END` that closes nothing is a name. -/
def nest? (opened : List Bracket) (t : Token) : Option (List Bracket) :=
  match t.closes?, opened with
  | none, opened => some (t.opens?.toList ++ opened)
  | some b, [] => if b = .case then some [] else none
  | some b, b' :: opened =>
    if b = b' then some opened else if b = .case then some (b' :: opened) else none

/-- The tokens outside of all brackets, if the brackets are closed in order. -/
def outside? : (opened : List Bracket) → List Token → Option (List Token)
  | [], [] => some []
  | _ :: _, [] => none
  | opened, t :: ts => do
    let us ← outside? (← nest? opened t) ts
    return if opened.isEmpty then t :: us else us

/-- Tokens between parentheses. -/
def nested (ts : List Token) : List Token :=
  .symbol "(" :: ts ++ [.symbol ")"]

/-- Whether brackets are closed in order. -/
def Balanced (ts : List Token) : Prop :=
  ∃ us, outside? [] ts = some us

/-- Whether tokens may stand next to an `AND`: brackets are closed in order, and no `OR` or `XOR`
stands outside of them. -/
def IsConjunct (ts : List Token) : Prop :=
  ∃ us, outside? [] ts = some us ∧ ∀ t ∈ us, t.isDisjunction = false

variable {opened opened' : List Bracket} {ts us ts' us' : List Token}

theorem outside?_append (h : outside? opened ts = some us) (h' : outside? [] ts' = some us') :
    outside? opened (ts ++ ts') = some (us ++ us') := by
  induction ts generalizing opened us with
  | nil =>
    cases opened with
    | nil => cases h; exact h'
    | cons b opened => cases h
  | cons t ts ih =>
    simp only [outside?, bind, Option.bind_eq_some_iff] at h
    obtain ⟨opened', hnest, us'', hus, h⟩ := h
    cases h
    simp only [List.cons_append, outside?, bind, hnest, Option.bind_some, ih hus, pure]
    split <;> rfl

theorem nest?_append {b : Bracket} (hb : b ≠ .case) {t : Token}
    (h : nest? opened t = some opened') : nest? (opened ++ [b]) t = some (opened' ++ [b]) := by
  cases hcloses : t.closes? with
  | none =>
    simp only [nest?, hcloses] at h ⊢
    cases h
    rw [List.append_assoc]
  | some b' =>
    cases opened with
    | nil =>
      simp only [nest?, hcloses, Option.ite_none_right_eq_some] at h
      obtain ⟨rfl, h⟩ := h
      cases h
      simp [nest?, hcloses, hb.symm]
    | cons x opened =>
      simp only [nest?, hcloses, List.cons_append] at h ⊢
      by_cases hx : b' = x
      · rw [if_pos hx] at h ⊢
        cases h
        rfl
      · rw [if_neg hx, Option.ite_none_right_eq_some] at h
        obtain ⟨hcase, h⟩ := h
        cases h
        rw [if_neg hx, if_pos hcase]
        rfl

/-- Inside of a bracket nothing stands outside. -/
theorem outside?_inside {b : Bracket} (hb : b ≠ .case) (h : outside? opened ts = some us)
    (rest : List Token) : outside? (opened ++ [b]) (ts ++ rest) = outside? [b] rest := by
  induction ts generalizing opened us with
  | nil =>
    cases opened with
    | nil => rfl
    | cons b' opened => cases h
  | cons t ts ih =>
    simp only [outside?, bind, Option.bind_eq_some_iff] at h
    obtain ⟨opened', hnest, us', hus, -⟩ := h
    have hempty : (opened ++ [b]).isEmpty = false := by simp
    simp only [List.cons_append, outside?, bind, nest?_append hb hnest, Option.bind_some, ih hus,
      hempty]
    cases outside? [b] rest <;> rfl

theorem outside?_nested (h : Balanced ts) : outside? [] (nested ts) = some [.symbol "("] := by
  obtain ⟨us, h⟩ := h
  have hinside : outside? [.round] (ts ++ [.symbol ")"]) = some [] :=
    outside?_inside (by decide) h _
  have hopen : nest? [] (.symbol "(") = some [.round] := by decide
  simp only [nested, List.cons_append, outside?, hopen, bind, Option.bind_some, hinside]
  rfl

theorem Balanced.nested (h : Balanced ts) : Balanced (nested ts) :=
  ⟨_, outside?_nested h⟩

theorem IsConjunct.nested (h : Balanced ts) : IsConjunct (nested ts) :=
  ⟨_, outside?_nested h, by simp [isDisjunction, keyword]⟩

theorem IsConjunct.balanced (h : IsConjunct ts) : Balanced ts :=
  h.imp fun _ h => h.1

theorem outside?_cons {t : Token} (ht : nest? [] t = some []) (h : outside? [] us = some us') :
    outside? [] (t :: us) = some (t :: us') := by
  simp only [outside?, ht, h, bind, Option.bind_some]
  rfl

theorem Balanced.around {t : Token} (ht : nest? [] t = some []) (h : Balanced ts)
    (h' : Balanced us) : Balanced (ts ++ t :: us) := by
  obtain ⟨_, h⟩ := h
  obtain ⟨_, h'⟩ := h'
  exact ⟨_, outside?_append h (outside?_cons ht h')⟩

theorem nest?_conjunction : nest? [] conjunction = some [] := by
  decide +kernel

theorem isConjunct_conjunction (h : Balanced ts) (h' : Balanced us) :
    IsConjunct (ts ++ conjunction :: us) ↔ IsConjunct ts ∧ IsConjunct us := by
  obtain ⟨ts', h⟩ := h
  obtain ⟨us', h'⟩ := h'
  have hand : conjunction.isDisjunction = false := by decide +kernel
  simp only [IsConjunct, h, h', outside?_append h (outside?_cons nest?_conjunction h'),
    Option.some.injEq, exists_eq_left', List.forall_mem_append, List.forall_mem_cons, hand,
    true_and]

/-- Conditions with an `AND` between them. -/
def conjunctionOf (first : List Token) (rest : List (List Token)) : List Token :=
  rest.foldl (fun ts us => ts ++ conjunction :: us) first

theorem isConjunct_conjunctionOf {rest : List (List Token)}
    (h : ∀ us ∈ ts :: rest, Balanced us) :
    IsConjunct (conjunctionOf ts rest) ↔ ∀ us ∈ ts :: rest, IsConjunct us := by
  induction rest generalizing ts with
  | nil => simp [conjunctionOf]
  | cons us rest ih =>
    simp only [List.forall_mem_cons] at h
    have hall : ∀ vs ∈ (ts ++ conjunction :: us) :: rest, Balanced vs := by
      simpa using ⟨h.1.around nest?_conjunction h.2.1, h.2.2⟩
    have hrest := ih hall
    rw [conjunctionOf, List.foldl_cons, ← conjunctionOf, hrest, List.forall_mem_cons,
      isConjunct_conjunction h.1 h.2.1, List.forall_mem_cons, List.forall_mem_cons, and_assoc]

end Token

/-! ## Engines -/

/-- An engine in which `OR` and `XOR` bind weaker than `AND`, and nothing else does: the tokens that
it takes for conditions, and whether a row meets them. -/
structure Engine where
  condition : List Token → Prop
  meets : List Token → Prop
  condition_nested : ∀ {ts}, condition ts → condition (Token.nested ts)
  meets_nested : ∀ {ts}, condition ts → (meets (Token.nested ts) ↔ meets ts)
  condition_conjunction : ∀ {ts us}, condition ts → condition us → Token.IsConjunct ts →
    Token.IsConjunct us → condition (ts ++ Token.conjunction :: us)
  meets_conjunction : ∀ {ts us}, condition ts → condition us → Token.IsConjunct ts →
    Token.IsConjunct us → (meets (ts ++ Token.conjunction :: us) ↔ meets ts ∧ meets us)

/-- The laws go together: a row may meet all conditions in which `FALSE` does not occur. -/
instance : Inhabited Engine where
  default :=
    { condition := fun _ => True
      meets := fun ts => ∀ t ∈ ts, t.keyword ≠ "FALSE"
      condition_nested := fun _ => trivial
      meets_nested := fun _ => by
        have hparentheses : ∀ s, (Token.symbol s).keyword ≠ "FALSE" := fun s => by
          simp [Token.keyword]
        simp [Token.nested, hparentheses, or_imp, forall_and]
      condition_conjunction := fun _ _ _ _ => trivial
      meets_conjunction := fun _ _ _ _ => by
        have hand : Token.conjunction.keyword ≠ "FALSE" := by decide +kernel
        simp only [List.forall_mem_append, List.forall_mem_cons, hand, not_false_eq_true, ne_eq,
          true_and] }

theorem Engine.meets_conjunctionOf (engine : Engine) {ts : List Token} {rest : List (List Token)}
    (h : ∀ us ∈ ts :: rest, engine.condition us ∧ Token.IsConjunct us) :
    engine.meets (Token.conjunctionOf ts rest) ↔ ∀ us ∈ ts :: rest, engine.meets us := by
  induction rest generalizing ts with
  | nil => simp [Token.conjunctionOf]
  | cons us rest ih =>
    simp only [List.forall_mem_cons] at h
    obtain ⟨⟨hts, hts'⟩, ⟨hus, hus'⟩, hrest⟩ := h
    have hboth := (Token.isConjunct_conjunction hts'.balanced hus'.balanced).mpr ⟨hts', hus'⟩
    have hall : ∀ vs ∈ (ts ++ Token.conjunction :: us) :: rest,
        engine.condition vs ∧ Token.IsConjunct vs := by
      simpa using ⟨⟨engine.condition_conjunction hts hus hts' hus', hboth⟩, hrest⟩
    have hconj := ih hall
    rw [Token.conjunctionOf, List.foldl_cons, ← Token.conjunctionOf, hconj, List.forall_mem_cons,
      engine.meets_conjunction hts hus hts' hus', List.forall_mem_cons, List.forall_mem_cons,
      and_assoc]

/-! ## Printed predicates -/

/-- The tokens of a text, if it is read without a fault. -/
def Dialect.tokens? (d : Dialect) (s : String) : Option (List Token) :=
  (Lexeme.scan d s).toOption.map (List.map Lexeme.token)

/-- Whether a text is read without a fault as tokens of some kind. -/
def Dialect.ReadAs (d : Dialect) (kind : List Token → Prop) (s : String) : Prop :=
  ∃ ts, d.tokens? s = some ts ∧ kind ts

/-- Whether an expression is printed as some tokens, read alike everywhere, with brackets that are
closed in order. -/
def Dialect.Prints (d : Dialect) (x : Expr) (ts : List Token) : Prop :=
  d.Reads x.render ts ∧ Token.Balanced ts

/-- Whether an expression is a disjunction at its top. -/
def Expr.isDisjunction : Expr → Bool
  | .binary _ .or _ => true
  | .binary _ .xor _ => true
  | _ => false

theorem Expr.parenthesized_eq (x : Expr) :
    x.parenthesized = if x.isDisjunction then .nested x else x := by
  cases x with
  | binary l op r => cases op <;> rfl
  | _ => rfl

theorem Expr.parenthesized_parenthesized (x : Expr) :
    x.parenthesized.parenthesized = x.parenthesized := by
  cases x with
  | binary l op r => cases op <;> rfl
  | _ => rfl

section Prints

variable {d : Dialect} {x y : Expr} {ts us : List Token}

namespace Dialect.Prints

theorem tokens? (h : d.Prints x ts) : d.tokens? x.render = some ts := by
  have hscan := h.1.scan
  unfold Dialect.tokens?
  cases hs : Lexeme.scan d x.render with
  | error e => simp [hs, Except.map] at hscan
  | ok ls =>
    rw [hs] at hscan
    exact congrArg some (Except.ok.inj hscan)

theorem readAs_iff (h : d.Prints x ts) {kind : List Token → Prop} :
    d.ReadAs kind x.render ↔ kind ts := by
  simp [Dialect.ReadAs, h.tokens?]

/-- A disjunction is put between parentheses, and nothing else. -/
theorem parenthesized (h : d.Prints x ts) :
    d.Prints x.parenthesized (if x.isDisjunction then Token.nested ts else ts) := by
  rw [Expr.parenthesized_eq]
  split
  · refine ⟨?_, h.2.nested⟩
    rw [Expr.render]
    exact h.1.nested
  · exact h

theorem binary {op : BinaryOp} {t : Token} (h : d.Prints x ts) (hop : d.Reads op.render [t])
    (ht : Token.nest? [] t = some []) (h' : d.Prints y us) :
    d.Prints (.binary x op y) (ts ++ t :: us) := by
  refine ⟨?_, h.2.around ht h'.2⟩
  rw [Expr.render, ← List.singleton_append, ← List.append_assoc]
  exact (h.1.spaced hop).spaced h'.1

theorem conjunction (h : d.Prints x ts) (h' : d.Prints y us) :
    d.Prints (.binary x .and y) (ts ++ Token.conjunction :: us) :=
  h.binary (reads_word (by decide)) Token.nest?_conjunction h'

end Dialect.Prints

/-- The tokens of a predicate in a conjunction. -/
def memberTokens (tokens : Expr → List Token) (p : Expr) : List Token :=
  if p.isDisjunction then Token.nested (tokens p) else tokens p

/-- The predicates behind one that is no disjunction. -/
theorem prints_conjoinAll {tokens : Expr → List Token} {ps : List Expr}
    (hx : x.parenthesized = x) (h : d.Prints x ts) (hps : ∀ p ∈ ps, d.Prints p (tokens p)) :
    ∃ r, Expr.conjoinAll (some x) ps = some r ∧
      d.Prints r (Token.conjunctionOf ts (ps.map (memberTokens tokens))) := by
  -- What is joined so far is an `AND` and never gets parentheses, so `hx` holds at each step.
  induction ps generalizing x ts with
  | nil => exact ⟨x, rfl, h⟩
  | cons p ps ih =>
    have hconjoin : Expr.conjoin (some x) p = .binary x .and p.parenthesized := by
      rw [Expr.conjoin, hx]
    have hp := (hps p (by simp)).parenthesized
    obtain ⟨r, hr, hprints⟩ := ih (x := .binary x .and p.parenthesized) rfl (h.conjunction hp)
      fun q hq => hps q (by simp [hq])
    refine ⟨r, ?_, hprints⟩
    rw [← hr, ← hconjoin]
    rfl

/-- Parentheses around the first predicate change nothing where others follow it. -/
theorem conjoinAll_parenthesized {existing : Option Expr} {ps : List Expr} {m : Expr}
    {ms : List Expr} (hps : ps ≠ []) (hm : existing.toList ++ ps = m :: ms) :
    Expr.conjoinAll existing ps = Expr.conjoinAll (some m.parenthesized) ms := by
  cases existing with
  | none =>
    cases hm
    rfl
  | some e =>
    obtain ⟨rfl, rfl⟩ : e = m ∧ ps = ms := by simpa using hm
    cases ps with
    | nil => exact absurd rfl hps
    | cons p ps =>
      have hconjoin : Expr.conjoin (some e) p = Expr.conjoin (some e.parenthesized) p := by
        rw [Expr.conjoin, Expr.conjoin, Expr.parenthesized_parenthesized]
      rw [Expr.conjoinAll, List.foldl_cons, hconjoin]
      rfl

/-- A predicate in a conjunction may stand there if it may by itself or is between parentheses. -/
theorem Dialect.Prints.isConjunct_memberTokens {tokens : Expr → List Token}
    (h : d.Prints x (tokens x)) : Token.IsConjunct (memberTokens tokens x) ↔
      d.ReadAs Token.IsConjunct x.render ∨ x.isDisjunction = true := by
  rw [memberTokens]
  split
  · rename_i hx
    simp [Token.IsConjunct.nested h.2, hx]
  · rename_i hx
    simp [h.readAs_iff, hx]

theorem Dialect.Prints.condition_memberTokens {tokens : Expr → List Token}
    (h : d.Prints x (tokens x)) {engine : Engine} (hx : d.ReadAs engine.condition x.render) :
    engine.condition (memberTokens tokens x) ∧
      (engine.meets (memberTokens tokens x) ↔ d.ReadAs engine.meets x.render) := by
  rw [h.readAs_iff] at hx
  rw [h.readAs_iff, memberTokens]
  split
  · exact ⟨engine.condition_nested hx, engine.meets_nested hx⟩
  · exact ⟨hx, Iff.rfl⟩

/-- **Joined predicates show no `OR` or `XOR` outside of brackets if and only if each of them shows
none or is a disjunction at its top, which is put between parentheses.** Then a row passes what is
joined if and only if it passes each of them. -/
theorem Expr.isConjunct_conjoinAll_iff (d : Dialect) (existing : Option Expr) (ps : List Expr)
    (h : ∀ x ∈ existing.toList ++ ps, ∃ ts, d.Prints x ts) :
    (Expr.conjoinAll existing ps = none ↔ existing.toList ++ ps = []) ∧
      ∀ r, Expr.conjoinAll existing ps = some r →
        (d.ReadAs Token.IsConjunct r.render ↔ ∀ x ∈ existing.toList ++ ps,
          d.ReadAs Token.IsConjunct x.render ∨ x.isDisjunction = true ∧ ps ≠ []) ∧
        (d.ReadAs Token.IsConjunct r.render → ∀ engine : Engine,
          (∀ x ∈ existing.toList ++ ps, d.ReadAs engine.condition x.render) →
            (d.ReadAs engine.meets r.render ↔
              ∀ x ∈ existing.toList ++ ps, d.ReadAs engine.meets x.render)) := by
  by_cases hps : ps = []
  -- A predicate by itself gets no parentheses, even if it is a disjunction.
  · subst hps
    cases existing with
    | none => simp [Expr.conjoinAll]
    | some e => simp [Expr.conjoinAll]
  -- Of several predicates none is special: the one that was there is a member like the others.
  · obtain ⟨m, ms, hm⟩ : ∃ m ms, existing.toList ++ ps = m :: ms :=
      List.exists_cons_of_ne_nil (by simp [hps])
    obtain ⟨tokens, hprints⟩ : ∃ tokens : Expr → List Token, ∀ x ∈ m :: ms,
        d.Prints x (tokens x) := by
      refine ⟨fun x => (d.tokens? x.render).getD [], fun x hx => ?_⟩
      obtain ⟨ts, hts⟩ := h x (hm ▸ hx)
      simpa [hts.tokens?] using hts
    obtain ⟨r, hr, hconj⟩ := prints_conjoinAll m.parenthesized_parenthesized
      (hprints m (by simp)).parenthesized fun p hp => hprints p (List.mem_cons_of_mem m hp)
    have hbalanced : ∀ us ∈ (m :: ms).map (memberTokens tokens), Token.Balanced us := by
      rw [List.forall_mem_map]
      exact fun x hx => (hprints x hx).parenthesized.2
    have hiff : d.ReadAs Token.IsConjunct r.render ↔
        ∀ x ∈ m :: ms, Token.IsConjunct (memberTokens tokens x) := by
      rw [hconj.readAs_iff, ← List.forall_mem_map]
      exact Token.isConjunct_conjunctionOf hbalanced
    rw [conjoinAll_parenthesized hps hm, hr, hm]
    refine ⟨by simp, fun r' hr' => ?_⟩
    obtain rfl : r = r' := Option.some.inj hr'
    refine ⟨hiff.trans (forall₂_congr fun x hx => ?_), fun hr engine htakes => ?_⟩
    · rw [(hprints x hx).isConjunct_memberTokens]
      simp [hps]
    · have hmembers : ∀ us ∈ (m :: ms).map (memberTokens tokens),
          engine.condition us ∧ Token.IsConjunct us := by
        rw [List.forall_mem_map]
        exact fun x hx =>
          ⟨((hprints x hx).condition_memberTokens (htakes x hx)).1, hiff.mp hr x hx⟩
      have hmeets : (∀ us ∈ (m :: ms).map (memberTokens tokens), engine.meets us) ↔
          ∀ x ∈ m :: ms, d.ReadAs engine.meets x.render := by
        rw [List.forall_mem_map]
        exact forall₂_congr fun x hx => ((hprints x hx).condition_memberTokens (htakes x hx)).2
      rw [hconj.readAs_iff]
      exact (engine.meets_conjunctionOf hmembers).trans hmeets

end Prints

/-! ## The predicate that a column has a value -/

/-- Whether a token neither opens nor closes anything and is no `OR` or `XOR`. -/
def Token.IsPlain (t : Token) : Prop :=
  t.opens? = none ∧ t.closes? = none ∧ t.isDisjunction = false

instance : DecidablePred Token.IsPlain :=
  fun t => inferInstanceAs
    (Decidable (t.opens? = none ∧ t.closes? = none ∧ t.isDisjunction = false))

theorem Token.outside?_of_isPlain {ts : List Token} (h : ∀ t ∈ ts, t.IsPlain) :
    Token.outside? [] ts = some ts := by
  induction ts with
  | nil => rfl
  | cons t ts ih =>
    simp only [List.forall_mem_cons] at h
    have hnest : Token.nest? [] t = some [] := by
      simp [Token.nest?, h.1.1, h.1.2.1]
    simp only [Token.outside?, hnest, ih h.2, bind, Option.bind_some]
    rfl

/-- Whether a word is read as a name and no more. -/
def IsName (w : String) : Prop :=
  isPlainWord w = true ∧ Text.keywordForm w ∉ ["OR", "XOR", "CASE", "END"]

instance : DecidablePred IsName :=
  fun w => inferInstanceAs (Decidable (isPlainWord w = true ∧
    Text.keywordForm w ∉ ["OR", "XOR", "CASE", "END"]))

theorem IsName.isPlain {w : String} (h : IsName w) : (Token.plainWord w).IsPlain := by
  obtain ⟨-, h⟩ := h
  simp only [List.mem_cons, List.not_mem_nil, or_false, not_or] at h
  simp [Token.IsPlain, Token.opens?, Token.closes?, Token.isDisjunction, Token.plainWord,
    Token.keyword, h]

/-- Whether a value is written as a constant that is read back: real numbers are left aside. -/
def Dialect.readsValue (d : Dialect) : Value → Bool
  | .real _ => false
  | .text s => d.readsBack s.toList
  | _ => true

section Equals

variable {d : Dialect} {qualifier : Option String} {column : String}

theorem reads_ofColumn (h : ∀ w ∈ qualifier.toList ++ [column], IsName w) :
    ∃ ts, d.Reads (Expr.ofColumn qualifier column).render ts ∧ ∀ t ∈ ts, t.IsPlain := by
  cases qualifier with
  | none =>
    have hcolumn := h column (by simp)
    refine ⟨[.plainWord column], ?_, by simpa using hcolumn.isPlain⟩
    simpa [Expr.ofColumn, Expr.render, Name.render, Ident.render, Ident.plain] using
      reads_word hcolumn.1
  | some q =>
    have hq := h q (by simp)
    have hcolumn := h column (by simp)
    have hperiod : (Token.symbol ".").IsPlain := by decide +kernel
    refine ⟨[.plainWord q, .symbol ".", .plainWord column], ?_,
      by simpa using ⟨hq.isPlain, hperiod, hcolumn.isPlain⟩⟩
    simpa [Expr.ofColumn, Expr.render, Name.render, Ident.render, Ident.plain,
      String.intercalate_cons_cons] using reads_qualified hq.1 hcolumn.1

theorem reads_ofValue {v : Value} (h : d.readsValue v = true) :
    ∃ ts, d.Reads (Expr.ofValue v).render ts ∧ ∀ t ∈ ts, t.IsPlain := by
  cases v with
  | null => exact ⟨[.plainWord "NULL"], reads_word (by decide), by decide +kernel⟩
  | boolean b =>
    cases b
    · exact ⟨[.plainWord "false"], reads_word (by decide), by decide +kernel⟩
    · exact ⟨[.plainWord "true"], reads_word (by decide), by decide +kernel⟩
  | integer n =>
    have hdigits : ∀ m, ∀ x ∈ Nat.toDigits 10 m, x.isDigit = true := fun m x hx =>
      Nat.isDigit_of_mem_toDigits (by decide) (by decide) hx
    have hnumber : ∀ s, (Token.number s false).IsPlain := fun s => by
      simp [Token.IsPlain, Token.opens?, Token.closes?, Token.isDisjunction, Token.keyword]
    have hminus : (Token.symbol "-").IsPlain := by decide +kernel
    cases n with
    | ofNat m =>
      have hrender : (Expr.ofValue (.integer (.ofNat m))).render =
          String.ofList (Nat.toDigits 10 m) := by
        rw [← Nat.toList_repr, String.ofList_toList]
        rfl
      rw [hrender]
      exact ⟨_, reads_number Nat.toDigits_ne_nil (hdigits m), by simpa using hnumber _⟩
    | negSucc m =>
      have hrender : (Expr.ofValue (.integer (.negSucc m))).render =
          "-" ++ String.ofList (Nat.toDigits 10 (m + 1)) := by
        rw [← Nat.toList_repr, String.ofList_toList]
        rfl
      rw [hrender]
      exact ⟨_, reads_negative Nat.toDigits_ne_nil (hdigits (m + 1)),
        by simpa using ⟨hminus, hnumber _⟩⟩
  | real x => cases h
  | text s =>
    refine ⟨_, reads_text h, ?_⟩
    simp [Token.IsPlain, Token.opens?, Token.closes?, Token.isDisjunction, Token.keyword]

/-- The predicate that a column has a value may stand next to an `AND`. -/
theorem prints_hasValue {v : Value} (h : ∀ w ∈ qualifier.toList ++ [column], IsName w)
    (hv : d.readsValue v = true) :
    ∃ ts, d.Prints ((Expr.ofColumn qualifier column).hasValue v) ts ∧ Token.IsConjunct ts := by
  suffices hreads : ∃ ts, d.Reads ((Expr.ofColumn qualifier column).hasValue v).render ts ∧
      ∀ t ∈ ts, t.IsPlain by
    obtain ⟨ts, hreads, hplain⟩ := hreads
    have houtside := Token.outside?_of_isPlain hplain
    exact ⟨ts, ⟨hreads, ts, houtside⟩, ts, houtside, fun t ht => (hplain t ht).2.2⟩
  obtain ⟨cs, hcs, hcplain⟩ := reads_ofColumn (d := d) h
  rw [Expr.hasValue]
  split
  · refine ⟨cs ++ [.plainWord "IS"] ++ [.plainWord "NULL"], ?_, ?_⟩
    · have hrender : (Expr.isNull (Expr.ofColumn qualifier column)).render =
          (Expr.ofColumn qualifier column).render ++ " " ++ "IS" ++ " " ++ "NULL" := by
        rw [Expr.render]
        simp only [String.append_assoc]
        rfl
      rw [hrender]
      exact (hcs.spaced (reads_word (by decide))).spaced (reads_word (by decide))
    · have hnull : ∀ t ∈ [Token.plainWord "IS", .plainWord "NULL"], t.IsPlain := by
        decide +kernel
      simpa [or_imp, forall_and] using ⟨hcplain, hnull _ (by simp), hnull _ (by simp)⟩
  · obtain ⟨vs, hvs, hvplain⟩ := reads_ofValue hv
    have hequals : (Token.symbol "=").IsPlain := by decide +kernel
    refine ⟨cs ++ [.symbol "="] ++ vs, ?_, ?_⟩
    · rw [Expr.render]
      exact (hcs.spaced reads_equals).spaced hvs
    · simpa [or_imp, forall_and] using ⟨hcplain, hequals, hvplain⟩

end Equals

/-! ## Selections and the predicate of a tenant -/

/-- `a = 1 OR b = 2` -/
def Expr.eitherOf : Expr :=
  .binary ((ofColumn none "a").hasValue (.integer 1)) .or
    ((ofColumn none "b").hasValue (.integer 2))

/-- `tenant_id = 7` -/
def Expr.ofSeven : Expr :=
  (ofColumn none "tenant_id").hasValue (.integer 7)

theorem isConjunct_conjoinAll_eitherOf :
    (∀ x ∈ [Expr.eitherOf, Expr.ofSeven], ∃ ts, Dialect.mysql.Prints x ts) ∧
      ∃ r, Expr.conjoinAll (some .eitherOf) [.ofSeven] = some r ∧
        r.render = "(a = 1 OR b = 2) AND tenant_id = 7" ∧
        Dialect.mysql.ReadAs Token.IsConjunct r.render := by
  have hvalue : ∀ column, IsName column → ∀ n, ∃ ts, Dialect.mysql.Prints
      ((Expr.ofColumn none column).hasValue (.integer n)) ts ∧ Token.IsConjunct ts :=
    fun column h n => prints_hasValue (by simpa using h) rfl
  obtain ⟨ts, hts, -⟩ := hvalue "a" (by decide +kernel) 1
  obtain ⟨us, hus, -⟩ := hvalue "b" (by decide +kernel) 2
  obtain ⟨vs, hvs, hconjunct⟩ := hvalue "tenant_id" (by decide +kernel) 7
  have heither : Dialect.mysql.Prints .eitherOf (ts ++ .plainWord "OR" :: us) :=
    hts.binary (reads_word (by decide)) (by decide +kernel) hus
  have hmembers : ∀ x ∈ [Expr.eitherOf, Expr.ofSeven], ∃ ts, Dialect.mysql.Prints x ts := by
    simpa using ⟨⟨_, heither⟩, _, hvs⟩
  obtain ⟨hiff, -⟩ := (Expr.isConjunct_conjoinAll_iff .mysql (some .eitherOf) [.ofSeven]
    hmembers).2 _ rfl
  refine ⟨hmembers, _, rfl, by decide +kernel, hiff.mpr ?_⟩
  simpa using ⟨.inr rfl, .inl (hvs.readAs_iff.mpr hconjunct)⟩

/-- In MySQL a comparison may have an `XOR` below it, which is not put between parentheses: the
predicate of the tenant then restricts only what is behind the `XOR`. -/
theorem not_isConjunct_conjoinAll_xor :
    ∃ e p r us, parseExpr .mysql "a = 1 XOR b = 2" = .ok e ∧
      parseExpr .mysql "tenant_id = 7" = .ok p ∧ Expr.conjoinAll (some e) [p] = some r ∧
      r.render = "a = 1 XOR b = 2 AND tenant_id = 7" ∧
      (Dialect.mysql.tokens? r.render).bind (Token.outside? []) = some us ∧
      ∃ t ∈ us, t.isDisjunction = true := by
  have hrender : (do
      let e ← parseExpr .mysql "a = 1 XOR b = 2"
      let p ← parseExpr .mysql "tenant_id = 7"
      return (Expr.conjoin (some e) p).render : Except Fault String) =
        .ok "a = 1 XOR b = 2 AND tenant_id = 7" := by
    decide +kernel
  have hloose : ((Dialect.mysql.tokens? "a = 1 XOR b = 2 AND tenant_id = 7").bind
      (Token.outside? [])).map (·.any Token.isDisjunction) = some true := by
    decide +kernel
  cases he : parseExpr .mysql "a = 1 XOR b = 2" with
  | error f => simp [he, bind, Except.bind] at hrender
  | ok e =>
    cases hp : parseExpr .mysql "tenant_id = 7" with
    | error f => simp [he, hp, bind, Except.bind] at hrender
    | ok p =>
      have hr : (Expr.conjoin (some e) p).render = "a = 1 XOR b = 2 AND tenant_id = 7" := by
        simpa [he, hp, bind, Except.bind, pure, Except.pure] using hrender
      obtain ⟨us, hus, hany⟩ := Option.map_eq_some_iff.mp hloose
      exact ⟨e, p, _, us, rfl, rfl, rfl, hr, by rwa [hr], List.any_eq_true.mp hany⟩

end RowPolicy.Sql
