import RowPolicy.Proofs.Grammar.Expressions

/-!
# Reading relations

A plain relation is the name of a table with an alias, and no other clause of a table comes between
or behind. A join is read as its words, a relation and a condition; the joins of a relation are read
one after another until a token comes that begins none.
-/

namespace RowPolicy.Sql

/-! ## What follows -/

/-- What may follow a relation with its joins. -/
def sourceEnds : List (Option Token) :=
  [none, some (.symbol ","), some (.symbol ")"), some (.symbol ";"), some (.capital "WHERE")]

/-- What may follow a relation. -/
def relationEnds : List (Option Token) :=
  sourceEnds ++ ["ON", "JOIN", "INNER", "LEFT", "RIGHT", "FULL", "CROSS"].map
    (fun k => some (.capital k))

/-- The words of the clauses between the name of a table and its alias. -/
def tableWords : List String :=
  ["PARTITION", "FOR", "AT", "BEFORE", "WITH"]

theorem Join.exists_tokens {d : Dialect} {n : Nat} {j : Join} (hj : j.isPlain d n = true) :
    ∃ t ts, j.tokens = t :: ts ∧ some t ∈ relationEnds ∧ some t ∈ closers := by
  obtain ⟨kind, rel, on, rfl, hkind, -⟩ := Join.eq_of_isPlain hj
  cases kind
  case join | inner | left | leftOuter | right | rightOuter | full | cross =>
    exact ⟨_, _, rfl, by decide, by decide⟩
  all_goals exact absurd rfl hkind

namespace Reader

variable {r : Rules} {σ : Setting} {ls rest : List Lexeme}

theorem headKeyword_notMem {ts : List (Option Token)} (ks : List String)
    (hts : ∀ t ∈ ts, ((t.map Token.keyword).getD "") ∉ ks) (h : headToken ls ∈ ts) :
    headKeyword ls ∉ ks :=
  hts _ h

theorem headKeyword_of_relationEnds (h : headToken ls ∈ relationEnds) {k : String}
    (hk : k ∈ "AS" :: tableWords ++ ["USE", "IGNORE", "FORCE", "TABLESAMPLE", "SAMPLE", "PIVOT",
      "UNPIVOT", "MATCH_RECOGNIZE"]) : headKeyword ls ≠ k := by
  rintro rfl
  exact headKeyword_notMem _ (by decide) h hk

theorem ne_open_of_relationEnds (h : headToken ls ∈ relationEnds) :
    headToken ls ≠ some (.symbol "(") := by
  intro hopen
  rw [hopen] at h
  revert h
  decide

/-! ## Aliases -/

/-- Whether a token is no alias where `accept` admits one without `AS`. -/
def isNoAlias (accept : String → Bool) : Option Token → Bool
  | some (.word _ _ k) => k != "AS" && !accept k
  | some (.string _ _) => false
  | _ => true

theorem alias?_absent {accept : String → Bool} (h : isNoAlias accept (headToken ls) = true) :
    alias? accept σ ls = .ok (none, ls) := by
  cases ls with
  | nil => simp [alias?]
  | cons l ls =>
    obtain ⟨t, glued⟩ := l
    cases t with
    | word v q k =>
      simp only [headToken_cons, isNoAlias, Bool.and_eq_true, bne_iff_ne, Bool.not_eq_true'] at h
      simp [alias?, Token.keyword, h]
    | string kind s => simp [isNoAlias] at h
    | _ => simp [alias?, Token.keyword]

theorem typedAlias?_absent {type : Reader String} (h : headToken ls ∈ relationEnds) :
    typedAlias? type σ ls = .ok (none, ls) := by
  have hends : ∀ d : Dialect, ∀ t ∈ relationEnds,
      isNoAlias (fun k => !(reservedForRelation d).contains k) t = true := by
    intro d
    cases d <;> decide
  have halias := alias?_absent (σ := σ) (hends σ.dialect _ h)
  unfold typedAlias?
  rw [bind_apply, read_apply, ok_bind, bind_apply, peekKeyword_apply, ok_bind, bind_apply, halias]
  rfl

theorem typedAlias?_apply {type : Reader String} {a : Alias} (ha : a.isPlain σ.dialect = true)
    (h : Ahead rest a.tokens ls) (hrest : headToken rest ≠ some (.symbol "(")) :
    typedAlias? type σ ls = .ok (some a, rest) := by
  obtain ⟨explicit, i, columns⟩ := a
  rw [Alias.isPlain, Bool.and_eq_true, beq_iff_eq] at ha
  obtain ⟨rfl, hi⟩ := ha
  obtain ⟨k, hk⟩ := i.exists_token
  have hkeyword := Ident.keyword_notMem hi
  cases explicit with
  | true =>
    obtain _ | ⟨_, glued, _ | ⟨_, glued', _ | _⟩⟩ := h
    simp [typedAlias?, alias?, textBefore?, hk, Token.capital, Token.keyword, hrest]
  | false =>
    obtain _ | ⟨_, glued, _ | _⟩ := h
    simp only [hk, Token.keyword, Bool.false_eq_true, if_false, List.mem_append, not_or,
      List.mem_cons] at hkeyword
    simp [typedAlias?, alias?, textBefore?, hk, Token.keyword, hrest, hkeyword]

/-! ## Tables -/

/-- What is behind the name of a plain table begins no other clause of it. -/
theorem apart_of_naming {naming : Option Alias} (hnaming : naming.all (·.isPlain σ.dialect) = true)
    (h : Ahead rest ((naming.map Alias.tokens).getD []) ls)
    (hrest : headToken rest ∈ relationEnds) :
    headKeyword ls ∉ tableWords ∧ headToken ls ≠ some (.symbol ".") ∧
      headToken ls ≠ some (.symbol "(") := by
  cases naming with
  | none =>
    cases h
    refine ⟨headKeyword_notMem _ (by decide) hrest, fun hdot => ?_, ne_open_of_relationEnds hrest⟩
    rw [hdot] at hrest
    revert hrest
    decide
  | some a =>
    obtain ⟨explicit, i, columns⟩ := a
    cases explicit with
    | true =>
      obtain _ | ⟨_, glued, h⟩ := h
      simp [tableWords, Token.capital, Token.keyword]
    | false =>
      obtain _ | ⟨_, glued, h⟩ := h
      simp only [Option.all_some, Alias.isPlain, Bool.and_eq_true] at hnaming
      have hkeyword := Ident.keyword_notMem hnaming.2
      have hwords : ∀ d : Dialect, ∀ k ∈ tableWords,
          k ∈ reservedForRelation d ++ ["AS", "AT", "BEFORE"] := by
        intro d
        cases d <;> decide
      exact ⟨fun hk => hkeyword (hwords σ.dialect _ hk), by simp, by simp⟩

theorem relationAlias?_apply {naming : Option Alias}
    (hnaming : naming.all (·.isPlain σ.dialect) = true)
    (h : Ahead rest ((naming.map Alias.tokens).getD []) ls)
    (hrest : headToken rest ∈ relationEnds) :
    relationAlias? r σ ls = .ok (naming, rest) := by
  cases naming with
  | none =>
    cases h
    exact typedAlias?_absent hrest
  | some a => exact typedAlias?_apply hnaming h (ne_open_of_relationEnds hrest)

theorem tableVersion?_absent (h : headKeyword ls ∉ tableWords) :
    tableVersion? r σ ls = .ok ([], ls) := by
  simp only [tableWords, List.mem_cons, List.not_mem_nil, or_false, not_or] at h
  simp [tableVersion?, keywords?_of_ne h.2.1, h]

theorem indexHints_absent (h : headToken ls ∈ relationEnds) :
    attempt indexHints σ ls = .ok (none, ls) := by
  have hwords := headKeyword_notMem ["USE", "IGNORE", "FORCE"] (by decide) h
  have herror : indexHints σ ls = .error (.unexpected "USE or IGNORE or FORCE" (headToken ls)) := by
    simp [indexHints, keywordOf, keywordOf?_of_notMem hwords]
  exact attempt_of_error herror (by simp)

theorem sample?_absent (h : headToken ls ∈ relationEnds) : sample? r σ ls = .ok ([], ls) := by
  have hwords := headKeyword_notMem ["TABLESAMPLE", "SAMPLE"] (by decide) h
  simp [sample?, keywordOf?_of_notMem hwords]

theorem transformed_absent {rel : Relation} (h : headToken ls ∈ relationEnds) :
    transformed r rel σ ls = .ok (rel, ls) := by
  have hwords := headKeyword_notMem ["PIVOT", "UNPIVOT"] (by decide) h
  simp [transformed, loop_of_none, keywordOf?_of_notMem hwords]

theorem table_apply {rel : Relation} (hrel : rel.isPlain σ.dialect = true)
    (h : Ahead rest rel.tokens ls) (hrest : headToken rest ∈ relationEnds) :
    table r σ ls = .ok (rel, rest) := by
  obtain ⟨n, naming, rfl, hn, hnaming⟩ := Relation.eq_of_isPlain hrel
  obtain ⟨i, is, rfl, -⟩ := Name.eq_of_isPlain hn
  obtain ⟨mid, hname, halias⟩ := h.exists_append
  obtain ⟨hwords, hdot, hopen⟩ := apart_of_naming hnaming halias hrest
  have hversion := tableVersion?_absent (r := r) (σ := σ) hwords
  have hrelation := relationAlias?_apply (r := r) hnaming halias hrest
  have hwith : headKeyword rest ≠ "WITH" := headKeyword_of_relationEnds hrest (by decide)
  have hmatch : headKeyword rest ≠ "MATCH_RECOGNIZE" :=
    headKeyword_of_relationEnds hrest (by decide)
  simp only [tableWords, List.mem_cons, List.not_mem_nil, or_false, not_or] at hwords
  simp [table, name_apply hname hdot, hwords, hversion, hopen, words?_of_ne, hrelation,
    indexHints_absent hrest, sample?_absent hrest, transformed_absent hrest, hwith, hmatch]

theorem relationWith_apply {inner : Reader JoinTree} {rel : Relation}
    (hrel : rel.isPlain σ.dialect = true) (h : Ahead rest rel.tokens ls)
    (hrest : headToken rest ∈ relationEnds) : relationWith r inner σ ls = .ok (rel, rest) := by
  have htable := table_apply (r := r) hrel h hrest
  obtain ⟨n, naming, rfl, hn, -⟩ := Relation.eq_of_isPlain hrel
  obtain ⟨i, is, rfl, hall⟩ := Name.eq_of_isPlain hn
  have hhead : headToken ls = some i.token := h.headToken_eq
  have hkeyword : headKeyword ls ∉ reservedWords := by
    rw [headKeyword, hhead]
    exact Ident.keyword_notMem (hall i (by simp))
  have hne : ∀ k ∈ ["LATERAL", "TABLE", "VALUES", "UNNEST", "JSON_TABLE", "OPENJSON", "XMLTABLE"],
      headKeyword ls ≠ k := by
    rintro k hk rfl
    have hreserved : ∀ k ∈ ["LATERAL", "TABLE", "VALUES", "UNNEST", "JSON_TABLE", "OPENJSON",
        "XMLTABLE"], k ∈ reservedWords := by decide
    exact hkeyword (hreserved _ hk)
  simp only [List.forall_mem_cons] at hne
  simp [relationWith, hne, hhead, htable]

/-! ## Joins -/

theorem joinConstraint_apply {n : Nat} {on : Option Expr}
    (hon : on.all (·.isPlain σ.dialect n 0) = true)
    (h : Ahead rest ((on.map fun e => Token.capital "ON" :: e.tokens).getD []) ls)
    (hrest : headToken rest ∈ relationEnds ∧ headToken rest ∈ closers) :
    joinConstraint (rules (n + 1)) σ ls = .ok ((on, ""), rest) := by
  cases on with
  | none =>
    cases h
    have hwords := headKeyword_notMem ["ON", "USING"] (by decide) hrest.2
    simp only [List.mem_cons, List.not_mem_nil, or_false, not_or] at hwords
    simp [joinConstraint, hwords]
  | some e =>
    obtain _ | ⟨_, glued, he⟩ := h
    have hread := expr_apply hon he hrest.2
    simp [joinConstraint, hread, Token.capital, Token.keyword]

theorem joinKind?_apply {kind : JoinKind} (hkind : kind.words ≠ []) (hcross : kind ≠ .cross)
    (h : Ahead rest (kind.words.map Token.capital) ls) :
    joinKind? σ ls = .ok (some kind, rest) := by
  cases kind
  case join =>
    obtain _ | ⟨_, _, _ | _⟩ := h
    simp [joinKind?, Token.capital, Token.keyword]
  case inner | left | right | full =>
    obtain _ | ⟨_, _, _ | ⟨_, _, _ | _⟩⟩ := h
    simp [joinKind?, keywords, keywordOf, keywordOf?, Token.capital, Token.keyword]
  case leftOuter | rightOuter =>
    obtain _ | ⟨_, _, _ | ⟨_, _, _ | ⟨_, _, _ | _⟩⟩⟩ := h
    simp [joinKind?, keywordOf, keywordOf?, Token.capital, Token.keyword]
  case cross => exact absurd rfl hcross
  all_goals exact absurd rfl hkind

theorem join?_apply {n : Nat} {relation : Reader Relation} {j : Join}
    (hj : j.isPlain σ.dialect n = true)
    (hrelation : ∀ rel : Relation, rel.isPlain σ.dialect = true → ∀ ls rest,
      Ahead rest rel.tokens ls → headToken rest ∈ relationEnds →
        relation σ ls = .ok (rel, rest))
    (h : Ahead rest j.tokens ls)
    (hrest : headToken rest ∈ relationEnds ∧ headToken rest ∈ closers) :
    join? (rules (n + 1)) relation σ ls = .ok (some j, rest) := by
  obtain ⟨kind, rel, on, rfl, hkinds, hrel, hon, hcross⟩ := Join.eq_of_isPlain hj
  obtain ⟨mid, hfront, hon'⟩ := h.exists_append
  obtain ⟨start, hwords, hrel'⟩ := hfront.exists_append
  have hmid : headToken mid ∈ relationEnds := by
    cases on with
    | none => cases hon'; exact hrest.1
    | some e =>
      rw [Option.map_some, Option.getD_some] at hon'
      rw [hon'.headToken_eq]
      decide
  have hread := hrelation rel hrel start mid hrel' hmid
  have hconstraint := joinConstraint_apply hon hon' hrest
  by_cases hkindcross : kind = .cross
  · subst hkindcross
    obtain rfl : on = none := hcross.resolve_right (fun h => h rfl)
    cases hon'
    obtain _ | ⟨_, _, _ | ⟨_, _, _ | _⟩⟩ := hwords
    simp [join?, Token.capital, Token.keyword, hread, hconstraint]
  · have hfirst : ∀ k ∈ ["GLOBAL", "CROSS", "OUTER", "ASOF", "NATURAL"], headKeyword ls ≠ k := by
      rintro k hk rfl
      revert hk
      cases kind
      case cross => exact absurd rfl hkindcross
      case join | inner | left | leftOuter | right | rightOuter | full =>
        rw [headKeyword, hwords.headToken_eq]
        decide
      all_goals exact absurd rfl hkinds
    simp only [List.forall_mem_cons] at hfirst
    have hname := joinKind?_apply (σ := σ) hkinds hkindcross hwords
    simp [join?, hfirst, hname, hread, hconstraint]

theorem join?_absent {relation : Reader Relation} (h : headToken ls ∈ sourceEnds) :
    join? r relation σ ls = .ok (none, ls) := by
  have hwords := headKeyword_notMem ["GLOBAL", "CROSS", "OUTER", "ASOF", "NATURAL"] (by decide) h
  have hkinds := headKeyword_notMem ["JOIN", "INNER", "LEFT", "RIGHT", "ANTI", "SEMI", "FULL",
    "STRAIGHT_JOIN"] (by decide) h
  simp only [List.mem_cons, List.not_mem_nil, or_false, not_or] at hwords hkinds
  have hkind : joinKind? σ ls = .ok (none, ls) := by
    simp [joinKind?, hkinds]
  simp [join?, hwords, hkind]

theorem joinTreeWithin_apply {n bound : Nat} {t : JoinTree} (ht : t.isPlain σ.dialect n = true)
    (h : Ahead rest t.tokens ls) (hrest : headToken rest ∈ sourceEnds) :
    joinTreeWithin (rules (n + 1)) (bound + 1) σ ls = .ok (t, rest) := by
  obtain ⟨rel, joins⟩ := t
  rw [JoinTree.isPlain, Bool.and_eq_true, List.all_eq_true] at ht
  obtain ⟨hrel, hjoins⟩ := ht
  obtain ⟨mid, hfirst, hjoined⟩ := h.exists_append
  have hends : ∀ t ∈ sourceEnds, t ∈ relationEnds ∧ t ∈ closers := by decide
  have hrelation : ∀ rel : Relation, rel.isPlain σ.dialect = true → ∀ ls rest,
      Ahead rest rel.tokens ls → headToken rest ∈ relationEnds →
        relationWith (rules (n + 1)) (joinTreeWithin (rules (n + 1)) bound) σ ls =
          .ok (rel, rest) :=
    fun rel hrel ls rest h hrest => relationWith_apply hrel h hrest
  have hmember : ∀ j ∈ joins, ∀ ls mid, Ahead mid j.tokens ls →
      headToken ls ∈ relationEnds ∧ headToken ls ∈ closers := by
    intro j hj ls mid hls
    obtain ⟨t, ts, htokens, ht⟩ := Join.exists_tokens (hjoins j hj)
    rw [htokens] at hls
    rwa [hls.headToken_eq]
  have hmid := ahead_members (P := fun ls => headToken ls ∈ relationEnds ∧ headToken ls ∈ closers)
    hmember (hends _ hrest) hjoined
  rw [joinTreeWithin, bind_apply, hrelation rel hrel ls mid hfirst hmid.1, ok_bind, bind_apply,
    loop_members Join.tokens ?_ ?_ ?_ hmember (hends _ hrest) hjoined]
  · simp
  · intro acc j hj ls mid hls hmid
    simp [join?_apply (hjoins j hj) hrelation hls hmid]
  · simp [join?_absent hrest]
  · intro j hj
    obtain ⟨t, ts, htokens, -⟩ := Join.exists_tokens (hjoins j hj)
    simp [htokens]

/-- A plain relation and its joins are read from their tokens. -/
theorem joinTree_apply {n : Nat} {t : JoinTree} (ht : t.isPlain σ.dialect n = true)
    (h : Ahead rest t.tokens ls) (hrest : headToken rest ∈ sourceEnds) :
    joinTree (rules (n + 1)) σ ls = .ok (t, rest) := by
  simp [joinTree, joinTreeWithin_apply ht h hrest]

end Reader
end RowPolicy.Sql
