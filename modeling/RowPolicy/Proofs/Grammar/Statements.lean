import RowPolicy.Proofs.Grammar.Blocks

/-!
# Reading statements

A plain statement is a query that is one block, so all other clauses of queries are missing. The
statements of a text are read one after another, a semicolon between them (`walks_statements`).
-/

namespace RowPolicy.Sql

namespace Reader

variable {r : Rules} {σ : Setting} {ls rest : List Lexeme}

theorem setOperations_apply {words : List String} {term : Reader Body} {b : Body}
    (hread : term σ ls = .ok (b, rest)) (hrest : headKeyword rest = "") :
    setOperations words term σ ls = .ok (b, rest) := by
  unfold setOperations
  rw [bind_apply, hread, ok_bind, loop_of_none]
  simp [keywordOf?, hrest]

theorem body_apply {n : Nat} {s : Select} (hs : s.isPlain σ.dialect n = true)
    (h : Ahead rest s.tokens ls) (hrest : headToken rest ∈ blockEnds) :
    body (rules (n + 1)) σ ls = .ok (.select s, rest) := by
  have hkeyword := headKeyword_of_blockEnds hrest
  have hread := select_apply hs h hrest
  obtain ⟨ts, hts⟩ := s.exists_tokens
  rw [hts] at h
  obtain ⟨glued, ls', rfl, -⟩ := h.exists_cons
  refine setOperations_apply (setOperations_apply ?_ hkeyword) hkeyword
  simp only [Token.capital] at hread
  simp [bodyTerm, Token.capital, Token.keyword, hread]

/-- No clause of a query follows its body. -/
theorem tail_absent (h : headToken ls ∈ blockEnds) :
    orderBy? r σ ls = .ok ([], ls) ∧ limit? r σ ls = .ok (none, ls) ∧
      settings? r σ ls = .ok ([], ls) ∧ locks σ ls = .ok ("", ls) ∧
        outputFormat? σ ls = .ok ("", ls) ∧ chain r σ ls = .ok ([], ls) := by
  have hkeyword := headKeyword_of_blockEnds h
  have hpipe : headToken ls ≠ some (.symbol "|>") := by
    intro hpipe
    rw [hpipe] at h
    revert h
    decide
  refine ⟨?_, ?_, ?_, ?_, ?_, ?_⟩
  · simp [orderBy?, keywords?_of_ne, hkeyword]
  · simp [limit?, behind?_absent, hkeyword]
  · simp [settings?, listBehind?_absent, hkeyword]
  · simp [locks, loop_of_none, hkeyword]
  · simp [outputFormat?, hkeyword]
  · simp [chain, loop_of_none, hpipe]

theorem query_apply {n : Nat} {s : Select} (hs : s.isPlain σ.dialect n = true)
    (h : Ahead rest s.tokens ls) (hrest : headToken rest ∈ blockEnds) :
    query (rules (n + 1)) σ ls =
      .ok (⟨false, [], .select s, [], none, [], none, "", []⟩, rest) := by
  have hkeyword := headKeyword_of_blockEnds hrest
  have hread := body_apply hs h hrest
  obtain ⟨horder, hlimit, hsettings, hlocks, hformat, hchain⟩ :=
    tail_absent (r := rules (n + 1)) (σ := σ) hrest
  obtain ⟨ts, hts⟩ := s.exists_tokens
  rw [hts] at h
  obtain ⟨glued, ls', rfl, -⟩ := h.exists_cons
  simp only [Token.capital] at hread
  simp [query, Token.capital, Token.keyword, hread, horder, hlimit, hsettings, hlocks, hformat,
    hchain, behind?_absent, hkeyword, Query.ofBody]

theorem statement_apply {s : Statement} (hs : s.isPlain σ.dialect = true)
    (h : Ahead rest s.tokens ls) (hrest : headToken rest ∈ blockEnds) :
    (rules maxDepth).statement σ ls = .ok (s, rest) := by
  obtain ⟨b, rfl, hb⟩ := Statement.eq_of_isPlain hs
  have hread : (rules 49).query σ ls = _ := query_apply hb h hrest
  obtain ⟨ts, hts⟩ := b.exists_tokens
  change Ahead rest b.tokens ls at h
  rw [hts] at h
  obtain ⟨glued, ls', rfl, -⟩ := h.exists_cons
  simp only [Token.capital] at hread
  change statement (rules 49) σ _ = _
  simp [statement, Token.capital, Token.keyword, hread]

/-! ## Texts of statements -/

/-- What is read next of a text: a semicolon, or a statement where none is open. -/
def statementStep : List Statement × Bool → Reader (Option (List Statement × Bool))
  | (acc, open') => do
    if ← symbol? ";" then return some (acc, false)
    else if ← atEnd then return none
    else if open' then
      if ← peekKeyword "END" then return none else expected "end of statement"
    else return some ((← (rules maxDepth).statement) :: acc, true)

theorem statements_eq : statements = do
    let (acc, _) ← loop statementStep ([], false)
    return acc.reverse :=
  rfl

theorem statementStep_of_plain {acc : List Statement} {s : Statement}
    (hs : s.isPlain σ.dialect = true) (h : Ahead rest s.tokens ls)
    (hrest : headToken rest ∈ blockEnds) :
    statementStep (acc, false) σ ls = .ok (some (s :: acc, true), rest) := by
  have hread := statement_apply hs h hrest
  obtain ⟨ts, hts⟩ := Statement.exists_tokens hs
  rw [hts] at h
  obtain ⟨glued, ls', rfl, -⟩ := h.exists_cons
  simp only [Token.capital] at hread
  simp [statementStep, atEnd, Token.capital, hread]

/-- The statements behind the first are read one after another. -/
theorem walks_statements {ss : List Statement} (hplain : ∀ s ∈ ss, s.isPlain σ.dialect = true)
    (h : Ahead [] ((ss.map Statement.tokens).flatMap fun ts => .symbol ";" :: ts) ls)
    (acc : List Statement) :
    Walks statementStep σ (acc, true) ls (ss.reverse ++ acc, true) [] ∧
      headToken ls ∈ blockEnds := by
  induction ss generalizing ls acc with
  | nil =>
    cases h
    exact ⟨.refl _ [], by decide⟩
  | cons s ss ih =>
    simp only [List.forall_mem_cons] at hplain
    obtain ⟨mid, hmember, hss⟩ := h.exists_append
    obtain ⟨glued, ls', rfl, hs⟩ := hmember.exists_cons
    obtain ⟨hwalks, hmid⟩ := ih hplain.2 hss (s :: acc)
    rw [List.reverse_cons, List.append_assoc]
    have hmark : statementStep (acc, true) σ (⟨.symbol ";", glued⟩ :: ls') =
        .ok (some (acc, false), ls') := by
      simp [statementStep]
    refine ⟨.head hmark (by simp) (.head (statementStep_of_plain hplain.1 hs hmid) ?_ hwalks),
      by simp [blockEnds]⟩
    · obtain ⟨ts, hts⟩ := Statement.exists_tokens hplain.1
      rw [hts] at hs
      simp [hs.length_eq]

theorem statements_apply {ss : List Statement} (hplain : ∀ s ∈ ss, s.isPlain σ.dialect = true)
    (h : Ahead [] (Token.separated ";" (ss.map Statement.tokens)) ls) :
    statements σ ls = .ok (ss, []) := by
  have hstop : ∀ state : List Statement × Bool, statementStep state σ [] = .ok (none, []) := by
    simp [statementStep, atEnd]
  suffices hwalks : ∃ b, Walks statementStep σ ([], false) ls (ss.reverse, b) [] by
    obtain ⟨b, hwalks⟩ := hwalks
    rw [statements_eq, bind_apply, hwalks.loop (hstop _)]
    simp
  cases ss with
  | nil =>
    cases h
    exact ⟨false, .refl _ []⟩
  | cons s ss =>
    simp only [List.forall_mem_cons] at hplain
    obtain ⟨mid, hs, hss⟩ := h.exists_append
    obtain ⟨hwalks, hmid⟩ := walks_statements hplain.2 hss [s]
    rw [List.reverse_cons]
    refine ⟨true, .head (statementStep_of_plain hplain.1 hs hmid) ?_ hwalks⟩
    obtain ⟨ts, hts⟩ := Statement.exists_tokens hplain.1
    rw [hts] at hs
    simp [hs.length_eq]

end Reader

/-- **A text whose tokens are those of plain statements is read as these statements.** -/
theorem parseStatements_of_tokens {d : Dialect} {sql : String} {ss : List Statement}
    {ls : List Lexeme} (hplain : ∀ s ∈ ss, s.isPlain d = true)
    (hscan : Lexeme.scan d sql = .ok ls)
    (htokens : ls.map Lexeme.token = Token.separated ";" (ss.map Statement.tokens)) :
    parseStatements d sql = .ok ss := by
  have hread := Reader.statements_apply (σ := ⟨d, false, false⟩) hplain (.of_map htokens)
  unfold parseStatements Reader.run
  rw [hscan]
  change Except.bind (Reader.statements ⟨d, false, false⟩ ls) _ = _
  rw [hread]
  rfl

end RowPolicy.Sql
