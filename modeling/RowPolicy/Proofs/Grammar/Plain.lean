import RowPolicy.Proofs.Lexing.Constants
import RowPolicy.Sql.Grammar

/-!
# Plain statements

A plain statement reads rows: it selects expressions from tables and joins of tables under a
condition. Its expressions are made of columns, constants, comparisons, sums and products, tests for
null, logical operators and parentheses. `Statement.isPlain` says so and adds what a dialect needs
to tell the parts apart: names are not among the words that the grammar asks for, the contents of
names and strings survive their quotes, and operators stand in the order of their strengths, as they
do in everything that is read. `Statement.tokens` are the tokens that a plain statement is written
as.
-/

namespace RowPolicy.Sql

/-! ## Names -/

/-- The words that begin an operand of their own. -/
def operandWords : List String :=
  ["TRUE", "FALSE", "NULL", "CURRENT_CATALOG", "CURRENT_USER", "SESSION_USER", "USER",
    "CURRENT_TIMESTAMP", "CURRENT_TIME", "CURRENT_DATE", "LOCALTIME", "LOCALTIMESTAMP", "CASE",
    "CONVERT", "TRY_CONVERT", "CAST", "TRY_CAST", "SAFE_CAST", "EXISTS", "EXTRACT", "CEIL",
    "FLOOR", "POSITION", "SUBSTR", "SUBSTRING", "OVERLAY", "TRIM", "INTERVAL", "ARRAY", "NOT",
    "MATCH", "STRUCT", "PRIOR", "MAP"] ++ Reader.geometricTypes.map Prod.fst

/-- The words that begin a type. -/
def typeWords : List String :=
  Reader.plainTypes ++ Reader.integerTypes ++ Reader.mixedTypes.map Prod.fst ++
    ["INT2", "INT4", "INT8", "FLOAT", "DECIMAL", "DEC", "NUMERIC", "BIGNUMERIC", "BIGDECIMAL",
      "REAL", "DOUBLE", "VARCHAR", "NVARCHAR", "CHARACTER", "CHAR", "CLOB", "BLOB", "BYTES",
      "BINARY", "DATETIME", "STRING", "VARBIT", "TIMESTAMPTZ", "TIMETZ", "TIMESTAMP_NTZ",
      "VARBINARY", "BIT", "TIMESTAMP", "TIME", "DATETIME64", "ENUM", "ENUM8", "ENUM16", "SET",
      "SIGNED", "UNSIGNED", "TSVECTOR", "TSQUERY", "ANY", "NULLABLE", "LOWCARDINALITY",
      "FIXEDSTRING", "UNION", "MAP", "ARRAY", "STRUCT", "TUPLE", "NESTED", "TABLE", "INTERVAL"]

/-- The words that a clause or a relation may begin with where a name may stand. -/
def clauseWords : List String :=
  reservedEverywhere ++ ["EXCLUDE", "FROM", "INTO", "END", "ALL", "SOME", "DISTINCT", "VALUES",
    "UNNEST", "JSON_TABLE", "OPENJSON", "XMLTABLE"]

/-- The words that no plain name is without quotes. -/
def reservedWords : List String :=
  operandWords ++ typeWords ++ clauseWords

/-- The token that a name is written as. -/
def Ident.token (i : Ident) : Token :=
  match i.quote with
  | none => .plainWord i.value
  | some q => .quotedWord q i.value

/-- Whether a name is read back: a word of letters, digits and underscores, or a quoted name whose
content survives its quotes. -/
def Ident.isWritten (d : Dialect) (i : Ident) : Bool :=
  match i.quote with
  | none => isPlainWord i.value
  | some q => d.isQuote q && (Enclosed.name q i.value).readsBack d

/-- Whether a name is none of some words and is read back. -/
def Ident.isApart (d : Dialect) (words : List String) (i : Ident) : Bool :=
  i.isWritten d && !words.contains i.token.keyword

theorem Ident.isWritten_of_isApart {d : Dialect} {words : List String} {i : Ident}
    (h : i.isApart d words = true) : i.isWritten d = true := by
  rw [Ident.isApart, Bool.and_eq_true] at h
  exact h.1

theorem Ident.keyword_notMem {d : Dialect} {words : List String} {i : Ident}
    (h : i.isApart d words = true) : i.token.keyword ∉ words := by
  simp only [Ident.isApart, Bool.and_eq_true, Bool.not_eq_true', List.contains_eq_mem,
    decide_eq_false_iff_not] at h
  exact h.2

/-- The tokens of a dotted name. -/
def Name.tokens : Name → List Token
  | [] => []
  | i :: is => i.token :: is.flatMap fun i => [.symbol ".", i.token]

/-- Whether a dotted name is read back where a name may stand. -/
def Name.isPlain (d : Dialect) (n : Name) : Bool :=
  !n.isEmpty && n.all (·.isApart d reservedWords)

theorem Name.eq_of_isPlain {d : Dialect} {n : Name} (h : Name.isPlain d n = true) :
    ∃ i is, n = i :: is ∧ ∀ j ∈ i :: is, j.isApart d reservedWords = true := by
  cases n with
  | nil => cases h
  | cons i is =>
    rw [Name.isPlain, Bool.and_eq_true, List.all_eq_true] at h
    exact ⟨i, is, rfl, h.2⟩

/-! ## Expressions -/

/-- A keyword in capitals. -/
def Token.capital (k : String) : Token :=
  .word k none k

/-- The operators of plain expressions. -/
def plainOperators : List (BinaryOp × Strength) :=
  [(.and, .and), (.or, .or), (.xor, .xor), (.eq, .comparison), (.other "<>", .comparison),
    (.other "<", .comparison), (.other "<=", .comparison), (.other ">", .comparison),
    (.other ">=", .comparison), (.plus, .plus), (.other "-", .plus), (.other "*", .times),
    (.other "/", .times)]

/-- The token of an operator. -/
def BinaryOp.token : BinaryOp → Token
  | .and => .capital "AND"
  | .or => .capital "OR"
  | .xor => .capital "XOR"
  | .eq => .symbol "="
  | .plus => .symbol "+"
  | .other s => .symbol s

/-- The strength of a plain operator. -/
def BinaryOp.strength? (d : Dialect) (op : BinaryOp) : Option Nat :=
  (plainOperators.lookup op).map d.strength

/-- Whether a constant is plain: its printed form is read back. -/
def Literal.isPlain (d : Dialect) : Literal → Bool
  | .null => true
  | .boolean _ => d.features.booleanLiterals
  | .number ds => !ds.isEmpty && ds.toList.all Char.isDigit
  | .text s => d.readsBack s.toList
  | .spelled _ => false

/-- The tokens of a plain constant. -/
def Literal.tokens : Literal → List Token
  | .null => [.capital "NULL"]
  | .boolean true => [.word "true" none "TRUE"]
  | .boolean false => [.word "false" none "FALSE"]
  | .number ds => [.number ds false]
  | .text s => [.string .plain s]
  | .spelled _ => []

/-- Whether an expression is plain and is read in full where operators bind tighter than `least`,
by rules that nest no deeper than `n`. -/
def Expr.isPlain (d : Dialect) : (n least : Nat) → Expr → Bool
  | n, _, .column path => Name.isPlain d path && path.length ≤ n + 1
  | _, _, .literal l => l.isPlain d
  | n, least, .binary l op r =>
    match op.strength? d with
    | some s => least < s && l.isPlain d n (s - 1) && 0 < n && r.isPlain d (n - 1) s
    | none => false
  | n, least, .isNull e =>
    least < d.strength .is && e.isPlain d n (d.strength .is - 1)
  | n, _, .nested e => 0 < n && e.isPlain d (n - 1) 0
  | _, _, _ => false

/-- The tokens of a plain expression. -/
def Expr.tokens : Expr → List Token
  | .column path => Name.tokens path
  | .literal l => l.tokens
  | .binary l op r => l.tokens ++ op.token :: r.tokens
  | .isNull e => e.tokens ++ [.capital "IS", .capital "NULL"]
  | .nested e => .symbol "(" :: e.tokens ++ [.symbol ")"]
  | _ => []

/-- The cases of a plain expression. -/
theorem Expr.isPlain_induction {d : Dialect} {motive : Nat → Nat → Expr → Prop}
    (column : ∀ n least path, Name.isPlain d path = true → path.length ≤ n + 1 →
      motive n least (.column path))
    (literal : ∀ n least l, l.isPlain d = true → motive n least (.literal l))
    (binary : ∀ n least l op r s, op.strength? d = some s → least < s →
      l.isPlain d (n + 1) (s - 1) = true → r.isPlain d n s = true → motive (n + 1) (s - 1) l →
      motive n s r → motive (n + 1) least (.binary l op r))
    (isNull : ∀ n least e, least < d.strength .is → e.isPlain d n (d.strength .is - 1) = true →
      motive n (d.strength .is - 1) e → motive n least (.isNull e))
    (nested : ∀ n least e, e.isPlain d n 0 = true → motive n 0 e →
      motive (n + 1) least (.nested e))
    {n least : Nat} {e : Expr} (h : e.isPlain d n least = true) : motive n least e := by
  induction n, least, e using Expr.isPlain.induct (d := d) with
  | case1 least n path =>
    simp only [Expr.isPlain, Bool.and_eq_true, decide_eq_true_eq] at h
    exact column n least path h.1 h.2
  | case2 n least l => exact literal n least l h
  | case3 n least l op r s hs ihl ihr =>
    simp only [Expr.isPlain, hs, Bool.and_eq_true, decide_eq_true_eq] at h
    obtain ⟨⟨⟨hleast, hl⟩, hn⟩, hr⟩ := h
    obtain ⟨n, rfl⟩ := Nat.exists_eq_add_one_of_ne_zero (Nat.ne_of_gt hn)
    exact binary n least l op r s hs hleast hl hr (ihl hl) (ihr hr)
  | case4 n least l op r hs => simp [Expr.isPlain, hs] at h
  | case5 n least e ih =>
    simp only [Expr.isPlain, Bool.and_eq_true, decide_eq_true_eq] at h
    exact isNull n least e h.1 h.2 (ih h.2)
  | case6 least n e ih =>
    simp only [Expr.isPlain, Bool.and_eq_true, decide_eq_true_eq] at h
    obtain ⟨n, rfl⟩ := Nat.exists_eq_add_one_of_ne_zero (Nat.ne_of_gt h.1)
    exact nested n least e h.2 (ih h.2)
  | case7 e n least hcolumn hliteral hbinary hnull hnested =>
    unfold Expr.isPlain at h
    split at h
    · exact (hcolumn _ rfl).elim
    · exact (hliteral _ rfl).elim
    · exact (hbinary _ _ _ rfl).elim
    · exact (hnull _ rfl).elim
    · exact (hnested _ rfl).elim
    · cases h

/-! ## Relations -/

/-- Whether the alias of a relation is plain. Without `AS` it is none of the words that may follow
the relation. -/
def Alias.isPlain (d : Dialect) (a : Alias) : Bool :=
  a.columns == "" &&
    a.name.isApart d (if a.explicit then [] else reservedForRelation d ++ ["AS", "AT", "BEFORE"])

/-- The tokens of an alias. -/
def Alias.tokens (a : Alias) : List Token :=
  if a.explicit then [.capital "AS", a.name.token] else [a.name.token]

/-- Whether a relation is a table with an optional alias. -/
def Relation.isPlain (d : Dialect) : Relation → Bool
  | .table n partition none ordinality naming after =>
    Name.isPlain d n && partition == "" && ordinality == "" && naming.all (·.isPlain d) &&
      match after with
      | [.text s] => s == ""
      | _ => false
  | _ => false

theorem Relation.eq_of_isPlain {d : Dialect} {rel : Relation} (h : rel.isPlain d = true) :
    ∃ n naming, rel = .table n "" none "" naming [.text ""] ∧ Name.isPlain d n = true ∧
      naming.all (·.isPlain d) = true := by
  unfold Relation.isPlain at h
  split at h
  · rename_i n partition ordinality naming after
    split at h
    · simp only [Bool.and_eq_true, beq_iff_eq] at h
      obtain ⟨⟨⟨⟨hn, rfl⟩, rfl⟩, hnaming⟩, rfl⟩ := h
      exact ⟨n, naming, rfl, hn, hnaming⟩
    · simp at h
  · cases h

/-- The tokens of a plain relation. -/
def Relation.tokens : Relation → List Token
  | .table n _ _ _ naming _ => Name.tokens n ++ (naming.map Alias.tokens).getD []
  | _ => []

/-- The words of the plain kinds of join. -/
def JoinKind.words : JoinKind → List String
  | .join => ["JOIN"]
  | .inner => ["INNER", "JOIN"]
  | .left => ["LEFT", "JOIN"]
  | .leftOuter => ["LEFT", "OUTER", "JOIN"]
  | .right => ["RIGHT", "JOIN"]
  | .rightOuter => ["RIGHT", "OUTER", "JOIN"]
  | .full => ["FULL", "JOIN"]
  | .cross => ["CROSS", "JOIN"]
  | _ => []

/-- Whether a join is one of the plain kinds, under a condition unless it is a cross join. -/
def Join.isPlain (d : Dialect) (n : Nat) : Join → Bool
  | ⟨false, false, kind, relation, none, on, columns⟩ =>
    !kind.words.isEmpty && relation.isPlain d && on.all (·.isPlain d n 0) && columns == "" &&
      (on.isNone || kind != .cross)
  | _ => false

theorem Join.eq_of_isPlain {d : Dialect} {n : Nat} {j : Join} (h : j.isPlain d n = true) :
    ∃ kind rel on, j = ⟨false, false, kind, rel, none, on, ""⟩ ∧ kind.words ≠ [] ∧
      rel.isPlain d = true ∧ on.all (·.isPlain d n 0) = true ∧ (on = none ∨ kind ≠ .cross) := by
  unfold Join.isPlain at h
  split at h
  · rename_i kind rel on columns
    simp only [Bool.and_eq_true, Bool.or_eq_true, Bool.not_eq_true', List.isEmpty_eq_false_iff,
      beq_iff_eq, bne_iff_ne, Option.isNone_iff_eq_none] at h
    obtain ⟨⟨⟨⟨hkind, hrel⟩, hon⟩, rfl⟩, hcross⟩ := h
    exact ⟨kind, rel, on, rfl, hkind, hrel, hon, hcross⟩
  · cases h

/-- The tokens of a plain join. -/
def Join.tokens : Join → List Token
  | ⟨_, _, kind, relation, _, on, _⟩ =>
    kind.words.map Token.capital ++ relation.tokens ++
      (on.map fun e => .capital "ON" :: e.tokens).getD []

/-- Whether a relation and all that are joined to it are plain. -/
def JoinTree.isPlain (d : Dialect) (n : Nat) : JoinTree → Bool
  | ⟨relation, joins⟩ => relation.isPlain d && joins.all (·.isPlain d n)

/-- The tokens of a relation and its joins. -/
def JoinTree.tokens : JoinTree → List Token
  | ⟨relation, joins⟩ => relation.tokens ++ joins.flatMap Join.tokens

/-! ## Blocks -/

/-- Whether an expression would be read as the alias of another. -/
def Expr.namesAnother : Expr → Bool
  | .binary (.column [_]) .eq _ => true
  | _ => false

/-- Whether an item of a projection is plain: a star, or an expression with an optional alias. -/
def SelectItem.isPlain (d : Dialect) (n : Nat) : SelectItem → Bool
  | .expr e => e.isPlain d n 0 && !(d.features.equalsAlias && e.namesAnother)
  | .aliased e i =>
    e.isPlain d n 0 && !(d.features.equalsAlias && e.namesAnother) && i.isWritten d
  | .wildcard [.text star, .text edits, .text names] => star == "*" && edits == "" && names == ""
  | .wildcard _ => false

theorem SelectItem.eq_of_isPlain {d : Dialect} {n : Nat} {ps : List Piece}
    (h : (SelectItem.wildcard ps).isPlain d n = true) : ps = [.text "*", .text "", .text ""] := by
  unfold SelectItem.isPlain at h
  split at h
  · simp_all
  · simp_all
  · rename_i star edits names heq
    cases heq
    simp only [Bool.and_eq_true, beq_iff_eq] at h
    obtain ⟨⟨rfl, rfl⟩, rfl⟩ := h
    rfl
  · cases h

/-- The tokens of a plain item. -/
def SelectItem.tokens : SelectItem → List Token
  | .expr e => e.tokens
  | .aliased e i => e.tokens ++ [.capital "AS", i.token]
  | .wildcard _ => [.symbol "*"]

/-- The tokens of several members with a mark between them. -/
def Token.separated (mark : String) : List (List Token) → List Token
  | [] => []
  | ts :: rest => ts ++ rest.flatMap fun us => .symbol mark :: us

/-- Whether a block selects plain items from plain relations under a plain condition. -/
def Select.isPlain (d : Dialect) (n : Nat) : Select → Bool
  | ⟨.standard, [], [], items, into, sources, [], selection, [], [], [], false, []⟩ =>
    !items.isEmpty && items.all (·.isPlain d n) && into == "" && sources.all (·.isPlain d n) &&
      selection.all (·.isPlain d n 0)
  | _ => false

theorem Select.eq_of_isPlain {d : Dialect} {n : Nat} {s : Select} (h : s.isPlain d n = true) :
    ∃ items sources selection,
      s = ⟨.standard, [], [], items, "", sources, [], selection, [], [], [], false, []⟩ ∧
        items ≠ [] ∧ (∀ item ∈ items, item.isPlain d n = true) ∧
        (∀ t ∈ sources, t.isPlain d n = true) ∧ selection.all (·.isPlain d n 0) = true := by
  unfold Select.isPlain at h
  split at h
  · rename_i items into sources selection
    simp only [Bool.and_eq_true, Bool.not_eq_true', List.isEmpty_eq_false_iff, beq_iff_eq,
      List.all_eq_true] at h
    obtain ⟨⟨⟨⟨hne, hitems⟩, rfl⟩, hsources⟩, hselection⟩ := h
    exact ⟨items, sources, selection, rfl, hne, hitems, hsources, hselection⟩
  · cases h

/-- The tokens of a plain block. -/
def Select.tokens : Select → List Token
  | ⟨_, _, _, items, _, sources, _, selection, _, _, _, _, _⟩ =>
    .capital "SELECT" :: Token.separated "," (items.map SelectItem.tokens) ++
      (if sources.isEmpty then []
        else .capital "FROM" :: Token.separated "," (sources.map JoinTree.tokens)) ++
      (selection.map fun e => .capital "WHERE" :: e.tokens).getD []

theorem Select.exists_tokens (s : Select) : ∃ ts, s.tokens = .capital "SELECT" :: ts := by
  cases s
  exact ⟨_, rfl⟩

/-- Whether a query is a plain block. -/
def Query.isPlain (d : Dialect) (n : Nat) : Query → Bool
  | ⟨false, [], .select s, [], none, [], none, tail, []⟩ => tail == "" && s.isPlain d n
  | _ => false

theorem Query.eq_of_isPlain {d : Dialect} {n : Nat} {q : Query} (h : q.isPlain d n = true) :
    ∃ s, q = ⟨false, [], .select s, [], none, [], none, "", []⟩ ∧ s.isPlain d n = true := by
  unfold Query.isPlain at h
  split at h
  · rename_i s tail
    rw [Bool.and_eq_true, beq_iff_eq] at h
    obtain ⟨rfl, hs⟩ := h
    exact ⟨s, rfl, hs⟩
  · cases h

/-- The depth that is left for the expressions of a statement. -/
def Statement.exprDepth : Nat :=
  Reader.maxDepth - 3

/-- Whether a statement is plain. -/
def Statement.isPlain (d : Dialect) : Statement → Bool
  | .select q => q.isPlain d exprDepth
  | _ => false

theorem Statement.eq_of_isPlain {d : Dialect} {s : Statement} (h : s.isPlain d = true) :
    ∃ b, s = .select ⟨false, [], .select b, [], none, [], none, "", []⟩ ∧
      b.isPlain d exprDepth = true := by
  unfold Statement.isPlain at h
  split at h
  · obtain ⟨b, rfl, hb⟩ := Query.eq_of_isPlain h
    exact ⟨b, rfl, hb⟩
  · cases h

/-- The tokens of a plain statement. -/
def Statement.tokens : Statement → List Token
  | .select ⟨_, _, .select s, _, _, _, _, _, _⟩ => s.tokens
  | _ => []

/-- The tokens of a plain statement begin with a word. -/
theorem Statement.exists_tokens {d : Dialect} {s : Statement} (h : s.isPlain d = true) :
    ∃ ts, s.tokens = .capital "SELECT" :: ts := by
  obtain ⟨b, rfl, -⟩ := Statement.eq_of_isPlain h
  exact b.exists_tokens

end RowPolicy.Sql
