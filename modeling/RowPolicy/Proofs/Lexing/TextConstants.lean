import Mathlib.Control.Monad.Basic
import RowPolicy.Sql.Lexer
import RowPolicy.Sql.Predicate
import RowPolicy.Sql.Render

/-!
# Reading back text constants

A text value is written between quotes, and the content is left as it is where it seems to have its
quotes doubled or escaped already. `Dialect.readsBack` says which contents the lexer of a dialect
reads back from what is written for them (`scan_ofValue_text_iff`). Every other content is read as
another one, or ends its constant early: then the rest of it is read as SQL.
-/

namespace RowPolicy.Sql

/-- Whether a backslash in a string stands for itself before `next`. Where a backslash is no escape,
it does not, before a quote: the writer takes the two for an escaped quote. -/
def keepsBackslash (escapes wildcards : Bool) (next : Option Char) : Bool :=
  if escapes then wildcards && (next == some '%' || next == some '_') else next != some '\''

/-- Whether a content is read back from what is written for it: no quote stands directly behind
another one, and all backslashes stand for themselves. -/
def readsBack (escapes wildcards : Bool) : List Char → Bool
  | [] => true
  | c :: rest =>
    (c != '\'' || rest.head? != some '\'') &&
      (c != '\\' || keepsBackslash escapes wildcards rest.head?) &&
      readsBack escapes wildcards rest

/-- Whether a dialect reads back a content from what is written for it. -/
def Dialect.readsBack (d : Dialect) (content : List Char) : Bool :=
  Sql.readsBack d.features.backslashEscapes d.features.wildcardEscapesKept content

/-! ## Between the quotes -/

theorem Scanned.after_eq_ok {front s r : List Char} {t : Scanned (List Char)} :
    t.after front = .ok (s, r) ↔ ∃ s', t = .ok (s', r) ∧ s = front ++ s' := by
  cases t with
  | error e => simp [Scanned.after, Except.map]
  | ok a =>
    obtain ⟨s', r'⟩ := a
    simp only [Scanned.after, Except.map, Except.ok.injEq, Prod.mk.injEq]
    constructor
    · rintro ⟨rfl, rfl⟩
      exact ⟨s', ⟨rfl, rfl⟩, rfl⟩
    · rintro ⟨s'', ⟨rfl, rfl⟩, rfl⟩
      exact ⟨rfl, rfl⟩

section Content

variable {escapes wildcards : Bool}

theorem scanQuoted_cons {c : Char} (hq : c ≠ '\'') (hb : c ≠ '\\' ∨ escapes = false)
    (rest : List Char) :
    scanQuoted '\'' escapes wildcards (c :: rest) =
      (scanQuoted '\'' escapes wildcards rest).after [c] := by
  have hc : (c == '\\' && escapes) = false := by
    rcases hb with h | h <;> simp [h]
  rw [scanQuoted.eq_def]
  simp [hq, hc]

theorem scanQuoted_doubled (rest : List Char) :
    scanQuoted '\'' escapes wildcards ('\'' :: '\'' :: rest) =
      (scanQuoted '\'' escapes wildcards rest).after ['\''] := by
  rw [scanQuoted]
  rfl

/-- A quote that no other follows ends the string. -/
theorem scanQuoted_closing {rest : List Char} (h : rest.head? ≠ some '\'') :
    scanQuoted '\'' escapes wildcards ('\'' :: rest) = .ok ([], rest) := by
  cases rest with
  | nil => rfl
  | cons c rest =>
    have hc : c ≠ '\'' := by simpa using h
    simp [scanQuoted, hc]

theorem scanQuoted_escape (n : Char) (rest : List Char) :
    scanQuoted '\'' true wildcards ('\\' :: n :: rest) =
      (scanQuoted '\'' true wildcards rest).after
        (if wildcards && (n == '%' || n == '_') then ['\\', n] else [escapedChar n]) := by
  rw [scanQuoted]
  rfl

theorem quoteContent_cons {c : Char} (hq : c ≠ '\'') (escaped : Bool) (rest : List Char) :
    quoteContent '\'' escaped (c :: rest) = c :: quoteContent '\'' (c == '\\') rest := by
  rw [quoteContent.eq_def]
  simp [hq]

theorem quoteContent_escaped (rest : List Char) :
    quoteContent '\'' true ('\'' :: rest) = '\'' :: quoteContent '\'' true rest := by
  rw [quoteContent.eq_def]
  rfl

theorem quoteContent_doubled (rest : List Char) :
    quoteContent '\'' false ('\'' :: '\'' :: rest) =
      '\'' :: '\'' :: quoteContent '\'' false rest := by
  rw [quoteContent]
  rfl

/-- A quote that stands alone is doubled. -/
theorem quoteContent_alone {rest : List Char} (h : rest.head? ≠ some '\'') :
    quoteContent '\'' false ('\'' :: rest) = '\'' :: '\'' :: quoteContent '\'' false rest := by
  cases rest with
  | nil => rfl
  | cons c rest =>
    have hc : c ≠ '\'' := by simpa using h
    rw [quoteContent]
    simp [hc]

/-- What stands behind an opening quote is read back if the content is one that is read back. -/
theorem scanQuoted_quoteContent {content rest : List Char}
    (h : readsBack escapes wildcards content) (hrest : rest.head? ≠ some '\'') (escaped : Bool)
    (he : escaped = true → content.head? ≠ some '\'') :
    scanQuoted '\'' escapes wildcards (quoteContent '\'' escaped content ++ '\'' :: rest) =
      .ok (content, rest) := by
  induction content generalizing escaped with
  | nil => exact scanQuoted_closing hrest
  | cons c content ih =>
    simp only [readsBack, Bool.and_eq_true, Bool.or_eq_true, bne_iff_ne, ne_eq] at h
    obtain ⟨⟨hquote, hslash⟩, hback⟩ := h
    by_cases hq : c = '\''
    · subst hq
      have halone : content.head? ≠ some '\'' := by simpa using hquote
      have hfalse : escaped = false := by simpa using he
      rw [hfalse, quoteContent_alone halone, List.cons_append, List.cons_append,
        scanQuoted_doubled, ih hback false (by simp)]
      rfl
    · rw [quoteContent_cons hq, List.cons_append]
      by_cases hb : c = '\\'
      · subst hb
        have hkeep : keepsBackslash escapes wildcards content.head? = true := by simpa using hslash
        cases escapes with
        | false =>
          have hnext : content.head? ≠ some '\'' := by simpa [keepsBackslash] using hkeep
          rw [scanQuoted_cons hq (.inr rfl), ih hback _ fun _ => hnext]
          rfl
        | true =>
          -- the wildcard behind the backslash is read together with it
          cases content with
          | nil => simp [keepsBackslash] at hkeep
          | cons n content =>
            have hn : wildcards = true ∧ (n = '%' ∨ n = '_') := by
              simpa [keepsBackslash] using hkeep
            have hnq : n ≠ '\'' := by rcases hn.2 with rfl | rfl <;> decide
            have hnb : n ≠ '\\' := by rcases hn.2 with rfl | rfl <;> decide
            have hread := ih hback true (by simpa using hnq)
            rw [quoteContent_cons hnq, List.cons_append, scanQuoted_cons hnq (.inl hnb),
              Scanned.after_eq_ok] at hread
            obtain ⟨s, hs, heq⟩ := hread
            obtain rfl : content = s := by simpa using heq
            have hwild : (wildcards && (n == '%' || n == '_')) = true := by
              rcases hn with ⟨rfl, rfl | rfl⟩ <;> rfl
            rw [beq_self_eq_true, quoteContent_cons hnq, List.cons_append, scanQuoted_escape,
              hs, hwild]
            rfl
      · have hstate : (c == '\\') = false := by simpa using hb
        rw [scanQuoted_cons hq (.inl hb), hstate, ih hback false (by simp)]
        rfl

/-- From a quote that seems to be escaped, less is read than was to be written. -/
theorem length_lt_of_scanQuoted_escaped {content s r : List Char}
    (ih : ∀ {content' s' : List Char}, content = '\'' :: content' →
      scanQuoted '\'' escapes wildcards (quoteContent '\'' true content' ++ ['\'']) = .ok (s', r) →
        s'.length ≤ content'.length)
    (h : scanQuoted '\'' escapes wildcards
      ('\'' :: (quoteContent '\'' true content ++ ['\''])) = .ok (s, r)) :
    s.length < content.length + 1 := by
  cases content with
  | nil =>
    rw [quoteContent, List.nil_append, scanQuoted_doubled, Scanned.after_eq_ok] at h
    obtain ⟨s', hs, -⟩ := h
    simp [scanQuoted] at hs
  | cons c content =>
    by_cases hq : c = '\''
    · subst hq
      rw [quoteContent_escaped, List.cons_append, scanQuoted_doubled, Scanned.after_eq_ok] at h
      obtain ⟨s', hs, rfl⟩ := h
      have hle := ih rfl hs
      simp only [List.cons_append, List.nil_append, List.length_cons]
      omega
    · rw [quoteContent_cons hq, scanQuoted_closing (by simpa using hq)] at h
      obtain ⟨rfl, -⟩ : [] = s ∧ _ = r := by simpa using h
      simp

/-- From a backslash that escapes, as much is read as was to be written only before a wildcard. -/
theorem length_le_of_scanQuoted_backslash {content s r : List Char} (he : escapes = true)
    (ih : ∀ {content' s' : List Char} {n : Char} {escaped : Bool}, content = n :: content' →
      scanQuoted '\'' escapes wildcards (quoteContent '\'' escaped content' ++ ['\'']) =
        .ok (s', r) →
      s'.length ≤ content'.length ∧
        (s'.length = content'.length → r = [] ∧ readsBack escapes wildcards content' ∧
          (escaped = true → content'.head? ≠ some '\'')))
    (h : scanQuoted '\'' escapes wildcards
      ('\\' :: (quoteContent '\'' true content ++ ['\''])) = .ok (s, r)) :
    s.length ≤ content.length + 1 ∧ (s.length = content.length + 1 →
      r = [] ∧ keepsBackslash escapes wildcards content.head? ∧
        readsBack escapes wildcards content) := by
  subst he
  cases content with
  | nil =>
    rw [quoteContent, List.nil_append, scanQuoted_escape, Scanned.after_eq_ok] at h
    obtain ⟨s', hs, -⟩ := h
    simp [scanQuoted] at hs
  | cons n content =>
    -- whatever the writer takes `n` for, the lexer reads it together with the backslash
    obtain ⟨escaped, hwritten⟩ : ∃ escaped,
        quoteContent '\'' true (n :: content) = n :: quoteContent '\'' escaped content := by
      by_cases hn : n = '\''
      · exact ⟨true, hn ▸ quoteContent_escaped content⟩
      · exact ⟨_, quoteContent_cons hn true content⟩
    rw [hwritten, List.cons_append, scanQuoted_escape, Scanned.after_eq_ok] at h
    obtain ⟨s', hs, rfl⟩ := h
    obtain ⟨hle, heq⟩ := ih rfl hs
    split
    · rename_i hwild
      refine ⟨by simpa using hle, fun hlen => ?_⟩
      obtain ⟨hr, hback, -⟩ := heq (by simpa using hlen)
      have hkeep : keepsBackslash true wildcards (some n) = true := by
        simpa [keepsBackslash] using hwild
      simp only [Bool.and_eq_true, Bool.or_eq_true, beq_iff_eq] at hwild
      refine ⟨hr, hkeep, ?_⟩
      rcases hwild.2 with rfl | rfl <;> simpa [readsBack] using hback
    · simp only [List.cons_append, List.nil_append, List.length_cons]
      omega

/-- No more is read than was to be written, and as much only where the content is one that is read
back. -/
theorem length_le_of_scanQuoted {content : List Char} {escaped : Bool} {s r : List Char}
    (h : scanQuoted '\'' escapes wildcards (quoteContent '\'' escaped content ++ ['\'']) =
      .ok (s, r)) :
    s.length ≤ content.length ∧ (s.length = content.length →
      r = [] ∧ readsBack escapes wildcards content ∧
        (escaped = true → content.head? ≠ some '\'')) := by
  match content with
  | [] =>
    obtain ⟨rfl, rfl⟩ : [] = s ∧ [] = r := by
      rw [quoteContent, List.nil_append, scanQuoted_closing (by simp)] at h
      simpa using h
    simp [readsBack]
  | c :: content =>
    by_cases hq : c = '\''
    · subst hq
      cases escaped with
      | true =>
        rw [quoteContent_escaped, List.cons_append] at h
        have hlt := length_lt_of_scanQuoted_escaped
          (fun _ hs => (length_le_of_scanQuoted hs).1) h
        simp only [List.length_cons]
        omega
      | false =>
        by_cases hnext : content.head? = some '\''
        · obtain ⟨content', rfl⟩ : ∃ content', content = '\'' :: content' := by
            cases content with
            | nil => simp at hnext
            | cons c' content' => exact ⟨content', by simpa using hnext⟩
          rw [quoteContent_doubled, List.cons_append, List.cons_append, scanQuoted_doubled,
            Scanned.after_eq_ok] at h
          obtain ⟨s', hs, rfl⟩ := h
          have hle := (length_le_of_scanQuoted hs).1
          simp only [List.cons_append, List.nil_append, List.length_cons]
          omega
        · rw [quoteContent_alone hnext, List.cons_append, List.cons_append, scanQuoted_doubled,
            Scanned.after_eq_ok] at h
          obtain ⟨s', hs, rfl⟩ := h
          obtain ⟨hle, heq⟩ := length_le_of_scanQuoted hs
          refine ⟨by simpa using hle, fun hlen => ?_⟩
          obtain ⟨hr, hback, -⟩ := heq (by simpa using hlen)
          exact ⟨hr, by simp [readsBack, hnext, hback], by simp⟩
    · rw [quoteContent_cons hq, List.cons_append] at h
      by_cases hb : c = '\\' ∧ escapes = true
      · obtain ⟨rfl, he⟩ := hb
        obtain ⟨hle, heq⟩ := length_le_of_scanQuoted_backslash he
          (fun _ hs => length_le_of_scanQuoted hs) h
        refine ⟨hle, fun hlen => ?_⟩
        obtain ⟨hr, hkeep, hback⟩ := heq hlen
        exact ⟨hr, by simp [readsBack, hkeep, hback], by simp⟩
      · have hplain : c ≠ '\\' ∨ escapes = false := by
          rw [← Bool.not_eq_true]
          exact not_and_or.mp hb
        rw [scanQuoted_cons hq hplain, Scanned.after_eq_ok] at h
        obtain ⟨s', hs, rfl⟩ := h
        obtain ⟨hle, heq⟩ := length_le_of_scanQuoted hs
        refine ⟨by simpa using hle, fun hlen => ?_⟩
        obtain ⟨hr, hback, hhead⟩ := heq (by simpa using hlen)
        have hkeep : c = '\\' → keepsBackslash escapes wildcards content.head? = true := by
          rintro rfl
          have hfalse : escapes = false := by simpa using hplain
          simpa [keepsBackslash, hfalse] using hhead rfl
        refine ⟨hr, ?_, by simpa using fun _ => hq⟩
        simp only [readsBack, hback, Bool.and_true, Bool.and_eq_true, Bool.or_eq_true,
          bne_iff_ne]
        exact ⟨.inl hq, or_iff_not_imp_left.mpr fun hc => hkeep (not_not.mp hc)⟩
termination_by content.length

theorem scanQuoted_quoteContent_iff {content : List Char} :
    (∃ r, scanQuoted '\'' escapes wildcards (quoteContent '\'' false content ++ ['\'']) =
      .ok (content, r)) ↔ readsBack escapes wildcards content := by
  constructor
  · rintro ⟨r, h⟩
    exact ((length_le_of_scanQuoted h).2 rfl).2.1
  · intro h
    exact ⟨[], scanQuoted_quoteContent h (by simp) false (by simp)⟩

end Content

/-! ## The constant -/

/-- Only some letters announce a constant of another kind, and only before a quote or `&`. -/
theorem scanPrefixed_eq_none {d : Dialect} {c : Char} {rest : List Char}
    (h : c.toUpper ∉ ['B', 'R', 'N', 'E', 'X', 'U'] ∨ ∀ n ∈ rest.head?, n ∉ ['\'', '"', '&']) :
    scanPrefixed d (c :: rest) = none := by
  unfold scanPrefixed
  split
  case h_4 => rfl
  all_goals
    rename_i heq
    obtain ⟨rfl, rfl⟩ := List.cons.inj heq
    have hc := h.resolve_right (by simp)
    simp only [List.mem_cons, List.not_mem_nil, or_false, not_or] at hc
    simp [hc]

theorem scanToken_quote (d : Dialect) (last : Option Token) (rest : List Char) :
    scanToken d last '\'' rest =
      (scanString .plain '\'' d.features.backslashEscapes d.features.wildcardEscapesKept rest).map
        fun (t, r) => (some t, r) := by
  have hnone : scanPrefixed d ('\'' :: rest) = none := scanPrefixed_eq_none (.inl (by decide))
  simp [scanToken, hnone]

/-- A text begins with a constant, and goes on with what stands behind its closing quote. -/
theorem scan_quote (d : Dialect) (cs : List Char) :
    Lexeme.scan d (String.ofList ('\'' :: cs)) = do
      let (s, r) ← scanQuoted '\'' d.features.backslashEscapes d.features.wildcardEscapesKept cs
      let t := Token.string .plain (String.ofList s)
      return ⟨t, false⟩ :: (← scanAll d cs.length (some t) r) := by
  rw [Lexeme.scan, String.toList_ofList, List.length_cons, scanAll, scanToken_quote, scanString]
  cases scanQuoted '\'' d.features.backslashEscapes d.features.wildcardEscapesKept cs <;> rfl

/-- **A text value is read back as one constant with its content if and only if no quote stands in
it directly behind another quote and no backslash stands where it is read as an escape, or is
written as one.** -/
theorem Lexeme.scan_ofValue_text_iff (d : Dialect) (v : String) :
    Lexeme.scan d (Expr.ofValue (.text v)).render = .ok [⟨.string .plain v, false⟩] ↔
      d.readsBack v.toList := by
  have hrender : (Expr.ofValue (.text v)).render =
      String.ofList ('\'' :: (quoteContent '\'' false v.toList ++ ['\''])) := by
    rw [Expr.ofValue, Literal.ofValue, Expr.render, Literal.render, quoted, List.cons_append]
  rw [hrender, scan_quote, Dialect.readsBack, ← scanQuoted_quoteContent_iff]
  cases hs : scanQuoted '\'' d.features.backslashEscapes d.features.wildcardEscapesKept
      (quoteContent '\'' false v.toList ++ ['\'']) with
  | error e => simp [bind, Except.bind]
  | ok a =>
    obtain ⟨s, r⟩ := a
    constructor
    · intro h
      dsimp only [bind, Except.bind] at h
      generalize scanAll d _ _ r = ts at h
      cases ts with
      | error e => simp at h
      | ok ts =>
        have htoken : String.ofList s = v := by
          simp only [pure, Except.pure, Except.ok.injEq, List.cons.injEq, Lexeme.mk.injEq,
            Token.string.injEq] at h
          exact h.1.1.2
        exact ⟨r, by rw [← htoken, String.toList_ofList]⟩
    · rintro ⟨r', heq⟩
      obtain ⟨rfl, rfl⟩ : s = v.toList ∧ r = r' := by simpa using heq
      obtain rfl : r = [] := ((length_le_of_scanQuoted hs).2 rfl).1
      simp [bind, Except.bind, pure, Except.pure, scanAll]

/-- A tenant that ends its constant early is not one constant: what follows its quote is read as
SQL. -/
theorem scan_ofValue_brokenOut :
    Lexeme.scan .generic (Expr.ofValue (.text "\\' OR 1=1 -- ")).render =
      .ok [⟨.string .plain "\\", false⟩, ⟨.plainWord "OR", false⟩, ⟨.number "1" false, false⟩,
        ⟨.symbol "=", true⟩, ⟨.number "1" false, true⟩] ∧
    Lexeme.scan .generic (Expr.ofValue (.text "\\' OR 1=1 -- ")).render ≠
      .ok [⟨.string .plain "\\' OR 1=1 -- ", false⟩] :=
  ⟨by decide +kernel, by decide +kernel⟩

end RowPolicy.Sql
