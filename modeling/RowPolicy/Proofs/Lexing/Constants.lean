import RowPolicy.Proofs.Lexing.Contents
import RowPolicy.Sql.Grammar.Constant

/-!
# What is printed for quoted names and constants

A quoted name, a string constant of each kind and a string between dollars are printed from their
content alone. `Enclosed.readsBack` says for which contents the printed form is read back in a
dialect, and `Enclosed.scan_text_iff` that it is right: the printed form is the same one token if
and only if the content is such. A content with a backslash in a dialect that escapes, a name in
brackets with a closing bracket in it, or two quotes in a row are read as another content or not at
all.
-/

namespace RowPolicy.Sql

/-! ## Tokens with a content -/

/-- A token whose content stands between quotes. -/
inductive Enclosed where
  | name (quote : Char) (value : String)
  | string (kind : StringKind) (content : String)
  | dollar (tag : Option String) (content : String)

/-- The strings that a dialect has. -/
def Dialect.hasStrings (d : Dialect) : StringKind → Bool
  | .plain | .national | .hex => true
  | .double => !d.isQuote '"'
  | .byte | .doubleByte => d.features.byteStrings
  | .raw | .doubleRaw | .tripleRaw | .tripleDoubleRaw => d.features.rawStrings
  | .escaped => d.features.escapeStrings
  | .unicode => d.features.unicodeStrings

/-- The characters of the tag of a string between dollars. -/
def isTagPart (c : Char) : Bool :=
  Text.isLetter c || Text.isNumeral c || c == '_'

namespace Enclosed

/-- The token. -/
def token : Enclosed → Token
  | name q v => .quotedWord q v
  | string kind s => .string kind s
  | dollar tag s => .dollar tag s

/-- What is printed for the token where it stands for itself. -/
def text : Enclosed → String
  | name q v => Ident.render ⟨v, some q⟩
  | string kind s => (kind.literal s).render
  | dollar tag s => ("$" ++ tag.getD "" ++ "$") ++ s ++ ("$" ++ tag.getD "" ++ "$")

/-- Whether a dialect has such tokens. -/
def isOf (d : Dialect) : Enclosed → Bool
  | name q _ => d.isQuote q
  | string kind _ => d.hasStrings kind
  | dollar tag _ =>
    !d.features.dollarPlaceholders && !d.isNameStart '$' &&
      tag.all fun t => !t.isEmpty && t.toList.all isTagPart

/-- The characters that end a string between dollars. -/
def dollarTag (tag : Option String) : List Char :=
  '$' :: (tag.getD "").toList ++ ['$']

/-- Whether a dialect reads back what is printed for the token. -/
def readsBack (d : Dialect) : Enclosed → Bool
  | name q v =>
    if q == '[' then keepsContent ']' false false v.toList
    else readsBackIn q false false v.toList
  | string kind s =>
    let escapes := d.features.backslashEscapes
    let wildcards := d.features.wildcardEscapesKept
    match kind with
    | .plain => readsBackIn '\'' escapes wildcards s.toList
    | .double => readsBackIn '"' escapes wildcards s.toList
    | .byte | .raw => keepsContent '\'' false false s.toList
    | .doubleByte | .doubleRaw => keepsContent '"' false false s.toList
    | .tripleRaw => closesAtEnd ['\'', '\'', '\''] s.toList
    | .tripleDoubleRaw => closesAtEnd ['"', '"', '"'] s.toList
    | .national => keepsContent '\'' escapes wildcards s.toList
    | .hex => keepsContent '\'' true wildcards s.toList
    | .escaped | .unicode => true
  | dollar tag s => closesAtEnd (dollarTag tag) s.toList

end Enclosed

section Scanning

variable {d : Dialect} {last : Option Token} {q c : Char} {rest : List Char}

/-- A scanned token as what a step of the lexer yields. -/
def Scanned.step (t : Scanned Token) : Scanned (Option Token) :=
  t.map fun (t, r) => (some t, r)

/-- A text is one token if and only if the token that it begins with goes on to its end. -/
theorem scan_eq_singleton_iff {text : String} {cs : List Char} {t : Token} {p : Scanned Token}
    {b : Bool} (htext : text.toList = c :: cs) (hscan : scanToken d none c cs = p.step)
    (hback : b = true → p = .ok (t, [])) (hlost : ∀ r, p = .ok (t, r) → b = true) :
    Lexeme.scan d text = .ok [⟨t, false⟩] ↔ b = true := by
  rw [Lexeme.scan, htext, List.length_cons, scanAll, hscan]
  constructor
  · intro h
    cases p with
    | error e => simp [Scanned.step, bind, Except.bind, Except.map] at h
    | ok a =>
      obtain ⟨t', r⟩ := a
      simp only [Scanned.step, Except.map, bind, Except.bind] at h
      generalize scanAll d cs.length (some t') r = ts at h
      cases ts with
      | error e => simp at h
      | ok ts =>
        simp only [pure, Except.pure, Except.ok.injEq, List.cons.injEq, Lexeme.mk.injEq] at h
        exact hlost r (by rw [h.1.1])
  · intro h
    rw [hback h]
    simp [Scanned.step, Except.map, bind, Except.bind, pure, Except.pure, scanAll]

/-- A text is one token with a content if and only if the content is read to its end. -/
theorem scan_content_iff (c : Char) (cs : List Char) {text s : String} {make : String → Token}
    (hmake : Function.Injective make) {content : Scanned (List Char)} {b : Bool}
    (htext : text.toList = c :: cs) (hscan : scanToken d none c cs = (content.token make).step)
    (hback : b = true → content = .ok (s.toList, []))
    (hlost : ∀ r, content = .ok (s.toList, r) → b = true) :
    Lexeme.scan d text = .ok [⟨make s, false⟩] ↔ b = true := by
  refine scan_eq_singleton_iff htext hscan (fun h => ?_) fun r h => ?_
  · rw [hback h]
    simp [Scanned.token, Except.map]
  · cases content with
    | error e => simp [Scanned.token, Except.map] at h
    | ok a =>
      obtain ⟨s', r'⟩ := a
      simp only [Scanned.token, Except.map, Except.ok.injEq, Prod.mk.injEq] at h
      refine hlost r ?_
      rw [← hmake h.1, String.toList_ofList, h.2]

/-! ### How the tokens begin -/

/-- What a constant that a letter announces is read as. -/
theorem scanToken_of_scanPrefixed {t : Scanned Token}
    (hc : c ∈ ['B', 'R', 'N', 'E', 'X', 'U']) (h : scanPrefixed d (c :: rest) = some t) :
    scanToken d last c rest = t.step := by
  simp only [List.mem_cons, List.not_mem_nil, or_false] at hc
  obtain rfl | rfl | rfl | rfl | rfl | rfl := hc <;> simp [scanToken, h] <;> rfl

theorem isQuote_cases (h : d.isQuote q = true) : q = '"' ∨ q = '`' ∨ q = '[' := by
  cases d <;> simp only [Dialect.isQuote, Bool.or_eq_true, beq_iff_eq] at h <;> grind

theorem scanToken_quotedName (h : d.isQuote q = true) :
    scanToken d last q rest = (scanQuotedName q rest).step := by
  have hnone : scanPrefixed d (q :: rest) = none := by
    refine scanPrefixed_eq_none (.inl ?_)
    obtain rfl | rfl | rfl := isQuote_cases h <;> decide
  obtain rfl | rfl | rfl := isQuote_cases h <;> simp [scanToken, h, hnone] <;> rfl

theorem scanToken_doubleQuote (h : d.isQuote '"' = false) :
    scanToken d last '"' rest = (scanString .double '"' d.features.backslashEscapes
      d.features.wildcardEscapesKept rest).step := by
  have hnone : scanPrefixed d ('"' :: rest) = none := scanPrefixed_eq_none (.inl (by decide))
  simp [scanToken, h, hnone]
  rfl

theorem scanToken_dollar (h : d.isNameStart '$' = false) :
    scanToken d last '$' rest = (scanDollar d rest).step := by
  have hnone : scanPrefixed d ('$' :: rest) = none := scanPrefixed_eq_none (.inl (by decide))
  have hheads : '$' ∉ symbolHeads := by decide
  have hquote : d.isQuote '$' = false := by
    cases d <;> rfl
  simp [scanToken, h, hnone, hquote, matchOpen?_eq_none hheads, matchClosed?_eq_none hheads]
  rfl

/-! ### What they are read as -/

/-- Text between quotes that are doubled in it, behind the characters `c` and `cs`. -/
theorem scan_doubled_iff (c : Char) (cs : List Char) {text s : String} {make : String → Token}
    (hmake : Function.Injective make) {escapes wildcards : Bool} (hq : q ∈ doubledQuotes)
    (htext : text.toList = c :: (cs ++ quoteContent q false s.toList ++ [q]))
    (hscan : scanToken d none c (cs ++ quoteContent q false s.toList ++ [q]) =
      ((scanQuoted q escapes wildcards (quoteContent q false s.toList ++ [q])).token make).step) :
    Lexeme.scan d text = .ok [⟨make s, false⟩] ↔
      readsBackIn q escapes wildcards s.toList = true :=
  scan_content_iff c _ hmake htext hscan (fun h => scanQuoted_of_readsBackIn hq h (by simp))
    fun _ h => readsBackIn_of_scanQuoted hq h

/-- Text between quotes that is written as it is, behind the characters `c` and `cs`. -/
theorem scan_bare_iff (c : Char) (cs : List Char) {text s : String} {make : String → Token}
    (hmake : Function.Injective make) {escapes wildcards : Bool} (hq : q ∉ ['\\', '%', '_'])
    (htext : text.toList = c :: (cs ++ s.toList ++ [q]))
    (hscan : scanToken d none c (cs ++ s.toList ++ [q]) =
      ((scanQuoted q escapes wildcards (s.toList ++ [q])).token make).step) :
    Lexeme.scan d text = .ok [⟨make s, false⟩] ↔
      keepsContent q escapes wildcards s.toList = true :=
  scan_content_iff c _ hmake htext hscan (fun h => scanQuoted_of_keepsContent hq (by simp) h)
    fun _ h => keepsContent_of_scanQuoted hq h

theorem Token.string_injective (kind : StringKind) : Function.Injective (Token.string kind) :=
  fun _ _ h => (Token.string.inj h).2

theorem Token.quotedWord_injective (q : Char) : Function.Injective (Token.quotedWord q) :=
  fun _ _ h => (Token.word.inj h).1

theorem Token.dollar_injective (tag : Option String) : Function.Injective (Token.dollar tag) :=
  fun _ _ h => (Token.dollar.inj h).2

theorem scan_name_iff (h : d.isQuote q = true) (v : String) :
    Lexeme.scan d (Ident.render ⟨v, some q⟩) = .ok [⟨.quotedWord q v, false⟩] ↔
      (Enclosed.name q v).readsBack d = true := by
  by_cases hbracket : q = '['
  · subst hbracket
    refine scan_bare_iff '[' [] (Token.quotedWord_injective '[') (by decide) ?_ ?_
    · simp [Ident.render]
    · exact scanToken_quotedName h
  · have hdoubled : q ∈ doubledQuotes := by
      obtain rfl | rfl | rfl := isQuote_cases h
      · decide
      · decide
      · exact absurd rfl hbracket
    have hrender : Ident.render ⟨v, some q⟩ = quoted q v := by
      obtain rfl | rfl | rfl := isQuote_cases h
      · rfl
      · rfl
      · exact absurd rfl hbracket
    have hclosing : Token.closingQuote q = q := by
      simp [Token.closingQuote, hbracket]
    rw [hrender]
    simp only [Enclosed.readsBack, beq_iff_eq, hbracket, if_false]
    refine scan_doubled_iff q [] (Token.quotedWord_injective q) hdoubled ?_ ?_
    · simp [quoted]
    · rw [scanToken_quotedName h, scanQuotedName, hclosing]
      rfl

/-- Behind a quote that is doubled at once, no raw string with a content is read. -/
theorem scanRaw_ne {single triple : StringKind} (hkinds : single ≠ triple) {s : String}
    {cs r : List Char} (hs : s ≠ "") :
    scanRaw single triple q (q :: cs) ≠ .ok (.string single s, r) := by
  intro h
  cases cs with
  | nil =>
    simp only [scanRaw, bne_self_eq_false, Bool.false_eq_true, if_false, Except.ok.injEq,
      Prod.mk.injEq, Token.string.injEq] at h
    exact hs h.1.2.symm
  | cons c cs =>
    simp only [scanRaw, bne_self_eq_false, Bool.false_eq_true, if_false] at h
    split at h
    · cases hscan : scanTriple q 0 cs with
      | error e => simp [hscan, Scanned.token, Except.map] at h
      | ok a =>
        simp only [hscan, Scanned.token, Except.map, Except.ok.injEq, Prod.mk.injEq,
          Token.string.injEq] at h
        exact hkinds h.1.1.symm
    · simp only [Except.ok.injEq, Prod.mk.injEq, Token.string.injEq] at h
      exact hs h.1.2.symm

/-- A raw string between single quotes, which may not seem to be one between three. -/
theorem scan_raw_iff (single triple : StringKind) (q : Char) (hkinds : single ≠ triple)
    (hq : q ∉ ['\\', '%', '_']) {text s : String}
    (htext : text.toList = 'R' :: (q :: s.toList ++ [q]))
    (hscan : scanToken d none 'R' (q :: s.toList ++ [q]) =
      (scanRaw single triple q (s.toList ++ [q])).step) :
    Lexeme.scan d text = .ok [⟨.string single s, false⟩] ↔
      keepsContent q false false s.toList = true := by
  by_cases hhead : s.toList.head? = some q
  · obtain ⟨cs, hcs⟩ : ∃ cs, s.toList = q :: cs := by
      cases hs : s.toList with
      | nil => simp [hs] at hhead
      | cons c cs => exact ⟨cs, by simpa [hs] using hhead⟩
    have hne : s ≠ "" := by
      rintro rfl
      cases hcs
    refine scan_eq_singleton_iff htext hscan (fun h => ?_) fun r h => ?_
    · simp [hcs, keepsContent] at h
    · rw [hcs, List.cons_append] at h
      exact absurd h (scanRaw_ne hkinds hne)
  · by_cases hempty : s = ""
    · subst hempty
      exact scan_eq_singleton_iff htext hscan (fun _ => by simp [scanRaw]) fun _ _ => rfl
    · obtain ⟨c, cs, hcs⟩ : ∃ c cs, s.toList = c :: cs :=
        List.exists_cons_of_ne_nil (by simpa using hempty)
      have hc : c ≠ q := by simpa [hcs] using hhead
      have hplain : scanRaw single triple q (s.toList ++ [q]) =
          (scanQuoted q false false (s.toList ++ [q])).token (.string single) := by
        rw [hcs]
        simp [scanRaw, hc, scanString]
      refine scan_bare_iff 'R' [q] (Token.string_injective single) hq htext ?_
      rw [← hplain]
      exact hscan

theorem scanRaw_triple (single triple : StringKind) (q : Char) (rest : List Char) :
    scanRaw single triple q (q :: q :: rest) =
      (Scanned.ofSplit (splitAtText [q, q, q] rest)).token (.string triple) := by
  simp [scanRaw, scanTriple_eq]

theorem ofSplit_eq_ok_iff {a : Option (List Char × List Char)} {x : List Char × List Char} :
    Scanned.ofSplit a = .ok x ↔ a = some x := by
  cases a <;> simp [Scanned.ofSplit]

/-- A content that a text ends. -/
theorem scan_split_iff (c : Char) (cs stop : List Char) (hstop : stop ≠ []) {text s : String}
    {make : String → Token} (hmake : Function.Injective make)
    (htext : text.toList = c :: (cs ++ s.toList ++ stop))
    (hscan : scanToken d none c (cs ++ s.toList ++ stop) =
      ((Scanned.ofSplit (splitAtText stop (s.toList ++ stop))).token make).step) :
    Lexeme.scan d text = .ok [⟨make s, false⟩] ↔ closesAtEnd stop s.toList = true :=
  scan_content_iff c _ hmake htext hscan
    (fun h => ofSplit_eq_ok_iff.mpr (splitAtText_of_closesAtEnd hstop h))
    fun _ h => closesAtEnd_of_splitAtText (ofSplit_eq_ok_iff.mp h)

theorem scan_string_iff (kind : StringKind) (h : d.hasStrings kind = true) (s : String) :
    Lexeme.scan d (kind.literal s).render = .ok [⟨.string kind s, false⟩] ↔
      (Enclosed.string kind s).readsBack d = true := by
  have hinj := Token.string_injective kind
  cases kind with
  | plain =>
    refine scan_doubled_iff '\'' [] hinj (by decide) ?_ ?_
    · simp [StringKind.literal, Literal.render, quoted]
    · exact scanToken_quote d none _
  | double =>
    refine scan_doubled_iff '"' [] hinj (by decide) ?_ ?_
    · simp [StringKind.literal, Literal.render, quoted]
    · exact scanToken_doubleQuote (by simpa [Dialect.hasStrings] using h)
  | byte =>
    have hbyte : d.features.byteStrings = true := h
    refine scan_bare_iff 'B' ['\''] hinj (by decide) ?_ ?_
    · simp [StringKind.literal, Literal.render]
    · exact scanToken_of_scanPrefixed (by simp) (by simp [scanPrefixed, hbyte, scanString])
  | doubleByte =>
    have hbyte : d.features.byteStrings = true := h
    refine scan_bare_iff 'B' ['"'] hinj (by decide) ?_ ?_
    · simp [StringKind.literal, Literal.render]
    · exact scanToken_of_scanPrefixed (by simp) (by simp [scanPrefixed, hbyte, scanString])
  | raw =>
    have hraw : d.features.rawStrings = true := h
    refine scan_raw_iff .raw .tripleRaw '\'' (by decide) (by decide) ?_ ?_
    · simp [StringKind.literal, Literal.render]
    · exact scanToken_of_scanPrefixed (by simp) (by simp [scanPrefixed, hraw])
  | doubleRaw =>
    have hraw : d.features.rawStrings = true := h
    refine scan_raw_iff .doubleRaw .tripleDoubleRaw '"' (by decide) (by decide) ?_ ?_
    · simp [StringKind.literal, Literal.render]
    · exact scanToken_of_scanPrefixed (by simp) (by simp [scanPrefixed, hraw])
  | tripleRaw =>
    have hraw : d.features.rawStrings = true := h
    refine scan_split_iff 'R' ['\'', '\'', '\''] ['\'', '\'', '\''] (by simp) hinj ?_ ?_
    · simp [StringKind.literal, Literal.render]
    · rw [← scanRaw_triple .raw]
      exact scanToken_of_scanPrefixed (by simp) (by simp [scanPrefixed, hraw])
  | tripleDoubleRaw =>
    have hraw : d.features.rawStrings = true := h
    refine scan_split_iff 'R' ['"', '"', '"'] ['"', '"', '"'] (by simp) hinj ?_ ?_
    · simp [StringKind.literal, Literal.render]
    · rw [← scanRaw_triple .doubleRaw]
      exact scanToken_of_scanPrefixed (by simp) (by simp [scanPrefixed, hraw])
  | national =>
    refine scan_bare_iff 'N' ['\''] hinj (by decide) ?_ ?_
    · simp [StringKind.literal, Literal.render]
    · exact scanToken_of_scanPrefixed (by simp) rfl
  | hex =>
    refine scan_bare_iff 'X' ['\''] hinj (by decide) ?_ ?_
    · simp [StringKind.literal, Literal.render]
    · exact scanToken_of_scanPrefixed (by simp) rfl
  | escaped =>
    have hescape : d.features.escapeStrings = true := h
    have hread : scanEscapeString ((escapeContent s.toList ++ ['\'']).length + 1)
        (escapeContent s.toList ++ ['\'']) = .ok (s.toList, []) := by
      have hlength := length_le_escapeContent s.toList
      exact scanEscapeString_escapeContent (by rw [List.length_append]; omega) (by simp)
    refine scan_content_iff 'E' ('\'' :: (escapeContent s.toList ++ ['\''])) hinj ?_
      (scanToken_of_scanPrefixed (by simp) ?_) (fun _ => hread) fun _ _ => rfl
    · simp [StringKind.literal, Literal.render]
    · simp [scanPrefixed, hescape]
  | unicode =>
    have hunicode : d.features.unicodeStrings = true := h
    have hread : scanUnicodeString ((unicodeContent s.toList ++ ['\'']).length + 1)
        (unicodeContent s.toList ++ ['\'']) = .ok (s.toList, []) := by
      have hlength := length_le_unicodeContent s.toList
      exact scanUnicodeString_unicodeContent (by rw [List.length_append]; omega) (by simp)
    refine scan_content_iff 'U' ('&' :: '\'' :: (unicodeContent s.toList ++ ['\''])) hinj ?_
      (scanToken_of_scanPrefixed (by simp) ?_) (fun _ => hread) fun _ _ => rfl
    · simp [StringKind.literal, Literal.render]
    · simp [scanPrefixed, hunicode]

theorem scanDollar_of_tag {tag : Option String} (hplain : d.features.dollarPlaceholders = false)
    (htag : (tag.all fun t => !t.isEmpty && t.toList.all isTagPart) = true) (rest : List Char) :
    scanDollar d ((tag.getD "").toList ++ '$' :: rest) =
      (Scanned.ofSplit (splitAtText (Enclosed.dollarTag tag) rest)).token (.dollar tag) := by
  cases tag with
  | none => simp [scanDollar, hplain, scanDollars_eq, Enclosed.dollarTag]
  | some t =>
    simp only [Option.all_some, Bool.and_eq_true, Bool.not_eq_true', List.all_eq_true] at htag
    obtain ⟨hne, hall⟩ := htag
    obtain ⟨c, cs, hcs⟩ : ∃ c cs, t.toList = c :: cs :=
      List.exists_cons_of_ne_nil (by simpa using hne)
    have hc : c ≠ '$' := by
      rintro rfl
      exact absurd (hall '$' (by simp [hcs])) (by decide +kernel)
    have hpart : ∀ x, (Text.isLetter x || Text.isNumeral x || x == '_' || (false && x == '$')) =
        isTagPart x := by
      simp [isTagPart]
    have htake : (t.toList ++ '$' :: rest).takeWhile isTagPart = t.toList :=
      takeWhile_append_of_stop hall (by simp; decide +kernel)
    have hdrop : (t.toList ++ '$' :: rest).drop t.toList.length = '$' :: rest := by
      simp
    have hplaceholder : scanDollar d (t.toList ++ '$' :: rest) =
        scanDollar.placeholder false (t.toList ++ '$' :: rest) := by
      rw [hcs]
      simp [scanDollar, hplain, hc]
    rw [Option.getD_some, hplaceholder, scanDollar.placeholder]
    simp only [hpart, htake, hdrop, Bool.false_eq_true, if_false]
    have htag : Enclosed.dollarTag (some t) = '$' :: t.toList ++ ['$'] := rfl
    rw [htag]
    cases splitAtText ('$' :: t.toList ++ ['$']) rest with
    | none => rfl
    | some a =>
      have hnonempty : t.toList ≠ [] := by simp [hcs]
      simp [Scanned.ofSplit, Scanned.token, Except.map, hnonempty]

theorem scan_dollar_iff {tag : Option String} (h : (Enclosed.dollar tag s).isOf d = true) :
    Lexeme.scan d (Enclosed.dollar tag s).text = .ok [⟨.dollar tag s, false⟩] ↔
      (Enclosed.dollar tag s).readsBack d = true := by
  simp only [Enclosed.isOf, Bool.and_eq_true, Bool.not_eq_true'] at h
  obtain ⟨⟨hplain, hstart⟩, htag⟩ := h
  refine scan_split_iff '$' ((tag.getD "").toList ++ ['$']) (Enclosed.dollarTag tag)
    (by simp [Enclosed.dollarTag]) (Token.dollar_injective tag) ?_ ?_
  · simp [Enclosed.text, Enclosed.dollarTag]
  · rw [scanToken_dollar hstart, ← scanDollar_of_tag hplain htag]
    simp

end Scanning

/-- **What is printed for a quoted name or a constant is read back as itself if and only if its
content survives its quotes.** -/
theorem Enclosed.scan_text_iff (d : Dialect) {t : Enclosed} (h : t.isOf d = true) :
    Lexeme.scan d t.text = .ok [⟨t.token, false⟩] ↔ t.readsBack d = true := by
  cases t with
  | name q v => exact scan_name_iff h v
  | string kind s => exact scan_string_iff kind h s
  | dollar tag s => exact scan_dollar_iff h

/-- A quote at the end of a name is doubled, and a name that ends in two is read as another. -/
example : Lexeme.scan .postgresql "\"12\"\"\"" = .ok [⟨.quotedWord '"' "12\"", false⟩] ∧
    Lexeme.scan .postgresql "\"12\"\"\"" ≠ .ok [⟨.quotedWord '"' "12\"\"", false⟩] :=
  ⟨(Enclosed.scan_text_iff .postgresql (t := .name '"' "12\"") (by decide)).mpr (by decide),
    fun h => absurd ((Enclosed.scan_text_iff .postgresql (t := .name '"' "12\"\"")
      (by decide)).mp h) (by decide)⟩

end RowPolicy.Sql
