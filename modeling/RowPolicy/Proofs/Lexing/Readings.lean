import RowPolicy.Proofs.Lexing.Progress
import RowPolicy.Proofs.Lexing.TextConstants

/-!
# Texts that are read alike everywhere

`Dialect.Spells` says that a text is read as some tokens whatever stands before it and in front of
all that ends a number, and so that what is around it reads on by itself (`Dialect.Spells.spaced`,
`Dialect.Spells.nested`). Words, numbers and the constants that are read back are such texts.
Printed conditions stand between blanks and parentheses only. `Dialect.Reads` says so much of a
text, and holds of the predicate that a column has a value (`reads_hasValue`).
-/

namespace RowPolicy.Sql

variable {d : Dialect} {last : Option Token} {c : Char} {rest : List Char}

/-! ## One token -/

/-- Whether a word, a number or an operator in front of some characters ends there. -/
def EndsToken (rest : List Char) : Prop :=
  ∀ c ∈ rest.head?, c = ' ' ∨ c = ')'

/-- Whether a word or a number in front of some characters ends there: a comma or a semicolon may
follow it too. -/
def EndsNumber (rest : List Char) : Prop :=
  ∀ c ∈ rest.head?, c = ' ' ∨ c = ')' ∨ c = ',' ∨ c = ';'

/-- Whether a word in front of some characters ends there: a period may follow it too. -/
def EndsWord (rest : List Char) : Prop :=
  ∀ c ∈ rest.head?, c = ' ' ∨ c = ')' ∨ c = ',' ∨ c = ';' ∨ c = '.'

theorem EndsToken.number (h : EndsToken rest) : EndsNumber rest :=
  fun c hc => (h c hc).imp id .inl

theorem EndsNumber.word (h : EndsNumber rest) : EndsWord rest :=
  fun c hc => (h c hc).imp id (.imp id (.imp id .inl))

theorem EndsToken.word (h : EndsToken rest) : EndsWord rest :=
  h.number.word

theorem endsWord_period (rest : List Char) : EndsWord ('.' :: rest) := by
  simp [EndsWord]

theorem endsToken_nil : EndsToken [] :=
  nofun

theorem endsToken_space (rest : List Char) : EndsToken (' ' :: rest) := by
  simp [EndsToken]

theorem endsToken_close (rest : List Char) : EndsToken (')' :: rest) := by
  simp [EndsToken]

theorem scanToken_space (d : Dialect) (last : Option Token) (rest : List Char) :
    scanToken d last ' ' rest = .ok (none, rest) :=
  rfl

theorem scanToken_open (d : Dialect) (last : Option Token) (rest : List Char) :
    scanToken d last '(' rest = .ok (some (.symbol "("), rest) := by
  have hnone : scanPrefixed d ('(' :: rest) = none := scanPrefixed_eq_none (.inl (by decide))
  cases d <;> simp only [scanToken, hnone] <;> rfl

theorem scanToken_close (d : Dialect) (last : Option Token) (rest : List Char) :
    scanToken d last ')' rest = .ok (some (.symbol ")"), rest) := by
  have hnone : scanPrefixed d (')' :: rest) = none := scanPrefixed_eq_none (.inl (by decide))
  cases d <;> simp only [scanToken, hnone] <;> rfl

theorem scanToken_comma (d : Dialect) (last : Option Token) (rest : List Char) :
    scanToken d last ',' rest = .ok (some (.symbol ","), rest) := by
  have hnone : scanPrefixed d (',' :: rest) = none := scanPrefixed_eq_none (.inl (by decide))
  cases d <;> simp only [scanToken, hnone] <;> rfl

theorem scanToken_semicolon (d : Dialect) (last : Option Token) (rest : List Char) :
    scanToken d last ';' rest = .ok (some (.symbol ";"), rest) := by
  have hnone : scanPrefixed d (';' :: rest) = none := scanPrefixed_eq_none (.inl (by decide))
  cases d <;> simp only [scanToken, hnone] <;> rfl

theorem matchOpen?_eq_none (h : c ∉ symbolHeads) : matchOpen? d (c :: rest) = none := by
  rw [matchOpen?, Option.map_eq_none_iff, List.find?_eq_none]
  intro s hs hbegins
  obtain ⟨c', cs, hwritten, hc'⟩ := hasSymbolHead_iff.mp (hasSymbolHead_of_mem_openSymbols hs)
  rw [hwritten, List.isPrefixOf, Bool.and_eq_true, beq_iff_eq] at hbegins
  exact h (hbegins.1 ▸ hc')

theorem matchClosed?_eq_none (h : c ∉ symbolHeads) : matchClosed? d (c :: rest) = none := by
  rw [matchClosed?, Option.map_eq_none_iff, List.find?_eq_none]
  intro s hs hbegins
  obtain ⟨c', cs, hsymbol, hc'⟩ := hasSymbolHead_iff.mp (hasSymbolHead_of_mem_closedSymbols hs)
  rw [hsymbol, List.isPrefixOf, Bool.and_eq_true, beq_iff_eq] at hbegins
  exact h (hbegins.1 ▸ hc')

/-- The characters of a stretch in front of one that ends it. -/
theorem takeWhile_append_of_stop {p : Char → Bool} {front rest : List Char}
    (hfront : ∀ c ∈ front, p c = true) (hrest : ∀ c ∈ rest.head?, p c = false) :
    (front ++ rest).takeWhile p = front := by
  rw [List.takeWhile_append_of_pos hfront]
  cases rest with
  | nil => simp
  | cons c rest => simp [hrest c rfl]

/-! ### Words -/

theorem not_isNamePart_of_endsWord (d : Dialect) (h : EndsWord rest) :
    ∀ c ∈ rest.head?, d.isNamePart c = false := by
  intro c hc
  obtain rfl | rfl | rfl | rfl | rfl := h c hc <;> cases d <;> decide +kernel

/-- The characters of a plain word behind its first. -/
def isWordPart (c : Char) : Bool :=
  c.isAlphanum || c == '_'

theorem isNamePart_of_isWordPart (d : Dialect) (h : isWordPart c = true) :
    d.isNamePart c = true := by
  simp only [isWordPart, Char.isAlphanum, Bool.or_eq_true, beq_iff_eq] at h
  obtain (h | h) | rfl := h
  · cases d <;> simp [Dialect.isNamePart, Dialect.isNameStart, h, Text.isLetter_of_isAlpha]
  · cases d <;> simp [Dialect.isNamePart, h]
  · cases d <;> rfl

theorem isNameStart_of_isAlpha (d : Dialect) (h : c.isAlpha = true) :
    d.isNameStart c = true := by
  cases d <;> simp [Dialect.isNameStart, h, Text.isLetter_of_isAlpha]

/-- A character of a kind is none of another kind. -/
theorem beq_eq_false_of_kind {p : Char → Bool} (hc : p c = true) (x : Char) (hx : p x = false) :
    (c == x) = false := by
  rw [beq_eq_false_iff_ne]
  rintro rfl
  rw [hc] at hx
  cases hx

/-- A character of a kind is not among some of other kinds. -/
theorem notMem_of_kind {p : Char → Bool} (hc : p c = true) {cs : List Char}
    (hcs : cs.all (fun x => !p x) = true) : c ∉ cs := by
  intro hmem
  have h := List.all_eq_true.mp hcs c hmem
  rw [hc] at h
  cases h

theorem isDigit_of_isAlpha (hc : c.isAlpha = true) : c.isDigit = false := by
  rw [Bool.eq_false_iff]
  intro hdigit
  have hnine : c.val ≤ '9'.val := of_decide_eq_true ((Bool.and_eq_true _ _).mp hdigit).2
  rcases (Bool.or_eq_true _ _).mp hc with hupper | hlower
  · have hle : 'A'.val ≤ c.val := (of_decide_eq_true hupper).1
    exact absurd (UInt32.le_trans hle hnine) (by decide)
  · have hle : 'a'.val ≤ c.val := of_decide_eq_true ((Bool.and_eq_true _ _).mp hlower).1
    exact absurd (UInt32.le_trans hle hnine) (by decide)

/-- A letter begins a word, which goes on to the blank, parenthesis or period behind it. -/
theorem scanWord_of_endsWord (d : Dialect) {tail : List Char} (hc : c.isAlpha = true)
    (htail : ∀ x ∈ tail, isWordPart x = true) (hrest : EndsWord rest) :
    scanWord d [c] (tail ++ rest) = (.plainWord (String.ofList (c :: tail)), rest) := by
  have hword : (tail ++ rest).takeWhile d.isNamePart = tail :=
    takeWhile_append_of_stop (fun x hx => isNamePart_of_isWordPart d (htail x hx))
      (not_isNamePart_of_endsWord d hrest)
  rw [scanWord, hword]
  have hletter : (c.isDigit || c == '.') = false := by
    rw [isDigit_of_isAlpha hc, beq_eq_false_of_kind hc '.' rfl]
    rfl
  simp [hletter]

/-- No constant of another kind begins a word or a number. -/
theorem scanPrefixed_of_endsWord (d : Dialect) (c : Char) {tail : List Char}
    (htail : ∀ x ∈ tail, isWordPart x = true) (hrest : EndsWord rest) :
    scanPrefixed d (c :: (tail ++ rest)) = none := by
  refine scanPrefixed_eq_none (.inr fun n hn => ?_)
  cases tail with
  | nil => obtain rfl | rfl | rfl | rfl | rfl := hrest n hn <;> decide
  | cons n' tail =>
    obtain rfl : n' = n := by simpa using hn
    exact notMem_of_kind (htail n' (by simp)) (by decide)

theorem scanToken_word (d : Dialect) (last : Option Token) {tail : List Char}
    (hc : c.isAlpha = true) (htail : ∀ x ∈ tail, isWordPart x = true) (hrest : EndsWord rest) :
    scanToken d last c (tail ++ rest) =
      .ok (some (.plainWord (String.ofList (c :: tail))), rest) := by
  have hheads : c ∉ symbolHeads := notMem_of_kind hc (by decide)
  have hne := fun x (hx : x.isAlpha = false) => beq_eq_false_of_kind hc x hx
  have hquote : d.isQuote c = false := by
    cases d <;> simp [Dialect.isQuote, hne]
  have hword := scanWord_of_endsWord d hc htail hrest
  unfold scanToken
  extract_lets f cs one all
  -- A letter gets past all that symbols and digits begin; a prefix with nothing quoted behind it is
  -- read as a word at once.
  rw [if_neg (by simp [hne]), if_neg (by simp [hne]), if_neg (by simp [hne]),
    if_neg (by simp [hne]), scanPrefixed_of_endsWord d c htail hrest]
  by_cases hletter : "bBrRnNeEuUxX".toList.contains c = true
  · rw [if_pos hletter, hword]
  · rw [if_neg hletter, if_neg (by simp [hne]), if_neg (by simp [hne]), if_neg (by simp [hquote]),
      if_neg (by simp [hne, isDigit_of_isAlpha hc]), matchOpen?_eq_none hheads,
      matchClosed?_eq_none hheads]
    dsimp only
    rw [if_neg (by simp [hne]), if_neg (by simp [hne]), if_neg (by simp [hne]),
      if_pos (isNameStart_of_isAlpha d hc), hword]

/-! ### Numbers -/

theorem scanDigits_of_endsNumber (separators : Bool) (hrest : EndsNumber rest) :
    scanDigits separators rest = ([], rest) := by
  cases rest with
  | nil => rfl
  | cons c rest => obtain rfl | rfl | rfl | rfl := hrest c rfl <;> simp [scanDigits, scanDigitsOf]

theorem scanDigits_append (separators : Bool) {ds : List Char} (hds : ∀ x ∈ ds, x.isDigit = true)
    (hrest : EndsNumber rest) : scanDigits separators (ds ++ rest) = (ds, rest) := by
  induction ds with
  | nil => exact scanDigits_of_endsNumber separators hrest
  | cons x ds ih =>
    rw [scanDigits] at ih ⊢
    rw [List.cons_append, scanDigitsOf]
    simp [hds x (by simp), ih fun y hy => hds y (by simp [hy])]

/-- Digits are a number, which goes on to what ends it. -/
theorem scanNumber_of_endsNumber (d : Dialect) (last : Option Token) {ds : List Char}
    (hc : c.isDigit = true) (hds : ∀ x ∈ ds, x.isDigit = true) (hrest : EndsNumber rest) :
    scanNumber d last (c :: (ds ++ rest)) =
      .ok (.number (String.ofList (c :: ds)) false, rest) := by
  have hall : ∀ x ∈ c :: ds, x.isDigit = true := by
    simpa [hc] using hds
  have hdigits : ∀ separators, scanDigits separators (c :: (ds ++ rest)) = (c :: ds, rest) :=
    fun separators => scanDigits_append separators hall hrest
  have hnone := fun separators => scanDigits_of_endsNumber separators hrest
  have hname : ([] ++ rest).takeWhile d.isNamePart = [] :=
    takeWhile_append_of_stop (by simp) (not_isNamePart_of_endsWord d hrest.word)
  rw [List.nil_append] at hname
  have hdot : c ≠ '.' := by
    simpa using beq_eq_false_of_kind hc '.' rfl
  simp only [scanNumber, List.head?_cons, hdigits]
  cases rest with
  | nil => simp [hnone, hname, hdot, scanExponent]
  | cons x rest =>
    obtain rfl | rfl | rfl | rfl := hrest x rfl <;> simp [hnone, hname, hdot, scanExponent]

/-- Whether a character begins a number. -/
def isNumberHead (c : Char) : Bool :=
  c.isDigit || c == '.'

theorem scanToken_of_isNumberHead (d : Dialect) (last : Option Token)
    (hc : isNumberHead c = true) (hnone : scanPrefixed d (c :: rest) = none) :
    scanToken d last c rest =
      (scanNumber d last (c :: rest)).map fun (t, r) => (some t, r) := by
  have hne := fun x (hx : isNumberHead x = false) => beq_eq_false_of_kind hc x hx
  have hquote : d.isQuote c = false := by
    cases d <;> simp [Dialect.isQuote, isNumberHead, hne]
  have hletter : "bBrRnNeEuUxX".toList.contains c = false := by
    rw [List.contains_eq_mem, decide_eq_false_iff_not]
    exact notMem_of_kind hc (by decide)
  unfold scanToken
  extract_lets f cs one all
  rw [if_neg (by simp [isNumberHead, hne]), if_neg (by simp [isNumberHead, hne]),
    if_neg (by simp [isNumberHead, hne]), if_neg (by simp [isNumberHead, hne]), hnone]
  dsimp only
  rw [if_neg (by rw [hletter]; exact Bool.false_ne_true), if_neg (by simp [isNumberHead, hne]),
    if_neg (by simp [isNumberHead, hne]), if_neg (by simp [hquote]),
    if_pos (show (c.isDigit || c == '.') = true from hc)]

theorem scanToken_number (d : Dialect) (last : Option Token) {ds : List Char}
    (hc : c.isDigit = true) (hds : ∀ x ∈ ds, x.isDigit = true) (hrest : EndsNumber rest) :
    scanToken d last c (ds ++ rest) =
      .ok (some (.number (String.ofList (c :: ds)) false), rest) := by
  have hparts : ∀ x ∈ ds, isWordPart x = true := fun x hx => by
    simp [isWordPart, Char.isAlphanum, hds x hx]
  rw [scanToken_of_isNumberHead d last (by simp [isNumberHead, hc])
    (scanPrefixed_of_endsWord d c hparts hrest.word), scanNumber_of_endsNumber d last hc hds hrest]
  rfl

/-! ### Signs and periods -/

theorem scanToken_minus (d : Dialect) (last : Option Token) (hc : c.isDigit = true) :
    scanToken d last '-' (c :: rest) = .ok (some (.symbol "-"), c :: rest) := by
  have hnone : scanPrefixed d ('-' :: c :: rest) = none := scanPrefixed_eq_none (.inl (by decide))
  have hne : ∀ x : Char, x.isDigit = false → c ≠ x := fun x hx =>
    beq_eq_false_iff_ne.mp (beq_eq_false_of_kind hc x hx)
  have hoperator : d.isOperatorPart c = false := by
    cases d <;> simp [Dialect.isOperatorPart, hne]
  have hfind : (openSymbols d.features).find? (fun s => s.written.toList.isPrefixOf
      ('-' :: c :: rest)) = some (whole "-") := by
    have hgt : ('>' == c) = false := beq_eq_false_iff_ne.mpr (hne '>' rfl).symm
    cases d <;>
      simp [openSymbols, Dialect.features, whole, begun, List.find?, hgt, List.isPrefixOf]
  have hopen : matchOpen? d ('-' :: c :: rest) = some (.ok (.symbol "-", c :: rest)) := by
    rw [matchOpen?, hfind]
    change some (scanOperator d (whole "-") (c :: rest)) = _
    simp [scanOperator, whole, hoperator]
  have hquote : d.isQuote '-' = false := by
    cases d <;> rfl
  unfold scanToken
  extract_lets f cs one all
  rw [if_neg (by decide), if_neg (by simp [hne]), if_neg (by simp), if_neg (by simp), hnone]
  dsimp only
  rw [if_neg (by decide), if_neg (by decide), if_neg (by simp), if_neg (by simp [hquote]),
    if_neg (by decide), hopen]
  rfl

/-- A period behind a word, before a letter or a quote. -/
theorem scanToken_period (d : Dialect) (t : Token) (hdigit : c.isDigit = false)
    (hunderscore : c ≠ '_') :
    scanToken d (some t) '.' (c :: rest) = .ok (some (.symbol "."), c :: rest) := by
  have hnone : scanPrefixed d ('.' :: c :: rest) = none := scanPrefixed_eq_none (.inl (by decide))
  have hdigits : ∀ separators, scanDigits separators (c :: rest) = ([], c :: rest) := by
    intro separators
    simp [scanDigits, scanDigitsOf.eq_def, hdigit, hunderscore]
  have hwhole : ∀ separators,
      scanDigits separators ('.' :: c :: rest) = ([], '.' :: c :: rest) := by
    intro separators
    simp [scanDigits, scanDigitsOf.eq_def]
  have hscan : scanNumber d (some t) ('.' :: c :: rest) = .ok (.symbol ".", c :: rest) := by
    simp [scanNumber, hwhole, hdigits, hunderscore]
  rw [scanToken_of_isNumberHead d _ (by decide) hnone, hscan]
  rfl

theorem scanToken_equals (d : Dialect) (last : Option Token) (hrest : EndsToken rest) :
    scanToken d last '=' rest = .ok (some (.symbol "="), rest) := by
  have hnone : scanPrefixed d ('=' :: rest) = none := scanPrefixed_eq_none (.inl (by decide))
  cases rest with
  | nil => cases d <;> simp only [scanToken, hnone] <;> rfl
  | cons x rest =>
    obtain rfl | rfl := hrest x rfl <;> cases d <;> simp only [scanToken, hnone] <;> rfl

/-! ## Texts -/

/-- Blanks and the marks that end a number are read alike behind all tokens. -/
theorem tokensFrom_of_endsNumber (h : EndsNumber rest) :
    tokensFrom d last rest = tokensFrom d none rest := by
  cases rest with
  | nil => rfl
  | cons c rest =>
    obtain rfl | rfl | rfl | rfl := h c rfl
    · rw [tokensFrom_blank (scanToken_space d last rest),
        tokensFrom_blank (scanToken_space d none rest)]
    · rw [tokensFrom_token (scanToken_close d last rest),
        tokensFrom_token (scanToken_close d none rest)]
    · rw [tokensFrom_token (scanToken_comma d last rest),
        tokensFrom_token (scanToken_comma d none rest)]
    · rw [tokensFrom_token (scanToken_semicolon d last rest),
        tokensFrom_token (scanToken_semicolon d none rest)]

theorem map_append_append {ε : Type} (t : Except ε (List Token)) (ts us : List Token) :
    (t.map (us ++ ·)).map (ts ++ ·) = t.map (ts ++ us ++ ·) := by
  cases t <;> simp [Except.map]

/-- Whether a text is read as some tokens behind all others, and in front of whatever ends a
number. -/
def Dialect.Spells (d : Dialect) (text : String) (ts : List Token) : Prop :=
  ∀ last rest, EndsNumber rest →
    tokensFrom d last (text.toList ++ rest) = (tokensFrom d none rest).map (ts ++ ·)

namespace Dialect.Spells

variable {s s' : String} {ts ts' : List Token}

/-- A text that is one token. -/
theorem of_scanToken {t : Token} {front : List Char} (hs : s.toList = c :: front)
    (h : ∀ last rest, EndsNumber rest →
      scanToken d last c (front ++ rest) = .ok (some t, rest)) : d.Spells s [t] := by
  intro last rest hrest
  rw [hs, List.cons_append, tokensFrom_token (h last rest hrest), tokensFrom_of_endsNumber hrest]
  rfl

/-- A blank between two texts. -/
theorem spaced (h : d.Spells s ts) (h' : d.Spells s' ts') :
    d.Spells (s ++ " " ++ s') (ts ++ ts') := by
  intro last rest hrest
  have hassoc : (s ++ " " ++ s').toList ++ rest = s.toList ++ ' ' :: (s'.toList ++ rest) := by
    simp
  have hspace : EndsNumber (' ' :: (s'.toList ++ rest)) := by simp [EndsNumber]
  rw [hassoc, h last _ hspace, tokensFrom_blank (scanToken_space d none _), h' none rest hrest,
    map_append_append]

/-- A comma and a blank between two texts. -/
theorem listed (h : d.Spells s ts) (h' : d.Spells s' ts') :
    d.Spells (s ++ ", " ++ s') (ts ++ .symbol "," :: ts') := by
  intro last rest hrest
  have hassoc : (s ++ ", " ++ s').toList ++ rest =
      s.toList ++ ',' :: ' ' :: (s'.toList ++ rest) := by
    simp
  have hcomma : EndsNumber (',' :: ' ' :: (s'.toList ++ rest)) := by simp [EndsNumber]
  rw [hassoc, h last _ hcomma, tokensFrom_token (scanToken_comma d none _),
    tokensFrom_blank (scanToken_space d _ _), h' none rest hrest]
  cases tokensFrom d none rest <;> simp [Except.map]

/-- A semicolon between two texts. -/
theorem followed (h : d.Spells s ts) (h' : d.Spells s' ts') :
    d.Spells (s ++ ";" ++ s') (ts ++ .symbol ";" :: ts') := by
  intro last rest hrest
  have hassoc : (s ++ ";" ++ s').toList ++ rest = s.toList ++ ';' :: (s'.toList ++ rest) := by
    simp
  have hsemicolon : EndsNumber (';' :: (s'.toList ++ rest)) := by simp [EndsNumber]
  rw [hassoc, h last _ hsemicolon, tokensFrom_token (scanToken_semicolon d none _),
    h' _ rest hrest]
  cases tokensFrom d none rest <;> simp [Except.map]

/-- A text between parentheses. -/
theorem nested (h : d.Spells s ts) :
    d.Spells ("(" ++ s ++ ")") (.symbol "(" :: ts ++ [.symbol ")"]) := by
  intro last rest hrest
  have hassoc : ("(" ++ s ++ ")").toList ++ rest = '(' :: (s.toList ++ ')' :: rest) := by
    simp
  have hclose : EndsNumber (')' :: rest) := by simp [EndsNumber]
  rw [hassoc, tokensFrom_token (scanToken_open d last _), h _ _ hclose,
    tokensFrom_token (scanToken_close d none _), tokensFrom_of_endsNumber hrest]
  cases tokensFrom d none rest <;> simp [Except.map]

/-- What a text is read as by itself. -/
theorem scan (h : d.Spells s ts) : (Lexeme.scan d s).map (List.map Lexeme.token) = .ok ts := by
  have hself := h none [] endsToken_nil.number
  rw [List.append_nil, tokensFrom_toList, tokensFrom_nil] at hself
  simpa [Except.map] using hself

end Dialect.Spells

/-- Whether a text is read as some tokens wherever it stands in a condition: at the beginning or
behind a blank or an opening parenthesis, and at the end or before a blank or a closing one. -/
def Dialect.Reads (d : Dialect) (text : String) (ts : List Token) : Prop :=
  ∀ last, (last = none ∨ last = some (.symbol "(")) → ∀ rest, EndsToken rest →
    tokensFrom d last (text.toList ++ rest) = (tokensFrom d none rest).map (ts ++ ·)

/-- A blank or a parenthesis is read alike behind all tokens. -/
theorem tokensFrom_of_endsToken (h : EndsToken rest) :
    tokensFrom d last rest = tokensFrom d none rest :=
  tokensFrom_of_endsNumber h.number

theorem Dialect.Spells.reads {s : String} {ts : List Token} (h : d.Spells s ts) : d.Reads s ts :=
  fun last _ rest hrest => h last rest hrest.number

namespace Dialect.Reads

variable {s s' : String} {ts ts' : List Token}

/-- A text that is one token. -/
theorem of_scanToken {t : Token} {front : List Char} (hs : s.toList = c :: front)
    (h : ∀ last rest, EndsToken rest →
      scanToken d last c (front ++ rest) = .ok (some t, rest)) : d.Reads s [t] := by
  intro last _ rest hrest
  rw [hs, List.cons_append, tokensFrom_token (h last rest hrest), tokensFrom_of_endsToken hrest]
  rfl

theorem spaced (h : d.Reads s ts) (h' : d.Reads s' ts') :
    d.Reads (s ++ " " ++ s') (ts ++ ts') := by
  intro last hlast rest hrest
  have hassoc : (s ++ " " ++ s').toList ++ rest = s.toList ++ ' ' :: (s'.toList ++ rest) := by
    simp
  rw [hassoc, h last hlast _ (endsToken_space _), tokensFrom_blank (scanToken_space d none _),
    h' none (.inl rfl) rest hrest, map_append_append]

theorem nested (h : d.Reads s ts) :
    d.Reads ("(" ++ s ++ ")") (.symbol "(" :: ts ++ [.symbol ")"]) := by
  intro last _ rest hrest
  have hassoc : ("(" ++ s ++ ")").toList ++ rest = '(' :: (s.toList ++ ')' :: rest) := by
    simp
  rw [hassoc, tokensFrom_token (scanToken_open d last _), h _ (.inr rfl) _ (endsToken_close _),
    tokensFrom_token (scanToken_close d none _), tokensFrom_of_endsToken hrest]
  cases tokensFrom d none rest <;> simp [Except.map]

/-- What a text is read as by itself. -/
theorem scan (h : d.Reads s ts) : (Lexeme.scan d s).map (List.map Lexeme.token) = .ok ts := by
  have hself := h none (.inl rfl) [] endsToken_nil
  rw [List.append_nil, tokensFrom_toList, tokensFrom_nil] at hself
  simpa [Except.map] using hself

end Dialect.Reads

/-! ## Columns and values -/

/-- A word that is read as itself: a letter, then letters, digits and underscores. -/
def isPlainWord (s : String) : Bool :=
  match s.toList with
  | [] => false
  | c :: tail => c.isAlpha && tail.all isWordPart

theorem isPlainWord_iff {s : String} : isPlainWord s = true ↔
    ∃ c tail, s.toList = c :: tail ∧ c.isAlpha = true ∧ ∀ x ∈ tail, isWordPart x = true := by
  rw [isPlainWord]
  cases s.toList <;> simp [and_assoc]

theorem spells_word {w : String} (h : isPlainWord w = true) : d.Spells w [.plainWord w] := by
  obtain ⟨c, tail, hw, hc, htail⟩ := isPlainWord_iff.mp h
  refine .of_scanToken hw fun last rest hrest => ?_
  rw [scanToken_word d last hc htail hrest.word, ← hw, String.ofList_toList]

theorem reads_word {w : String} (h : isPlainWord w = true) : d.Reads w [.plainWord w] :=
  (spells_word h).reads

/-- A column behind its qualifier. -/
theorem reads_qualified {q w : String} (hq : isPlainWord q = true) (hw : isPlainWord w = true) :
    d.Reads (q ++ "." ++ w) [.plainWord q, .symbol ".", .plainWord w] := by
  obtain ⟨c, tail, hq, hc, htail⟩ := isPlainWord_iff.mp hq
  obtain ⟨c', tail', hw, hc', htail'⟩ := isPlainWord_iff.mp hw
  intro last _ rest hrest
  have hassoc : (q ++ "." ++ w).toList ++ rest =
      c :: (tail ++ '.' :: c' :: (tail' ++ rest)) := by
    simp [hq, hw]
  rw [hassoc, tokensFrom_token (scanToken_word d last hc htail (endsWord_period _)),
    tokensFrom_token (scanToken_period d _ (isDigit_of_isAlpha hc')
      (by simpa using beq_eq_false_of_kind hc' '_' rfl)),
    tokensFrom_token (scanToken_word d _ hc' htail' hrest.word), tokensFrom_of_endsToken hrest,
    ← hq, ← hw, String.ofList_toList, String.ofList_toList]
  cases tokensFrom d none rest <;> rfl

theorem spells_number {ds : List Char} (hne : ds ≠ []) (hds : ∀ x ∈ ds, x.isDigit = true) :
    d.Spells (String.ofList ds) [.number (String.ofList ds) false] := by
  cases ds with
  | nil => exact absurd rfl hne
  | cons c ds =>
    exact .of_scanToken String.toList_ofList fun last rest hrest =>
      scanToken_number d last (hds c (by simp)) (fun x hx => hds x (by simp [hx])) hrest

theorem reads_number {ds : List Char} (hne : ds ≠ []) (hds : ∀ x ∈ ds, x.isDigit = true) :
    d.Reads (String.ofList ds) [.number (String.ofList ds) false] :=
  (spells_number hne hds).reads

theorem reads_negative {ds : List Char} (hne : ds ≠ []) (hds : ∀ x ∈ ds, x.isDigit = true) :
    d.Reads ("-" ++ String.ofList ds) [.symbol "-", .number (String.ofList ds) false] := by
  cases ds with
  | nil => exact absurd rfl hne
  | cons c ds =>
    simp only [List.forall_mem_cons] at hds
    intro last _ rest hrest
    have hassoc : ("-" ++ String.ofList (c :: ds)).toList ++ rest = '-' :: c :: (ds ++ rest) := by
      simp
    rw [hassoc, tokensFrom_token (scanToken_minus d last hds.1),
      tokensFrom_token (scanToken_number d _ hds.1 hds.2 hrest.number),
      tokensFrom_of_endsToken hrest]
    cases tokensFrom d none rest <;> rfl

theorem reads_equals : d.Reads "=" [.symbol "="] :=
  .of_scanToken rfl fun last _ hrest => scanToken_equals d last hrest

/-- A text that is read back is read back everywhere. -/
theorem spells_text {s : String} (h : d.readsBack s.toList = true) :
    d.Spells (quoted '\'' s) [.string .plain s] := by
  refine .of_scanToken (by rw [quoted, String.toList_ofList, List.cons_append])
    fun last rest hrest => ?_
  have hquote : rest.head? ≠ some '\'' := by
    intro hhead
    obtain heq | heq | heq | heq := hrest _ hhead <;> cases heq
  rw [scanToken_quote, scanString, List.append_assoc, List.singleton_append,
    scanQuoted_quoteContent h hquote false (by simp)]
  simp [Scanned.token, Except.map]

theorem reads_text {s : String} (h : d.readsBack s.toList = true) :
    d.Reads (quoted '\'' s) [.string .plain s] :=
  (spells_text h).reads

end RowPolicy.Sql
