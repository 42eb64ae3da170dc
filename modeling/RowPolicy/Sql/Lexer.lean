import RowPolicy.Sql.Dialect
import RowPolicy.Sql.Token

/-!
# From characters to tokens

`Lexeme.scan` cuts a text into lexemes. One step, `scanToken`, reads one token or one stretch of
blanks or comment from the front of the characters; `scanAll` repeats it with the number of
characters as its bound, since every step takes at least one.
-/

namespace RowPolicy.Sql

/-- What is read from the front of some characters, and the characters after it. -/
abbrev Scanned (α : Type) := Except Fault (α × List Char)

/-- The reading with `front` before its characters. -/
def Scanned.after (front : List Char) (t : Scanned (List Char)) : Scanned (List Char) :=
  t.map fun (s, r) => (front ++ s, r)

/-- The reading as a token. -/
def Scanned.token (make : String → Token) (t : Scanned (List Char)) : Scanned Token :=
  t.map fun (s, r) => (make (String.ofList s), r)

/-! ## Strings -/

/-- The character that a backslash before `n` stands for. -/
def escapedChar (n : Char) : Char :=
  match n with
  | '0' => '\x00'
  | 'a' => '\x07'
  | 'b' => '\x08'
  | 'f' => '\x0c'
  | 'n' => '\n'
  | 'r' => '\r'
  | 't' => '\t'
  | 'Z' => '\x1a'
  | c => c

/-- The content of a string up to its closing quote `q`. A doubled quote stands for one. With
`escapes` a backslash stands for the character its successor names, unless that is a pattern's
wildcard and `wildcards` asks to keep both. -/
def scanQuoted (q : Char) (escapes wildcards : Bool) : List Char → Scanned (List Char)
  | [] => .error (.unterminated "string")
  | c :: rest =>
    if c == q then
      match rest with
      | c' :: rest' =>
        if c' == q then (scanQuoted q escapes wildcards rest').after [q] else .ok ([], rest)
      | [] => .ok ([], [])
    else if c == '\\' && escapes then
      match rest with
      | [] => .error (.unterminated "string")
      | n :: rest' =>
        (scanQuoted q escapes wildcards rest').after
          (if wildcards && (n == '%' || n == '_') then [c, n] else [escapedChar n])
    else (scanQuoted q escapes wildcards rest).after [c]

/-- The content of a string up to three quotes `q` in a row. The `run` quotes just before are kept
back until it shows that they do not close the string. -/
def scanTriple (q : Char) : (run : Nat) → List Char → Scanned (List Char)
  | _, [] => .error (.unterminated "string")
  | run, c :: rest =>
    if c != q then (scanTriple q 0 rest).after (List.replicate run q ++ [c])
    else if run == 2 then .ok ([], rest)
    else scanTriple q (run + 1) rest

/-- The value of a digit in base 16. -/
def hexDigit? (c : Char) : Option Nat :=
  if c.isDigit then some (c.toNat - '0'.toNat)
  else if 'a' ≤ c && c ≤ 'f' then some (c.toNat - 'a'.toNat + 10)
  else if 'A' ≤ c && c ≤ 'F' then some (c.toNat - 'A'.toNat + 10)
  else none

/-- The number that digits in a base below 17 denote. -/
def digitsValue? (base : Nat) (ds : List Char) : Option Nat :=
  ds.foldlM (fun n c => (hexDigit? c).map fun d => n * base + d) 0

/-- The character of a code point, if it is one. -/
def charOf? (n : Nat) : Option Char :=
  if h : n.isValidChar then some ⟨n.toUInt32, by
    have hn : n < UInt32.size := by
      rcases h with h | h
      · exact Nat.lt_trans h (by decide)
      · exact Nat.lt_trans h.2 (by decide)
    have hv : n.toUInt32.toNat = n := UInt32.toNat_ofNat_of_lt' hn
    simpa [UInt32.isValidChar, hv] using h⟩ else none

/-- A code point written with `k` digits in base 16, and what follows it. -/
def scanCodePoint (k : Nat) (rest : List Char) : Option (Char × List Char) :=
  if rest.length < k then none
  else ((digitsValue? 16 (rest.take k)).bind charOf?).map fun c => (c, rest.drop k)

/-- A code point written in `k` characters, which are digits in base 16 after an optional `+`. -/
def scanSignedCodePoint (k : Nat) (rest : List Char) : Option (Char × List Char) :=
  let ds := rest.take k
  let ds' := if ds.head? == some '+' then ds.tail else ds
  if rest.length < k || ds'.isEmpty then none
  else ((digitsValue? 16 ds').bind charOf?).map fun c => (c, rest.drop k)

/-- The character of one escape of an `E'..'` string, and what follows the escape; `n` is the
character after the backslash. -/
def scanEscape (n : Char) (rest : List Char) : Option (Char × List Char) :=
  match n with
  | 'b' => some ('\x08', rest)
  | 'f' => some ('\x0c', rest)
  | 'n' => some ('\n', rest)
  | 'r' => some ('\r', rest)
  | 't' => some ('\t', rest)
  | 'u' => scanSignedCodePoint 4 rest
  | 'U' => scanSignedCodePoint 8 rest
  | 'x' =>
    let ds := (rest.take 2).takeWhile fun c => (hexDigit? c).isSome
    if ds.isEmpty then some ('x', rest)
    else byte 16 ds (rest.drop ds.length)
  | c =>
    if '0' ≤ c && c ≤ '7' then
      let ds := (rest.take 2).takeWhile fun d => '0' ≤ d && d ≤ '7'
      byte 8 (c :: ds) (rest.drop ds.length)
    else some (c, rest)
where
  /-- A byte below 128. -/
  byte (base : Nat) (ds after : List Char) : Option (Char × List Char) := do
    let v ← digitsValue? base ds
    if v % 256 < 128 then return (Char.ofNat (v % 256), after) else none

/-- The content of an `E'..'` string after its opening quote. -/
def scanEscapeString : Nat → List Char → Scanned (List Char)
  | 0, _ => .error (.unterminated "string")
  | _ + 1, [] => .error (.unterminated "string")
  | fuel + 1, c :: rest =>
    if c == '\'' then
      match rest with
      | '\'' :: rest' => (scanEscapeString fuel rest').after ['\'']
      | _ => .ok ([], rest)
    else if c == '\\' then
      match rest with
      | [] => .error (.unterminated "string")
      | n :: rest' =>
        match scanEscape n rest' with
        | none => .error (.malformed "escape")
        | some (e, r) =>
          if e == '\x00' then .error (.malformed "escape") else (scanEscapeString fuel r).after [e]
    else (scanEscapeString fuel rest).after [c]

/-- The content of a `U&'..'` string after its opening quote. -/
def scanUnicodeString : Nat → List Char → Scanned (List Char)
  | 0, _ => .error (.unterminated "string")
  | _ + 1, [] => .error (.unterminated "string")
  | fuel + 1, c :: rest =>
    if c == '\'' then
      match rest with
      | '\'' :: rest' => (scanUnicodeString fuel rest').after ['\'']
      | _ => .ok ([], rest)
    else if c == '\\' then
      match rest with
      | '\\' :: rest' => (scanUnicodeString fuel rest').after ['\\']
      | _ =>
        let long := rest.head? == some '+'
        match if long then scanCodePoint 6 rest.tail else scanCodePoint 4 rest with
        | none => .error (.malformed "escape")
        | some (e, r) => (scanUnicodeString fuel r).after [e]
    else (scanUnicodeString fuel rest).after [c]

/-- The characters before the text `stop`, and those after it. -/
def splitAtText (stop : List Char) : List Char → Option (List Char × List Char)
  | [] => if stop.isEmpty then some ([], []) else none
  | c :: rest =>
    if stop.isPrefixOf (c :: rest) then some ([], (c :: rest).drop stop.length)
    else (splitAtText stop rest).map fun (s, r) => (c :: s, r)

/-- The content of a `$$..$$` string after its opening dollars. A lone dollar before another
character is kept. -/
def scanDollars : List Char → Scanned (List Char)
  | [] => .error (.unterminated "string")
  | c :: rest =>
    if c == '$' then
      match rest with
      | [] => .error (.unterminated "string")
      | c' :: rest' => if c' == '$' then .ok ([], rest') else (scanDollars rest').after [c, c']
    else (scanDollars rest).after [c]

/-! ## Comments -/

/-- The content of a comment after `/*`, and what follows it. `depth` counts the comments that are
open inside it. -/
def scanComment (nests : Bool) : Nat → List Char → Scanned (List Char)
  | _, [] => .error (.unterminated "comment")
  | depth, c :: rest =>
    match depth, nests && c == '/', c == '*', rest with
    | _, true, _, '*' :: rest' => (scanComment nests (depth + 1) rest').after [c, '*']
    | 0, _, true, '/' :: rest' => .ok ([], rest')
    | d + 1, _, true, '/' :: rest' => (scanComment nests d rest').after [c, '/']
    | _, _, _, rest => (scanComment nests depth rest).after [c]

/-- What follows a comment that ends with its line. -/
def skipLine (d : Dialect) (cs : List Char) : List Char :=
  (cs.dropWhile fun c => !(c == '\n' || (c == '\r' && d == .postgresql))).drop 1

/-! ## Numbers -/

/-- The digits of a kind at the front; a dialect may allow a single `_` before a further digit. -/
def scanDigitsOf (isDigit : Char → Bool) (separators : Bool) : List Char → List Char × List Char
  | [] => ([], [])
  | c :: rest =>
    if isDigit c || (separators && c == '_' && rest.head?.any fun n => (hexDigit? n).isSome) then
      let (s, r) := scanDigitsOf isDigit separators rest
      (c :: s, r)
    else ([], c :: rest)

/-- The decimal digits at the front. -/
def scanDigits (separators : Bool) (cs : List Char) : List Char × List Char :=
  scanDigitsOf Char.isDigit separators cs

/-- The exponent at the front, if a digit follows its mark and sign, whether its mark is there at
all, and what follows it. -/
def scanExponent (cs : List Char) : Bool × List Char × List Char :=
  match cs with
  | e :: rest =>
    if e == 'e' || e == 'E' then
      let (sign, rest') := match rest with
        | s :: r => if s == '+' || s == '-' then ([s], r) else ([], rest)
        | [] => ([], rest)
      let ds := rest'.takeWhile Char.isDigit
      (true, if ds.isEmpty then ([], cs) else (e :: sign ++ ds, rest'.drop ds.length))
    else (false, [], cs)
  | [] => (false, [], [])

/-- A number, or the word or period that begins like one. `last` is the token just before. Where a
name may begin with digits, name characters that follow the digits make them a name, unless an
exponent's mark follows first: then they are a name only after a period. -/
def scanNumber (d : Dialect) (last : Option Token) (cs : List Char) : Scanned Token :=
  let f := d.features
  let afterWord := last.any Token.isWord
  if cs.head? == some '.' && cs.tail.head? == some '_' then
    if afterWord then .ok (.symbol ".", cs.tail) else .error (.malformed "number")
  else
    let (whole, rest) := scanDigits f.digitSeparators cs
    match whole, rest with
    | ['0'], 'x' :: rest =>
      let (ds, rest) := scanDigitsOf (fun c => (hexDigit? c).isSome) f.digitSeparators rest
      .ok (.string .hex (String.ofList ds), rest)
    | _, _ =>
      let (point, rest) := match rest with
        | '.' :: r => (['.'], r)
        | r => ([], r)
      if whole.isEmpty && f.digitNames && afterWord then .ok (.symbol ".", rest)
      else
        let (fraction, rest) := scanDigits f.digitSeparators rest
        let mantissa := whole ++ point ++ fraction
        if mantissa == ['.'] then .ok (.symbol ".", rest)
        else
          let (marked, exponent, rest) := scanExponent rest
          let digits := mantissa ++ exponent
          let tail := rest.takeWhile d.isNamePart
          if f.digitNames && !marked && !tail.isEmpty then
            .ok (.plainWord (String.ofList (digits ++ tail)), rest.drop tail.length)
          else if f.digitNames && marked && last == some (.symbol ".") then
            .ok (.plainWord (String.ofList digits), rest)
          else
            match rest with
            | 'L' :: rest => .ok (.number (String.ofList digits) true, rest)
            | rest => .ok (.number (String.ofList digits) false, rest)

/-! ## Words, placeholders, operators -/

/-- The word that begins with the characters `front`. A word of digits and periods is a number. -/
def scanWord (d : Dialect) (front rest : List Char) : Token × List Char :=
  let tail := rest.takeWhile d.isNamePart
  let rest := rest.drop tail.length
  let w := front ++ tail
  if w.all fun c => c.isDigit || c == '.' then
    let more := rest.takeWhile fun c => c.isDigit || c == '.'
    (.number (String.ofList (w ++ more)) false, rest.drop more.length)
  else (.plainWord (String.ofList w), rest)

/-- A quoted name after its opening quote `q`. -/
def scanQuotedName (q : Char) (cs : List Char) : Scanned Token :=
  (scanQuoted (Token.closingQuote q) false false cs).token (.quotedWord q)

/-- What a dollar begins: a string between tags, or a placeholder. -/
def scanDollar (d : Dialect) (cs : List Char) : Scanned Token :=
  let plain := d.features.dollarPlaceholders
  match cs with
  | '$' :: rest =>
    if plain then placeholder plain cs
    else (scanDollars rest).token (.dollar none)
  | _ => placeholder plain cs
where
  /-- A placeholder, or the tag that opens a string. -/
  placeholder (plain : Bool) (cs : List Char) : Scanned Token :=
    let tag := cs.takeWhile fun c =>
      Text.isLetter c || Text.isNumeral c || c == '_' || (plain && c == '$')
    match cs.drop tag.length with
    | '$' :: rest =>
      if plain then .ok (.placeholder (String.ofList ('$' :: tag)), '$' :: rest)
      else
        match splitAtText ('$' :: tag ++ ['$']) rest with
        | none => .error (.unterminated "string")
        | some (s, after) =>
          .ok (.dollar (if tag.isEmpty then none else some (String.ofList tag))
            (String.ofList s), after)
    | rest => .ok (.placeholder (String.ofList ('$' :: tag)), rest)

/-- A symbol that operator characters may continue. -/
structure OpenSymbol where
  /-- the symbol in the text -/
  written : String
  /-- the symbol that is meant, with which a longer operator begins too -/
  spelling : String := written
  /-- whether the symbol stands for itself when nothing continues it -/
  complete : Bool := true
  /-- the characters after the symbol that are passed over -/
  skipped : Nat := 0

/-- The token of a symbol, which is a longer operator if the dialect lets the characters after it
continue it. -/
def scanOperator (d : Dialect) (s : OpenSymbol) (rest : List Char) : Scanned Token :=
  let rest := rest.drop s.skipped
  let more := rest.takeWhile d.isOperatorPart
  if !more.isEmpty then
    .ok (.operator (s.spelling ++ String.ofList more), rest.drop more.length)
  else if s.complete then .ok (.symbol s.spelling, rest)
  else .error (.malformed "operator")

/-- A symbol that stands for itself. -/
def whole (s : String) : OpenSymbol :=
  { written := s }

/-- The beginning of an operator, which is none by itself. -/
def begun (s : String) : OpenSymbol :=
  { written := s, complete := false }

/-- The symbols that a dialect reads for any operator characters that may follow, longest first.
Among the geometric ones `<|` is short for `<<|`, and `&>` takes the character after it along. -/
def openSymbols (f : Dialect.Features) : List OpenSymbol :=
  ["->>", "->", "||/", "||", "|/"].map whole ++
  (if f.geometric then [whole "|&>", begun "|&", whole "|>>", begun "|>"] else []) ++
  (if f.pipes then [whole "|>"] else []) ++
  ["|", "<=>", "<="].map whole ++
  (if f.geometric then
    [whole "<<|", { written := "<|", spelling := "<<|" }, whole "<->", begun "<-", whole "<^"]
  else []) ++
  ["<>", "<<", "<@", "<", ">=", ">>"].map whole ++
  (if f.geometric then [whole ">^"] else []) ++
  [whole ">"] ++
  (if f.geometric then [{ written := "&>", skipped := 1 }, whole "&<"] else []) ++
  ["&&", "&", "~*"].map whole ++
  (if f.geometric then [whole "~="] else []) ++
  ["~~*", "~~", "~", "#-", "#>>", "#>"].map whole ++
  (if f.geometric then [whole "##"] else []) ++
  ["-", "%"].map whole

/-- The symbols that no operator character continues, longest first. -/
def closedSymbols (f : Dialect.Features) : List String :=
  (if f.geometric then ["&<|"] else []) ++
  ["=>", "==", "=", "!=", "!!", "!~~*", "!~~", "!~*", "!~", "!", "::", ":=", ":", "^@", "^"] ++
  (if f.doubleSlash then ["//"] else []) ++
  ["/", "+", "*", "(", ")", ",", ";", "\\", "[", "]", "\x7b", "\x7d"] ++
  (if f.questionOperators then ["?||", "?|", "?&", "?-|", "?-", "?#", "?"] else [])

/-- The longest reading of what the characters begin with as one of some symbols. -/
def matchOpen? (d : Dialect) (cs : List Char) : Option (Scanned Token) :=
  ((openSymbols d.features).find? fun s => s.written.toList.isPrefixOf cs).map fun s =>
    scanOperator d s (cs.drop s.written.length)

/-- The symbol that the characters begin with and that nothing continues. -/
def matchClosed? (d : Dialect) (cs : List Char) : Option (Token × List Char) :=
  ((closedSymbols d.features).find? fun s => s.toList.isPrefixOf cs).map fun s =>
    (.symbol s, cs.drop s.length)

/-- What `#` begins where it begins no comment. -/
def scanSharp (d : Dialect) (rest : List Char) : Scanned Token :=
  match rest with
  | ' ' :: _ => .ok (.symbol "#", rest)
  | c :: rest' =>
    if d.isNameStart '#' then .ok (scanWord d ['#', c] rest')
    else scanOperator d (whole "#") rest
  | [] => scanOperator d (whole "#") rest

/-- What `@` begins. -/
def scanAt (d : Dialect) (rest : List Char) : Scanned Token :=
  let f := d.features
  match rest with
  | '-' :: rest' =>
    if f.geometric then
      match rest' with
      | '@' :: rest'' => .ok (.symbol "@-@", rest'')
      | _ => scanOperator d (begun "@-") rest'
    else .ok (plain rest)
  | '>' :: rest' => .ok (.symbol "@>", rest')
  | '?' :: rest' => .ok (.symbol "@?", rest')
  | '@' :: rest' =>
    if f.geometric then .ok (.symbol "@@", rest')
    else
      match rest' with
      | c :: rest'' =>
        .ok (if c != ' ' && d.isNameStart '@' then scanWord d ['@', '@', c] rest''
          else (.symbol "@@", rest'))
      | [] => .ok (.symbol "@@", rest')
  | _ => .ok (plain rest)
where
  /-- A name that begins with `@`, or the sign alone. -/
  plain (rest : List Char) : Token × List Char :=
    match rest with
    | c :: rest' =>
      if !(" '\"`".toList.contains c) && d.isNameStart '@' then scanWord d ['@', c] rest'
      else (.symbol "@", rest)
    | [] => (.symbol "@", rest)

/-! ## One token -/

/-- A string constant of a kind, read as `scanQuoted` does. -/
def scanString (kind : StringKind) (q : Char) (escapes wildcards : Bool) (rest : List Char) :
    Scanned Token :=
  (scanQuoted q escapes wildcards rest).token (.string kind)

/-- A raw string after its first quote `q`: three quotes at its beginning ask for three at its end,
and two are an empty string. -/
def scanRaw (single triple : StringKind) (q : Char) (rest : List Char) : Scanned Token :=
  match rest with
  | c :: rest' =>
    if c != q then scanString single q false false rest
    else
      match rest' with
      | c' :: rest'' =>
        if c' == q then (scanTriple q 0 rest'').token (.string triple)
        else .ok (.string single "", rest')
      | [] => .ok (.string single "", [])
  | [] => .error (.unterminated "string")

/-- The constant that a letter before a quote begins, if the dialect knows it. -/
def scanPrefixed (d : Dialect) (cs : List Char) : Option (Scanned Token) :=
  let f := d.features
  match cs with
  | c :: '\'' :: rest =>
    match c.toUpper with
    | 'B' => if f.byteStrings then some (scanString .byte '\'' false false rest) else none
    | 'R' => if f.rawStrings then some (scanRaw .raw .tripleRaw '\'' rest) else none
    | 'N' => some (scanString .national '\'' f.backslashEscapes f.wildcardEscapesKept rest)
    | 'E' =>
      if f.escapeStrings then
        some ((scanEscapeString (rest.length + 1) rest).token (.string .escaped))
      else none
    | 'X' => some (scanString .hex '\'' true f.wildcardEscapesKept rest)
    | _ => none
  | c :: '"' :: rest =>
    match c.toUpper with
    | 'B' => if f.byteStrings then some (scanString .doubleByte '"' false false rest) else none
    | 'R' => if f.rawStrings then some (scanRaw .doubleRaw .tripleDoubleRaw '"' rest) else none
    | _ => none
  | c :: '&' :: '\'' :: rest =>
    if c.toUpper == 'U' && f.unicodeStrings then
      some ((scanUnicodeString (rest.length + 1) rest).token (.string .unicode))
    else none
  | _ => none

/-- One token from the front of the characters, or nothing where they begin with a blank or a
comment. -/
def scanToken (d : Dialect) (last : Option Token) (c : Char) (rest : List Char) :
    Scanned (Option Token) :=
  let f := d.features
  let cs := c :: rest
  let one (t : Token × List Char) : Scanned (Option Token) := .ok (some t.1, t.2)
  let all (t : Scanned Token) : Scanned (Option Token) := t.map fun (t, r) => (some t, r)
  if c == ' ' || c == '\t' || c == '\n' || c == '\r' then .ok (none, rest)
  else if c == '-' && rest.head? == some '-' &&
      (!f.dashCommentNeedsBlank || rest.tail.head? == some ' ') then
    .ok (none, skipLine d rest.tail)
  else if c == '#' && f.hashComments then .ok (none, skipLine d rest)
  else if c == '/' && rest.head? == some '*' then
    (scanComment f.nestedComments 0 rest.tail).map fun (_, after) => (none, after)
  else
    match scanPrefixed d cs with
    | some t => all t
    | none =>
      if "bBrRnNeEuUxX".toList.contains c then one (scanWord d [c] rest)
      else if c == '\'' then
        all (scanString .plain '\'' f.backslashEscapes f.wildcardEscapesKept rest)
      else if c == '"' && !d.isQuote c then
        all (scanString .double '"' f.backslashEscapes f.wildcardEscapesKept rest)
      else if d.isQuote c then all (scanQuotedName c rest)
      else if c.isDigit || c == '.' then all (scanNumber d last cs)
      else
        match matchOpen? d cs with
        | some t => all t
        | none =>
          match matchClosed? d cs with
          | some t => one t
          | none =>
            if c == '#' then all (scanSharp d rest)
            else if c == '@' then all (scanAt d rest)
            else if c == '?' then
              let ds := rest.takeWhile Text.isNumeral
              one (.placeholder (String.ofList (c :: ds)), rest.drop ds.length)
            else if d.isNameStart c then one (scanWord d [c] rest)
            else if c == '$' then all (scanDollar d rest)
            else if Text.isBlank c then .ok (none, rest)
            else one (.other c, rest)

/-! ## All tokens -/

/-- Every lexeme of the characters, for a bound no smaller than their number. -/
def scanAll (d : Dialect) : Nat → Option Token → List Char → Except Fault (List Lexeme)
  | _, _, [] => .ok []
  | 0, _, _ => .ok []
  | fuel + 1, last, c :: rest => do
    match ← scanToken d last c rest with
    | (none, r) => scanAll d fuel none r
    | (some t, r) =>
      let ts ← scanAll d fuel (some t) r
      return ⟨t, last.isSome⟩ :: ts

/-- The lexemes of a text. -/
def Lexeme.scan (d : Dialect) (s : String) : Except Fault (List Lexeme) :=
  let cs := s.toList
  scanAll d cs.length none cs

end RowPolicy.Sql
