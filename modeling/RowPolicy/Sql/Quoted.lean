/-!
# Text between quotes

How the content of a string constant or of a quoted name is written between its quotes. A content
may come with its quotes already doubled or escaped, and is then left as it is: of two quotes in a
row both are kept, a quote after a backslash is kept, and only a quote that stands alone is
doubled.
-/

namespace RowPolicy.Sql

/-- The content written between quotes `q`; `escaped` says that the character before the content
makes a quote stand for itself. -/
def quoteContent (q : Char) : (escaped : Bool) → List Char → List Char
  | _, [] => []
  | escaped, c :: rest =>
    if c == q then
      if escaped then c :: quoteContent q true rest
      else
        match rest with
        | [] => [c, c]
        | c' :: rest' =>
          if c' == q then c :: c' :: quoteContent q false rest'
          else c :: c :: quoteContent q false (c' :: rest')
    else c :: quoteContent q (c == '\\') rest

/-- The text between quotes `q`. -/
def quoted (q : Char) (s : String) : String :=
  String.ofList (q :: quoteContent q false s.toList ++ [q])

/-- The content of an `E'..'` constant, with its controls, quotes and backslashes escaped. -/
def escapeContent : List Char → List Char
  | [] => []
  | c :: rest =>
    match c with
    | '\'' => '\\' :: '\'' :: escapeContent rest
    | '\\' => '\\' :: '\\' :: escapeContent rest
    | '\n' => '\\' :: 'n' :: escapeContent rest
    | '\t' => '\\' :: 't' :: escapeContent rest
    | '\r' => '\\' :: 'r' :: escapeContent rest
    | c => c :: escapeContent rest

/-- `n` in base 16, in capitals, with at least `k` digits. -/
def hexDigits (k n : Nat) : List Char :=
  let ds := (Nat.toDigits 16 n).map Char.toUpper
  List.replicate (k - ds.length) '0' ++ ds

/-- The content of a `U&'..'` constant: quotes and backslashes doubled, characters beyond ASCII by
their code points. -/
def unicodeContent : List Char → List Char
  | [] => []
  | c :: rest =>
    let front :=
      if c == '\'' || c == '\\' then [c, c]
      else if c.toNat < 128 then [c]
      else if c.toNat ≤ 0xffff then '\\' :: hexDigits 4 c.toNat
      else '\\' :: '+' :: hexDigits 6 c.toNat
    front ++ unicodeContent rest

end RowPolicy.Sql
