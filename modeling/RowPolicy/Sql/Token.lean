import RowPolicy.Text.Fold

/-!
# Tokens of SQL text

What the lexer makes of the characters and the grammar reads: words, numbers, strings in their
several spellings, placeholders and symbols. A word carries the upper-case form in which it is
compared with keywords; a quoted word carries none and so is never a keyword.
-/

namespace RowPolicy.Sql

/-- The spellings of a string constant that keep their own kind when printed. -/
inductive StringKind where
  | plain
  | double
  | byte
  | doubleByte
  | raw
  | doubleRaw
  | tripleRaw
  | tripleDoubleRaw
  | national
  | escaped
  | unicode
  | hex
  deriving DecidableEq, Repr

/-- One token. -/
inductive Token where
  /-- a name or keyword; `keyword` is its upper-case form, empty when the word is quoted -/
  | word (value : String) (quote : Option Char) (keyword : String)
  /-- a number as written, with the suffix `L` taken off -/
  | number (digits : String) (long : Bool)
  /-- a string constant by its content -/
  | string (kind : StringKind) (content : String)
  /-- a string between dollar tags -/
  | dollar (tag : Option String) (content : String)
  /-- a parameter such as `?`, `$1` -/
  | placeholder (text : String)
  /-- punctuation or an operator the grammar knows -/
  | symbol (spelling : String)
  /-- an operator made of operator characters that has no meaning of its own -/
  | operator (spelling : String)
  /-- any other character -/
  | other (c : Char)
  deriving DecidableEq, Repr

namespace Token

/-- A word as the lexer reads it without quotes. -/
def plainWord (value : String) : Token :=
  .word value none (Text.keywordForm value)

/-- A word between quotes. -/
def quotedWord (quote : Char) (value : String) : Token :=
  .word value (some quote) ""

/-- The keyword a token spells, empty for a token that is no unquoted word. -/
def keyword : Token → String
  | .word _ _ k => k
  | _ => ""

/-- Whether a token is an unquoted or quoted word. -/
def isWord : Token → Bool
  | .word _ _ _ => true
  | _ => false

/-- The closing partner of an opening quote of an identifier. -/
def closingQuote (q : Char) : Char :=
  if q == '[' then ']' else q

/-- The token as text, for messages and operator names. -/
def spelling : Token → String
  | .word v none _ => v
  | .word v (some q) _ => q.toString ++ v ++ (closingQuote q).toString
  | .number n long => if long then n ++ "L" else n
  | .string _ s => "'" ++ s ++ "'"
  | .dollar tag s => "$" ++ tag.getD "" ++ "$" ++ s ++ "$" ++ tag.getD "" ++ "$"
  | .placeholder s => s
  | .symbol s => s
  | .operator s => s
  | .other c => c.toString

end Token

/-- A token and whether it follows the one before it without a blank. -/
structure Lexeme where
  token : Token
  glued : Bool
  deriving DecidableEq, Repr

/-- Why a text is not SQL. -/
inductive Fault where
  /-- a string, quoted name or comment that does not end -/
  | unterminated (what : String)
  /-- characters that form no token -/
  | malformed (what : String)
  /-- a token other than the grammar wants; no token is the end of the text -/
  | unexpected (wanted : String) (found : Option Token)
  /-- nesting deeper than the grammar follows -/
  | tooDeep
  deriving DecidableEq, Repr

namespace Fault

/-- The fault in words. -/
def message : Fault → String
  | .unterminated what => "unterminated " ++ what
  | .malformed what => "malformed " ++ what
  | .unexpected wanted none => "expected " ++ wanted ++ ", found the end"
  | .unexpected wanted (some t) => "expected " ++ wanted ++ ", found: " ++ t.spelling
  | .tooDeep => "nesting too deep"

end Fault

end RowPolicy.Sql
