import RowPolicy.Number.Decimal
import RowPolicy.Text.Fold

/-!
# Values

What a caller or a configuration supplies to be written into a statement. On the command line a
value is a word, and `Value.parseLoose` gives it the narrowest type that it spells.
-/

namespace RowPolicy

/-- A value to be written into a statement. -/
inductive Value where
  | null
  | boolean (b : Bool)
  | integer (n : Int)
  | real (x : Double)
  | text (s : String)
  deriving DecidableEq

namespace Value

/-- Whether a value is the absent one. -/
def isNull : Value → Bool
  | null => true
  | _ => false

/-! ## Integers -/

/-- The integers that fit in 64 bits with a sign. -/
def isWord (n : Int) : Bool :=
  Int64.minValue.toInt ≤ n && n ≤ Int64.maxValue.toInt

/-- The integer that a text spells, if it spells one that fits in 64 bits. -/
def integerOf? (s : String) : Option Int :=
  let (negative, ds) := Double.splitSign s.toList
  if ds.isEmpty || !ds.all Char.isDigit then none
  else
    let n : Int := Double.digitsValue ds
    let n := if negative then -n else n
    if isWord n then some n else none

/-! ## Reading and printing -/

/-- The value that a word spells: the absent one, a truth value, an integer, a real number, and
text if none of these. -/
def parseLoose (raw : String) : Value :=
  if Text.sameName raw "null" then null
  else if raw == "true" then boolean true
  else if raw == "false" then boolean false
  else
    match integerOf? raw with
    | some n => integer n
    | none =>
      match Double.ofText? raw with
      | some x => real x
      | none => text raw

/-- A text with each of its quotes written twice. -/
def doubleQuotes (s : String) : String :=
  String.ofList (s.toList.flatMap fun c => if c == '\'' then ['\'', '\''] else [c])

/-- A value for a reader of messages. -/
def display : Value → String
  | null => "NULL"
  | boolean true => "true"
  | boolean false => "false"
  | integer n => toString n
  | real x => x.plain
  | text s => "'" ++ doubleQuotes s ++ "'"

end Value

end RowPolicy
