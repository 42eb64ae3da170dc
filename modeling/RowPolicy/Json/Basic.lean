import RowPolicy.Number.Decimal

/-!
# JSON values and their texts

A JSON value keeps the members of an object in order, and repeated ones too. Numbers are whole or of
double precision. `Json.compact` prints a value on one line without blanks, and `Json.pretty` with a
member or element a line.
-/

namespace RowPolicy

/-- A JSON value. -/
inductive Json where
  | null
  | boolean (b : Bool)
  | integer (n : Int)
  | real (x : Double)
  | text (s : String)
  | array (elements : List Json)
  | object (members : List (String × Json))

namespace Json

/-! ## Strings -/

/-- The character of a hexadecimal digit. -/
def hexDigit (n : Nat) : Char :=
  if n < 10 then Char.ofNat ('0'.toNat + n) else Char.ofNat ('a'.toNat + (n - 10))

/-- A character in a string. Quotes, backslashes and control characters are escaped. -/
def escape (c : Char) : List Char :=
  match c with
  | '"' => ['\\', '"']
  | '\\' => ['\\', '\\']
  | '\x08' => ['\\', 'b']
  | '\x0c' => ['\\', 'f']
  | '\n' => ['\\', 'n']
  | '\r' => ['\\', 'r']
  | '\t' => ['\\', 't']
  | c =>
    if c.toNat < 0x20 then ['\\', 'u', '0', '0', hexDigit (c.toNat / 16), hexDigit (c.toNat % 16)]
    else [c]

/-- A string between quotes. -/
def quote (s : String) : List Char :=
  '"' :: s.toList.flatMap escape ++ ['"']

/-! ## Printing -/

/-- The braces around the members of an object. -/
def openBrace : Char :=
  '\x7b'

/-- The brace that ends the members of an object. -/
def closeBrace : Char :=
  '\x7d'

mutual

/-- A value on one line, without blanks. -/
def print : Json → List Char
  | null => "null".toList
  | boolean true => "true".toList
  | boolean false => "false".toList
  | integer n => (toString n).toList
  | real x => x.scientific.toList
  | text s => quote s
  | array [] => ['[', ']']
  | array (e :: es) => '[' :: print e ++ printElements es
  | object [] => [openBrace, closeBrace]
  | object (⟨k, v⟩ :: ms) => openBrace :: quote k ++ ':' :: print v ++ printMembers ms

/-- The elements after the first, and the bracket that ends them. -/
def printElements : List Json → List Char
  | [] => [']']
  | e :: es => ',' :: print e ++ printElements es

/-- The members after the first, and the brace that ends them. -/
def printMembers : List (String × Json) → List Char
  | [] => [closeBrace]
  | ⟨k, v⟩ :: ms => ',' :: quote k ++ ':' :: print v ++ printMembers ms

end

/-- A value on one line, without blanks. -/
def compact (j : Json) : String :=
  String.ofList j.print

/-- The start of a line that is indented by two blanks a level. -/
def newLine (level : Nat) : String :=
  "\n" ++ String.ofList (List.replicate (2 * level) ' ')

mutual

/-- A value on several lines, from a level of indentation on. -/
def prettyFrom (level : Nat) : Json → String
  | array [] => "[]"
  | array (e :: es) =>
    "[" ++ newLine (level + 1) ++ prettyFrom (level + 1) e ++ prettyElements (level + 1) es ++
      newLine level ++ "]"
  | object [] => "\x7b\x7d"
  | object (⟨k, v⟩ :: ms) =>
    "\x7b" ++ newLine (level + 1) ++ String.ofList (quote k) ++ ": " ++ prettyFrom (level + 1) v ++
      prettyMembers (level + 1) ms ++ newLine level ++ "\x7d"
  | j => j.compact

/-- The elements after the first, a line each. -/
def prettyElements (level : Nat) : List Json → String
  | [] => ""
  | e :: es => "," ++ newLine level ++ prettyFrom level e ++ prettyElements level es

/-- The members after the first, a line each. -/
def prettyMembers (level : Nat) : List (String × Json) → String
  | [] => ""
  | ⟨k, v⟩ :: ms =>
    "," ++ newLine level ++ String.ofList (quote k) ++ ": " ++ prettyFrom level v ++
      prettyMembers level ms

end

/-- A value on several lines. -/
def pretty (j : Json) : String :=
  j.prettyFrom 0

/-! ## Members -/

/-- The last member under a key. -/
def member? (j : Json) (key : String) : Option Json :=
  match j with
  | object ms => ms.reverse.lookup key
  | _ => none

end Json

end RowPolicy
