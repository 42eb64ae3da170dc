import RowPolicy.Json.Basic

/-!
# Reading JSON

A text holds one value with blanks around it. Numbers without fraction and exponent are whole while
they fit in 64 bits, with a sign or without; the others keep as many leading digits as fit in 64
bits, and their power of ten is applied to the nearest number of double precision by steps of
`10 ^ 308` at most. A number beyond double precision is refused.
-/

namespace RowPolicy.Json

/-- Why a text is not JSON. -/
inductive Fault where
  | malformed
  | outOfRange
  deriving DecidableEq, Repr

namespace Fault

/-- A fault in words. -/
def message : Fault → String
  | malformed => "malformed JSON"
  | outOfRange => "number out of range"

end Fault

/-! ## Blanks and strings -/

/-- The characters that may stand between the parts of a value. -/
def isBlank (c : Char) : Bool :=
  c == ' ' || c == '\n' || c == '\t' || c == '\r'

/-- The text from its first character on that is no blank. -/
def skipBlanks (cs : List Char) : List Char :=
  cs.dropWhile isBlank

/-- The value of a hexadecimal digit. -/
def hexValue? (c : Char) : Option Nat :=
  if c.isDigit then some (c.toNat - '0'.toNat)
  else if 'a' ≤ c && c ≤ 'f' then some (c.toNat - 'a'.toNat + 10)
  else if 'A' ≤ c && c ≤ 'F' then some (c.toNat - 'A'.toNat + 10)
  else none

/-- The value of four hexadecimal digits. -/
def hexValue4? (a b c d : Char) : Option Nat := do
  return (((← hexValue? a) * 16 + (← hexValue? b)) * 16 + (← hexValue? c)) * 16 + (← hexValue? d)

/-- The character that a letter after a backslash stands for. -/
def unescape? (c : Char) : Option Char :=
  match c with
  | '"' => some '"'
  | '\\' => some '\\'
  | '/' => some '/'
  | 'b' => some '\x08'
  | 'f' => some '\x0c'
  | 'n' => some '\n'
  | 'r' => some '\r'
  | 't' => some '\t'
  | _ => none

/-- The rest of a string behind a character. -/
def behind (c : Char) : Except Fault (List Char × List Char) → Except Fault (List Char × List Char)
  | .ok (cs, rest) => .ok (c :: cs, rest)
  | .error f => .error f

/-- A string behind its opening quote. A pair of surrogates is one character, and neither stands
alone. -/
def readString : List Char → Except Fault (List Char × List Char)
  | [] => .error .malformed
  | '"' :: rest => .ok ([], rest)
  | '\\' :: 'u' :: a :: b :: c :: d :: '\\' :: 'u' :: a' :: b' :: c' :: d' :: rest =>
    match hexValue4? a b c d with
    | none => .error .malformed
    | some n =>
      if 0xd800 ≤ n && n < 0xdc00 then
        match hexValue4? a' b' c' d' with
        | none => .error .malformed
        | some n' =>
          if 0xdc00 ≤ n' && n' < 0xe000 then
            behind (Char.ofNat (0x10000 + (n - 0xd800) * 0x400 + (n' - 0xdc00))) (readString rest)
          else .error .malformed
      else if 0xdc00 ≤ n && n < 0xe000 then .error .malformed
      else behind (Char.ofNat n) (readString ('\\' :: 'u' :: a' :: b' :: c' :: d' :: rest))
  | '\\' :: 'u' :: a :: b :: c :: d :: rest =>
    match hexValue4? a b c d with
    | none => .error .malformed
    | some n =>
      if 0xd800 ≤ n && n < 0xe000 then .error .malformed
      else behind (Char.ofNat n) (readString rest)
  | '\\' :: c :: rest =>
    match unescape? c with
    | some c => behind c (readString rest)
    | none => .error .malformed
  | c :: rest =>
    if c == '\\' || c.toNat < 0x20 then .error .malformed else behind c (readString rest)

/-! ## Numbers -/

/-- The greatest number that leading digits may spell. -/
def maxSignificand : Nat :=
  UInt64.size - 1

/-- The number that leading digits spell, as long as it fits, and the digits that are left. -/
def significand : Nat → List Char → Nat × List Char
  | n, [] => (n, [])
  | n, c :: cs =>
    let n' := n * 10 + (c.toNat - '0'.toNat)
    if maxSignificand < n' then (n, c :: cs) else significand n' cs

/-- A number of double precision by a power of ten. Powers beyond the greatest that double
precision holds are divided by in steps; they are not multiplied by. -/
def scale (x : Double) (exponent : Int) : Except Fault Double :=
  let outOfRange (y : Option Double) : Except Fault Double :=
    match y with
    | some y => .ok y
    | none => .error .outOfRange
  if 0 ≤ exponent then
    if exponent ≤ 308 then outOfRange (x.scaleUp? exponent.toNat)
    else if x.magnitude = 0 then .ok x
    else .error .outOfRange
  else if -308 ≤ exponent then outOfRange (x.scaleDown? exponent.natAbs)
  else
    match x.scaleDown? 308 with
    | none => .error .outOfRange
    | some y =>
      if y.magnitude = 0 then .ok y
      else if -616 ≤ exponent then outOfRange (y.scaleDown? (exponent.natAbs - 308))
      else .ok (.zero x.negative)

/-- The real number of a sign, a whole part with the number of its digits that were left out, the
digits of a fraction, and an exponent with its sign. -/
def realNumber (negative : Bool) (whole skipped : Nat) (fraction : List Char)
    (exponent : Option (Bool × List Char)) : Except Fault Double := do
  let (n, left) := significand whole fraction
  let place : Int := skipped - (fraction.length - left.length : Nat)
  let some x := Double.ofRatio? negative n 1 | .error .outOfRange
  match exponent with
  | none => scale x place
  | some (below, ds) =>
    let e := Double.digitsValue ds
    if 0x80000000 ≤ e then
      if n ≠ 0 && !below then .error .outOfRange else return .zero negative
    else scale x (if below then place - e else place + e)

/-- An exponent behind its letter, if there is one. -/
def readExponent (cs : List Char) : Except Fault (Option (Bool × List Char) × List Char) :=
  match cs with
  | c :: rest =>
    if c == 'e' || c == 'E' then
      let (below, rest) := Double.splitSign rest
      let ds := rest.takeWhile Char.isDigit
      if ds.isEmpty then .error .malformed
      else .ok (some (below, ds), rest.dropWhile Char.isDigit)
    else .ok (none, cs)
  | [] => .ok (none, [])

/-- The digits behind a point, if there is one. -/
def readFraction (cs : List Char) : Except Fault (Option (List Char) × List Char) :=
  match cs with
  | '.' :: rest =>
    let ds := rest.takeWhile Char.isDigit
    if ds.isEmpty then .error .malformed else .ok (some ds, rest.dropWhile Char.isDigit)
  | _ => .ok (none, cs)

/-- A whole number by its sign, if it fits in 64 bits; zero with a sign does not. -/
def wholeNumber? (negative : Bool) (n : Nat) : Option Int :=
  if negative then if 0 < n && 2 * n ≤ UInt64.size then some (-n) else none
  else if n < UInt64.size then some n
  else none

/-- The number of the digits of its whole part, and of its fraction and exponent, if it has them. -/
def numberOf (negative : Bool) (ds : List Char) (fraction : Option (List Char))
    (exponent : Option (Bool × List Char)) : Except Fault Json :=
  let (n, left) := significand 0 ds
  match fraction, exponent, (if left.isEmpty then wholeNumber? negative n else none) with
  | none, none, some i => .ok (integer i)
  | _, _, _ => real <$> realNumber negative n left.length (fraction.getD []) exponent

/-- A number behind its sign. Its first digit is zero only if it is the only one of its whole
part. -/
def readNumber (negative : Bool) (cs : List Char) : Except Fault (Json × List Char) := do
  let ds := cs.takeWhile Char.isDigit
  match ds with
  | [] => .error .malformed
  | '0' :: _ :: _ => .error .malformed
  | ds =>
    let (fraction, rest) ← readFraction (cs.dropWhile Char.isDigit)
    let (exponent, rest) ← readExponent rest
    return (← numberOf negative ds fraction exponent, rest)

/-! ## Values -/

/-- The rest of a text behind a word. -/
def readWord (word : String) (j : Json) (cs : List Char) : Except Fault (Json × List Char) :=
  if word.toList.isPrefixOf cs then .ok (j, cs.drop word.toList.length) else .error .malformed

mutual

/-- A value with the blanks before it, no deeper than `bound`. -/
def readValue : (bound : Nat) → List Char → Except Fault (Json × List Char)
  | 0, _ => .error .malformed
  | n + 1, cs =>
    match skipBlanks cs with
    | [] => .error .malformed
    | 'n' :: rest => readWord "ull" null rest
    | 't' :: rest => readWord "rue" (boolean true) rest
    | 'f' :: rest => readWord "alse" (boolean false) rest
    | '"' :: rest => do
      let (s, rest) ← readString rest
      return (text (String.ofList s), rest)
    | '-' :: rest => readNumber true rest
    | '[' :: rest =>
      match skipBlanks rest with
      | ']' :: rest => .ok (array [], rest)
      | rest => do
        let (es, rest) ← readElements n rest
        return (array es, rest)
    | c :: rest =>
      if c == openBrace then
        match skipBlanks rest with
        | [] => .error .malformed
        | d :: rest' =>
          if d == closeBrace then .ok (object [], rest')
          else do
            let (ms, rest) ← readMembers n (d :: rest')
            return (object ms, rest)
      else if c.isDigit then readNumber false (c :: rest)
      else .error .malformed

/-- One or more elements, with the bracket that ends them. -/
def readElements : (bound : Nat) → List Char → Except Fault (List Json × List Char)
  | 0, _ => .error .malformed
  | n + 1, cs => do
    let (e, rest) ← readValue n cs
    match skipBlanks rest with
    | ',' :: rest =>
      let (es, rest) ← readElements n rest
      return (e :: es, rest)
    | ']' :: rest => return ([e], rest)
    | _ => .error .malformed

/-- One or more members, with the brace that ends them. -/
def readMembers : (bound : Nat) → List Char → Except Fault (List (String × Json) × List Char)
  | 0, _ => .error .malformed
  | n + 1, cs => do
    match skipBlanks cs with
    | '"' :: rest =>
      let (k, rest) ← readString rest
      match skipBlanks rest with
      | ':' :: rest =>
        let (v, rest) ← readValue n rest
        match skipBlanks rest with
        | c :: rest =>
          if c == ',' then
            let (ms, rest) ← readMembers n rest
            return ((String.ofList k, v) :: ms, rest)
          else if c == closeBrace then return ([(String.ofList k, v)], rest)
          else .error .malformed
        | [] => .error .malformed
      | _ => .error .malformed
    | _ => .error .malformed

end

/-- The value that a text holds. Its length bounds how deep it can be. -/
def parse (s : String) : Except Fault Json := do
  let cs := s.toList
  let (j, rest) ← readValue (cs.length + 1) cs
  if (skipBlanks rest).isEmpty then return j else .error .malformed

end RowPolicy.Json
