import RowPolicy.Number.Double

/-!
# Decimal texts of numbers

`Double.shortest` yields the fewest decimal digits that are nearer to a number than to any other,
and the two printed forms are made of them: `Double.plain` never uses an exponent, and
`Double.scientific` does beyond sixteen places. `Double.ofText?` reads what a caller writes: digits
with an optional sign, point and exponent.
-/

namespace RowPolicy.Double

/-! ## Shortest digits -/

/-- The reals that round to a magnitude, in quarters of `2 ^ -1074`: the least, the magnitude, the
greatest. The gap below a power of two is half as wide. -/
def interval (magnitude : Nat) : Nat × Nat × Nat :=
  let quarter := 1 <<< scaleOf magnitude
  let middle := 4 * units magnitude
  let below := if mantissaOf magnitude = stretch then quarter else 2 * quarter
  (middle - below, middle, middle + 2 * quarter)

/-- Whether a point rounds to a magnitude, in quarters of `2 ^ -1074` that are divided by `up`. -/
def admits (magnitude up point : Nat) : Bool :=
  let (low, _, high) := interval magnitude
  if mantissaOf magnitude % 2 == 0 then low * up ≤ point && point ≤ high * up
  else low * up < point && point < high * up

/-- The point of the decimal grid `10 ^ place` that is nearest to a magnitude among those that
round to it; the upper one of two that are equally near. -/
def gridPoint? (magnitude : Nat) (place : Int) : Option Nat :=
  let (_, middle, _) := interval magnitude
  let up := Nat.pow 10 (-place).toNat
  let unit := Nat.pow 10 place.toNat <<< 1076
  let d := middle * up / unit
  let below := admits magnitude up (d * unit)
  let above := admits magnitude up ((d + 1) * unit)
  if below && above then some (if 2 * (middle * up - d * unit) < unit then d else d + 1)
  else if below then some d
  else if above then some (d + 1)
  else none

/-- The first point on grids that grow finer from `10 ^ place` on, `bound` grids at most. -/
def searchGrids (point? : Int → Option Nat) : (bound : Nat) → (place : Int) → Nat × Int
  | 0, place => (0, place)
  | n + 1, place =>
    match point? place with
    | some d => (d, place)
    | none => searchGrids point? n (place - 1)

/-- The fewest digits that stand for a magnitude, with the power of ten they count. -/
def shortest (magnitude : Nat) : Nat × Int :=
  if magnitude = 0 then (0, 0)
  else
    let exponent : Int := (units magnitude).log2 - 1074
    searchGrids (gridPoint? magnitude) 24 (exponent * 30103 / 100000 + 2)

/-! ## Printed forms -/

/-- `n` zeros. -/
def zeros (n : Nat) : String :=
  String.ofList (List.replicate n '0')

/-- Digits with a point before the last `places` of them, zeros filled in where they are fewer. -/
def pointed (digits : String) (places : Nat) : String :=
  let padded := zeros (places + 1 - digits.length) ++ digits
  let whole := padded.length - places
  String.ofList (padded.toList.take whole) ++ "." ++ String.ofList (padded.toList.drop whole)

/-- A sign where there is one. -/
def signText (x : Double) : String :=
  if x.negative then "-" else ""

/-- A number without an exponent, and without a point where it is whole. -/
def plain (x : Double) : String :=
  let (digits, place) := shortest x.magnitude
  x.signText ++
    if 0 ≤ place then toString digits ++ zeros place.toNat
    else pointed (toString digits) (-place).toNat

/-- A number with a point or an exponent, so that it reads back as one that need not be whole. -/
def scientific (x : Double) : String :=
  let (digits, place) := shortest x.magnitude
  let ds := toString digits
  let leading : Int := ds.length + place
  x.signText ++
    if x.magnitude = 0 then "0.0"
    else if 0 ≤ place && leading ≤ 16 then ds ++ zeros place.toNat ++ ".0"
    else if -5 < leading && leading ≤ 16 then pointed ds (-place).toNat
    else
      let mantissa := if ds.length = 1 then ds else pointed ds (ds.length - 1)
      mantissa ++ "e" ++ toString (leading - 1)

/-! ## Reading -/

/-- The number that digits spell. -/
def digitsValue (ds : List Char) : Nat :=
  ds.foldl (fun n c => n * 10 + (c.toNat - '0'.toNat)) 0

/-- A sign, if there is one, and the rest: whether it is negative, and what follows. -/
def splitSign : List Char → Bool × List Char
  | '-' :: cs => (true, cs)
  | '+' :: cs => (false, cs)
  | cs => (false, cs)

/-- An exponent behind its letter, or zero at the end. -/
def exponentOf? : List Char → Option Int
  | [] => some 0
  | c :: cs =>
    if c == 'e' || c == 'E' then
      let (negative, ds) := splitSign cs
      if ds.isEmpty || !ds.all Char.isDigit then none
      else some (if negative then -(digitsValue ds : Int) else digitsValue ds)
    else none

/-- The finite number that a decimal text spells, if it spells one. -/
def ofText? (s : String) : Option Double :=
  let (negative, cs) := splitSign s.toList
  let whole := cs.takeWhile Char.isDigit
  let rest := cs.dropWhile Char.isDigit
  let (fraction, rest) := match rest with
    | '.' :: cs => (cs.takeWhile Char.isDigit, cs.dropWhile Char.isDigit)
    | cs => ([], cs)
  if whole.isEmpty && fraction.isEmpty then none
  else do
    let exponent ← exponentOf? rest
    ofDecimal? negative (digitsValue (whole ++ fraction)) (exponent - fraction.length)

end RowPolicy.Double
