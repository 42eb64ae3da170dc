import RowPolicy.Sql.Grammar.Name

/-!
# Constants

Constants of every spelling, and the words that name a part of a date.
-/

namespace RowPolicy.Sql

/-- A string constant of a kind, as an expression's constant. -/
def StringKind.literal (kind : StringKind) (s : String) : Literal :=
  match kind with
  | .plain => .text s
  | .double => .spelled (quoted '"' s)
  | .byte => .spelled ("B'" ++ s ++ "'")
  | .doubleByte => .spelled ("B\"" ++ s ++ "\"")
  | .raw => .spelled ("R'" ++ s ++ "'")
  | .doubleRaw => .spelled ("R\"" ++ s ++ "\"")
  | .tripleRaw => .spelled ("R'''" ++ s ++ "'''")
  | .tripleDoubleRaw => .spelled ("R\"\"\"" ++ s ++ "\"\"\"")
  | .national => .spelled ("N'" ++ s ++ "'")
  | .escaped => .spelled ("E'" ++ String.ofList (escapeContent s.toList) ++ "'")
  | .unicode => .spelled ("U&'" ++ String.ofList (unicodeContent s.toList) ++ "'")
  | .hex => .spelled ("X'" ++ s ++ "'")

namespace Reader

/-- The strings that follow a string constant and belong to it, joined. -/
def adjacentStrings (s : String) : Reader String := do
  if ← feature (·.adjacentStrings) then
    loop (fun s => do
      match ← peek with
      | some (.string .plain t) | some (.string .double t) => advance; return some (s ++ t)
      | _ => return none) s
  else return s

/-- A parameter that a sign begins: a word or number must follow it without a blank. -/
def signedPlaceholder (sign : String) : Reader Literal := do
  match (← get).head? with
  | some ⟨.word v _ _, true⟩ => advance; return .spelled (sign ++ v)
  | some ⟨.number n false, true⟩ => advance; return .spelled (sign ++ n)
  | _ => expected "placeholder"

/-- A constant. -/
def constant : Reader Literal := do
  match ← peek with
  | some (.word v q k) =>
    if k == "NULL" then advance; return .null
    else if (k == "TRUE" || k == "FALSE") && (← feature (·.booleanLiterals)) then
      advance
      return .boolean (k == "TRUE")
    else if q == some '"' then advance; return .spelled (quoted '"' v)
    else if q == some '\'' then advance; return .text v
    else expected "a concrete value"
  | some (.number ds long) => advance; return .number (if long then ds ++ "L" else ds)
  | some (.string kind s) =>
    advance
    match kind with
    | .plain | .double => return kind.literal (← adjacentStrings s)
    | .escaped =>
      if ← inDialect [.postgresql, .generic] then return kind.literal s else expected "a value"
    | _ => return kind.literal s
  | some (.dollar tag s) =>
    advance
    let t := "$" ++ tag.getD "" ++ "$"
    return .spelled (t ++ s ++ t)
  | some (.placeholder p) => advance; return .spelled p
  | some (.symbol ":") => advance; signedPlaceholder ":"
  | some (.symbol "@") => advance; signedPlaceholder "@"
  | _ => expected "a value"

/-- A constant in printed form. -/
def constantText : Reader String :=
  return (← constant).render

/-- One string constant behind the name of its character set. -/
def introducedText : Reader String := do
  match ← peek with
  | some (.string kind s) =>
    match kind with
    | .plain | .double | .hex => advance; return (kind.literal s).render
    | _ => expected "a string"
  | _ => expected "a string"

/-- A number, or a parameter in its place, in printed form. -/
def numberText : Reader String := do
  match ← peek with
  | some (.number _ _) | some (.placeholder _) | some (.symbol ":") | some (.symbol "@") =>
    constantText
  | _ => expected "a literal number"

/-- A number behind an optional sign, in printed form. -/
def signedNumberText : Reader String := do
  match ← peek with
  | some (.symbol "+") => advance; return "+" ++ (← numberText)
  | some (.symbol "-") => advance; return "-" ++ (← numberText)
  | _ => numberText

/-! ## Parts of a date -/

/-- The parts of a date that are units of time. -/
def timeUnits : List String :=
  ["YEAR", "YEARS", "MONTH", "MONTHS", "WEEK", "WEEKS", "DAY", "DAYS", "HOUR", "HOURS", "MINUTE",
    "MINUTES", "SECOND", "SECONDS", "CENTURY", "DECADE", "DOW", "DOY", "EPOCH", "ISODOW",
    "ISOYEAR", "JULIAN", "MICROSECOND", "MICROSECONDS", "MILLENIUM", "MILLENNIUM", "MILLISECOND",
    "MILLISECONDS", "NANOSECOND", "NANOSECONDS", "QUARTER", "TIMEZONE", "TIMEZONE_HOUR",
    "TIMEZONE_MINUTE"]

/-- All parts of a date. -/
def dateParts : List String :=
  timeUnits ++ ["DAYOFWEEK", "DAYOFYEAR", "DATE", "DATETIME", "ISOWEEK", "TIME", "TIMEZONE_ABBR",
    "TIMEZONE_REGION"]

/-- A part of a date, in printed form. -/
def datePart : Reader String := do
  match ← keywordOf? dateParts with
  | some "WEEK" =>
    if ← inDialect [.generic] then return "WEEK" ++ (← textBefore? "(" weekday) else return "WEEK"
  | some k => return k
  | none =>
    match ← peek with
    | some (.word _ _ _) =>
      if ← feature (·.extractAnyField) then identText else expected "date/time field"
    | some (.string .plain _) =>
      if ← feature (·.extractQuotedField) then identText else expected "date/time field"
    | _ => expected "date/time field"
where
  /-- The day on which a week begins. -/
  weekday : Reader String :=
    return "(" ++ (← parens identText) ++ ")"

end Reader

end RowPolicy.Sql
