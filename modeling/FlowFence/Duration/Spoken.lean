import FlowFence.Duration.Basic
import FlowFence.Text.Blank

/-!
# Spoken durations

The text in which durations are set and shown: amounts with units, one after another, such as
`1h 30m`. Shown durations name each unit once, from the largest down. A duration that is read may
name units in any order and more than once; an amount may have a fraction as long as it is a whole
number of the unit's parts, and every step of the sum fits a 64-bit word.
-/

namespace FlowFence

namespace Duration

/-! ## Writing -/

/-- A unit by the nanoseconds it has and the spelling of one and of several. -/
structure SpokenUnit where
  nanoseconds : Nat
  one : String
  several : String

/-- The units of the spoken text; a year is 365.25 days and a month its twelfth part. -/
def spokenUnits : List SpokenUnit := [
  ⟨31557600 * second, "year", "years"⟩,
  ⟨2630016 * second, "month", "months"⟩,
  ⟨86400 * second, "day", "days"⟩,
  ⟨3600 * second, "h", "h"⟩,
  ⟨60 * second, "m", "m"⟩,
  ⟨second, "s", "s"⟩,
  ⟨1000000, "ms", "ms"⟩,
  ⟨1000, "us", "us"⟩,
  ⟨1, "ns", "ns"⟩
]

/-- The amounts of a number of nanoseconds, each as large as possible; zero amounts are left out. -/
def spokenParts : List SpokenUnit → Nat → List String
  | [], _ => []
  | unit :: units, n =>
      let amount := n / unit.nanoseconds
      let rest := spokenParts units (n % unit.nanoseconds)
      if amount = 0 then rest
      else (toString amount ++ if amount = 1 then unit.one else unit.several) :: rest

def spokenText (duration : Duration) : String :=
  if duration.nanoseconds = 0 then "0s"
  else String.intercalate " " (spokenParts spokenUnits duration.nanoseconds)

/-! ## Reading -/

def largestWord : Nat := 2 ^ 64 - 1

structure ReadUnit where
  spellings : List String
  /-- The whole seconds of the unit. -/
  seconds : Nat
  /-- The nanoseconds of a unit below the second, else zero. -/
  nanoseconds : Nat
  /-- Whether a fraction has to be a whole number of seconds, not only of nanoseconds. -/
  coarse : Bool

def readUnits : List ReadUnit := [
  ⟨["nanos", "nsec", "ns"], 0, 1, false⟩,
  ⟨["usec", "us", "µs"], 0, 1000, false⟩,
  ⟨["millis", "msec", "ms"], 0, 1000000, false⟩,
  ⟨["seconds", "second", "secs", "sec", "s"], 1, 0, false⟩,
  ⟨["minutes", "minute", "mins", "min", "m"], 60, 0, false⟩,
  ⟨["hours", "hour", "hrs", "hr", "h"], 3600, 0, true⟩,
  ⟨["days", "day", "d"], 86400, 0, true⟩,
  ⟨["weeks", "week", "wks", "wk", "w"], 604800, 0, true⟩,
  ⟨["months", "month", "M"], 2630016, 0, true⟩,
  ⟨["years", "year", "yrs", "yr", "y"], 31557600, 0, true⟩
]

def readUnit? (spelling : List Char) : Option ReadUnit :=
  readUnits.find? fun unit => unit.spellings.contains (String.ofList spelling)

/-- A summand of a duration: seconds, and nanoseconds that may be more than a second. -/
structure Summand where
  seconds : Nat
  nanoseconds : Nat

/-- Add a summand to a number of nanoseconds, if both parts of the sum fit words. -/
def add? (total : Nat) (summand : Summand) : Option Nat :=
  let sum := total + summand.seconds * second + summand.nanoseconds
  if largestWord < total % second + summand.nanoseconds then none
  else if largestWord < sum / second then none
  else some sum

def wholeSummand? (unit : ReadUnit) (digits : List Char) : Option Summand := do
  let amount ← Text.numeral? 10 digits
  if largestWord < amount then none
  else if largestWord < amount * unit.seconds then none
  else if largestWord < amount * unit.nanoseconds then none
  else some ⟨amount * unit.seconds, amount * unit.nanoseconds⟩

/-- The quotient of a division without remainder whose terms fit words. -/
def wholeQuotient? (numerator denominator : Nat) : Option Nat :=
  if largestWord < numerator ∨ largestWord < denominator then none
  else if numerator % denominator ≠ 0 then none
  else some (numerator / denominator)

/-- The summand of the fraction of an amount; nanoseconds have no fractions. -/
def fractionSummand? (unit : ReadUnit) (digits : List Char) : Option Summand := do
  let numerator ← Text.numeral? 10 digits
  let denominator := 10 ^ digits.length
  if unit.nanoseconds = 1 then none
  else if unit.coarse then
    (wholeQuotient? (numerator * unit.seconds) denominator).map fun n => ⟨n, 0⟩
  else
    let length := unit.seconds * second + unit.nanoseconds
    (wholeQuotient? (numerator * length) denominator).map fun n => ⟨0, n⟩

def isUnitLetter (c : Char) : Bool :=
  ('a' ≤ c && c ≤ 'z') || ('A' ≤ c && c ≤ 'Z') || c == 'µ'

/-- A character inside a number: blanks between digits are passed over. -/
def isNumberChar (c : Char) : Bool :=
  Text.isDigit c || Text.isBlank c

/-- One amount in front of a text: its whole digits, its fraction's digits, its unit, the rest. -/
structure Amount where
  whole : List Char
  fraction : Option (List Char)
  unit : List Char
  rest : List Char

def Amount.ofText (text : List Char) : Amount :=
  let whole := (text.takeWhile isNumberChar).filter Text.isDigit
  match text.dropWhile isNumberChar with
  | '.' :: after =>
      let rest := after.dropWhile isNumberChar
      ⟨whole, some ((after.takeWhile isNumberChar).filter Text.isDigit),
        rest.takeWhile isUnitLetter, rest.dropWhile isUnitLetter⟩
  | rest => ⟨whole, none, rest.takeWhile isUnitLetter, rest.dropWhile isUnitLetter⟩

def addAmount? (total : Nat) (amount : Amount) : Option Nat := do
  let unit ← readUnit? amount.unit
  let total ← add? total (← wholeSummand? unit amount.whole)
  match amount.fraction with
  | some digits => add? total (← fractionSummand? unit digits)
  | none => some total

/-- Fuelled worker of `parseSpoken?`: each unit of fuel adds one amount to the total. -/
def parseSpokenFuel : (fuel total : Nat) → List Char → Option Nat
  | 0, _, _ => none
  | fuel + 1, total, text =>
      let amount := Amount.ofText (Text.trimStart text)
      match addAmount? total amount with
      | none => none
      | some total =>
          if amount.rest.all Text.isBlank then some total
          else parseSpokenFuel fuel total amount.rest

/-- The duration of a spoken text. A lone zero needs no unit. -/
def parseSpoken? (text : List Char) : Option Duration :=
  if text = ['0'] then some ⟨0⟩
  else (parseSpokenFuel (text.length + 1) 0 text).map Duration.mk

end Duration

end FlowFence
