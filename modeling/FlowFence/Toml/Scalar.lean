import FlowFence.Binary64.Text
import FlowFence.Text.Cut
import FlowFence.Text.Numeral
import FlowFence.Toml.Value

/-!
# TOML scalars without quotes

Truth values, numbers, dates and times. Each is a run of letters, digits and a few marks, or two
such runs where a blank stands between a date and a time.
-/

namespace FlowFence

namespace Toml

/-! ## Numbers -/

/-- Digits of a base without the single underscores that may stand between two of them. -/
def plainDigits? (base : Nat) (text : List Char) : Option (List Char) :=
  let groups := Text.splitWhere (· == '_') text
  if groups.all fun group => (Text.numeral? base group).isSome then some groups.flatten else none

/-- Digits of a decimal number: no zero stands in front of another digit. -/
def wholeDigits? (text : List Char) : Option (List Char) :=
  match plainDigits? 10 text with
  | some ('0' :: _ :: _) => none
  | digits => digits

def fitsWord (negative : Bool) (magnitude : Nat) : Bool :=
  if negative then magnitude ≤ 2 ^ 127 else magnitude < 2 ^ 128

def isInteger (text : List Char) : Bool :=
  let based (base : Nat) (digits : List Char) : Bool :=
    match (plainDigits? base digits).bind (Text.numeral? base) with
    | some magnitude => fitsWord false magnitude
    | none => false
  match text with
  | '0' :: 'x' :: digits => based 16 digits
  | '0' :: 'o' :: digits => based 8 digits
  | '0' :: 'b' :: digits => based 2 digits
  | _ =>
      let (negative, digits) := Text.takeSign text
      match (wholeDigits? digits).bind (Text.numeral? 10) with
      | some magnitude => fitsWord negative magnitude
      | none => false

def cutExponent (text : List Char) : List Char × Option (List Char) :=
  match text.dropWhile fun c => c ≠ 'e' ∧ c ≠ 'E' with
  | [] => (text, none)
  | _ :: exponent => (text.takeWhile fun c => c ≠ 'e' ∧ c ≠ 'E', some exponent)

def exponentDigits? (text : List Char) : Option (List Char) :=
  let (negative, digits) := Text.takeSign text
  (plainDigits? 10 digits).map fun digits => if negative then '-' :: digits else digits

/-- A number with a fraction or an exponent, in the plain form without signs and underscores. -/
def plainFraction? (text : List Char) : Option (List Char) := do
  let (mantissa, exponent) := cutExponent text
  let exponent ← match exponent with
    | some exponent => (exponentDigits? exponent).map ('e' :: ·)
    | none => some []
  match Text.cut? ['.'] mantissa with
  | some (whole, fraction) =>
      some ((← wholeDigits? whole) ++ '.' :: (← plainDigits? 10 fraction) ++ exponent)
  | none => if exponent.isEmpty then none else some ((← wholeDigits? mantissa) ++ exponent)

def isFraction (text : List Char) : Bool :=
  let (_, unsigned) := Text.takeSign text
  if unsigned = "inf".toList ∨ unsigned = "nan".toList then true
  else
    match (plainFraction? unsigned).bind Binary64.ofText? with
    | some value => value.isFinite
    | none => false

/-! ## Dates and times -/

def fixedDigits? (count least greatest : Nat) (text : List Char) : Option Nat :=
  if text.length = count then
    (Text.numeral? 10 text).filter fun n => least ≤ n ∧ n ≤ greatest
  else none

def daysIn (year month : Nat) : Nat :=
  if month = 2 then
    if year % 4 = 0 ∧ (year % 100 ≠ 0 ∨ year % 400 = 0) then 29 else 28
  else if month ∈ [4, 6, 9, 11] then 30
  else 31

def isDate (text : List Char) : Bool :=
  match Text.splitWhere (· == '-') text with
  | [year, month, day] =>
      match fixedDigits? 4 0 9999 year, fixedDigits? 2 1 12 month with
      | some year, some month => (fixedDigits? 2 1 (daysIn year month) day).isSome
      | _, _ => false
  | _ => false

def isSeconds (text : List Char) : Bool :=
  match Text.cut? ['.'] text with
  | some (seconds, fraction) =>
      (fixedDigits? 2 0 60 seconds).isSome && (Text.numeral? 10 fraction).isSome
  | none => (fixedDigits? 2 0 60 text).isSome

/-- Whether a text is a time of day; the seconds may be missing. -/
def isTime (text : List Char) : Bool :=
  match Text.splitWhere (· == ':') text with
  | [hour, minute] => (fixedDigits? 2 0 23 hour).isSome && (fixedDigits? 2 0 59 minute).isSome
  | [hour, minute, seconds] =>
      (fixedDigits? 2 0 23 hour).isSome && (fixedDigits? 2 0 59 minute).isSome &&
        isSeconds seconds
  | _ => false

/-- Whether a text is a distance from universal time, without its sign. -/
def isOffset (text : List Char) : Bool :=
  match Text.splitWhere (· == ':') text with
  | [hours, minutes] => (fixedDigits? 2 0 23 hours).isSome && (fixedDigits? 2 0 59 minutes).isSome
  | _ => false

def isZonedTime (text : List Char) : Bool :=
  match text.dropWhile fun c => c ∉ ['Z', 'z', '+', '-'] with
  | [] => isTime text
  | mark :: offset =>
      isTime (text.takeWhile fun c => c ∉ ['Z', 'z', '+', '-']) &&
        (if mark = 'Z' ∨ mark = 'z' then offset.isEmpty else isOffset offset)

def isMoment (text : List Char) : Bool :=
  isDate text || isTime text ||
    (match text.drop 10 with
     | mark :: time => mark ∈ ['T', 't', ' '] && isDate (text.take 10) && isZonedTime time
     | [] => false)

/-! ## Scalars -/

def isScalarChar (c : Char) : Bool :=
  (Text.digitValue? c).isSome || c ∈ ['_', '+', '-', '.', ':']

def ofRun? (run : List Char) : Option Toml :=
  if run = "true".toList then some (.boolean true)
  else if run = "false".toList then some (.boolean false)
  else if isInteger run || isFraction run then some (.number (String.ofList run))
  else if isMoment run then some (.moment (String.ofList run))
  else none

/-- The run that a text begins with, and the rest; a date takes a time behind a blank along. -/
def takeRun (text : List Char) : List Char × List Char :=
  let run := text.takeWhile isScalarChar
  match text.dropWhile isScalarChar with
  | ' ' :: digit :: rest =>
      if isDate run && Text.isDigit digit then
        let tail := digit :: rest
        (run ++ ' ' :: tail.takeWhile isScalarChar, tail.dropWhile isScalarChar)
      else (run, ' ' :: digit :: rest)
  | rest => (run, rest)

def scalar? (text : List Char) : Option (Toml × List Char) :=
  let (run, rest) := takeRun text
  (ofRun? run).map (·, rest)

end Toml

end FlowFence
