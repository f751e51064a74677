/-!
# Numerals

Reading and writing of natural numbers in a base up to thirty-six, and the plain decimal form of
machine words: one leading plus sign and leading zeros are accepted there, nothing else.
-/

namespace FlowFence

namespace Text

/-- The value of an ASCII digit or letter, letters counting from ten in either case. -/
def digitValue? (c : Char) : Option Nat :=
  if '0' ≤ c ∧ c ≤ '9' then some (c.toNat - '0'.toNat)
  else if 'a' ≤ c ∧ c ≤ 'z' then some (c.toNat - 'a'.toNat + 10)
  else if 'A' ≤ c ∧ c ≤ 'Z' then some (c.toNat - 'A'.toNat + 10)
  else none

def digitIn? (base : Nat) (c : Char) : Option Nat :=
  (digitValue? c).filter (· < base)

def isDigit (c : Char) : Bool :=
  '0' ≤ c && c ≤ '9'

def readDigits (base : Nat) : Nat → List Char → Option Nat
  | value, [] => some value
  | value, c :: rest =>
      match digitIn? base c with
      | some digit => readDigits base (value * base + digit) rest
      | none => none

/-- The positional value of a text of one or more digits of the given base, and of nothing else. -/
def numeral? (base : Nat) (text : List Char) : Option Nat :=
  if text.isEmpty then none else readDigits base 0 text

/-- An optional sign in front of a numeral: whether it is a minus, and what follows. -/
def takeSign : List Char → Bool × List Char
  | '-' :: rest => (true, rest)
  | '+' :: rest => (false, rest)
  | text => (false, text)

/-- An unsigned decimal machine word: an optional plus sign and digits, of value at most `limit`. -/
def word? (limit : Nat) (text : List Char) : Option Nat :=
  let digits := match text with
    | '+' :: digits => digits
    | _ => text
  (numeral? 10 digits).filter (· ≤ limit)

/-- The decimal digits of a number, without leading zeros. -/
def decimal (n : Nat) : List Char :=
  Nat.toDigits 10 n

def hexadecimal (n : Nat) : List Char :=
  Nat.toDigits 16 n

def signedDecimal : Int → List Char
  | .ofNat n => decimal n
  | .negSucc n => '-' :: decimal (n + 1)

def padded (count : Nat) (digits : List Char) : List Char :=
  List.replicate (count - digits.length) '0' ++ digits

end Text

end FlowFence
