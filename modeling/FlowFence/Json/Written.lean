import FlowFence.Text.Numeral

/-!
# JSON as written

The grammar of JSON texts, before any number or text is given a value. Reading at this level knows
no limits: code units of a text need not pair up, numbers may be of any size and values may nest
to any depth. What a written value denotes is the subject of `FlowFence.Json.Reader`.
-/

namespace FlowFence

namespace Json

/-- A character of a text, or the code unit that four hexadecimal digits stand for. -/
inductive TextUnit where
  | char (c : Char)
  | code (unit : Nat)

inductive Written where
  | null
  | boolean (value : Bool)
  /-- A number by its digits; `fraction` is empty without a point, which needs a digit after it. -/
  | number (negative : Bool) (whole fraction : List Char) (exponent : Option Int)
  | text (units : List TextUnit)
  | list (items : List Written)
  | object (members : List (List TextUnit × Written))

def skipSpace (text : List Char) : List Char :=
  text.dropWhile fun c => c == ' ' || c == '\n' || c == '\t' || c == '\r'

def escapeLetter? : Char → Option Char
  | '"' => some '"'
  | '\\' => some '\\'
  | '/' => some '/'
  | 'b' => some '\x08'
  | 'f' => some '\x0C'
  | 'n' => some '\n'
  | 'r' => some '\r'
  | 't' => some '\t'
  | _ => none

def codeUnit? (a b c d : Char) : Option Nat :=
  Text.numeral? 16 [a, b, c, d]

/-- The units of a text up to its closing quotation mark, and what follows. -/
def readUnits : List Char → Option (List TextUnit × List Char)
  | [] => none
  | '"' :: rest => some ([], rest)
  | '\\' :: 'u' :: a :: b :: c :: d :: rest =>
      match codeUnit? a b c d, readUnits rest with
      | some unit, some (units, after) => some (.code unit :: units, after)
      | _, _ => none
  | '\\' :: letter :: rest =>
      match escapeLetter? letter, readUnits rest with
      | some c, some (units, after) => some (.char c :: units, after)
      | _, _ => none
  | c :: rest =>
      if c.toNat < 0x20 then none
      else (readUnits rest).map fun (units, after) => (.char c :: units, after)

/-- The digits before the point: a single zero, or digits that do not begin with one. -/
def readWhole? : List Char → Option (List Char × List Char)
  | '0' :: rest => some (['0'], rest)
  | source =>
      let digits := source.takeWhile Text.isDigit
      if digits.isEmpty then none else some (digits, source.dropWhile Text.isDigit)

def readFraction? : List Char → Option (List Char × List Char)
  | '.' :: rest =>
      let digits := rest.takeWhile Text.isDigit
      if digits.isEmpty then none else some (digits, rest.dropWhile Text.isDigit)
  | rest => some ([], rest)

def readExponent? (text : List Char) : Option (Option Int × List Char) :=
  match text with
  | mark :: rest =>
      if mark = 'e' ∨ mark = 'E' then
        let (negative, rest) := Text.takeSign rest
        match Text.numeral? 10 (rest.takeWhile Text.isDigit) with
        | some n =>
            some (some (if negative then -(n : Int) else (n : Int)), rest.dropWhile Text.isDigit)
        | none => none
      else some (none, text)
  | [] => some (none, [])

def readNumber? (source : List Char) : Option (Written × List Char) := do
  let (negative, rest) := match source with
    | '-' :: rest => (true, rest)
    | _ => (false, source)
  let (whole, rest) ← readWhole? rest
  let (fraction, rest) ← readFraction? rest
  let (exponent, rest) ← readExponent? rest
  some (.number negative whole fraction exponent, rest)

mutual

def readValue? : Nat → List Char → Option (Written × List Char)
  | 0, _ => none
  | fuel + 1, source =>
      match skipSpace source with
      | 'n' :: 'u' :: 'l' :: 'l' :: rest => some (.null, rest)
      | 't' :: 'r' :: 'u' :: 'e' :: rest => some (.boolean true, rest)
      | 'f' :: 'a' :: 'l' :: 's' :: 'e' :: rest => some (.boolean false, rest)
      | '"' :: rest => (readUnits rest).map fun (units, after) => (.text units, after)
      | '[' :: rest =>
          match skipSpace rest with
          | ']' :: after => some (.list [], after)
          | _ => (readItems? fuel rest).map fun (items, after) => (.list items, after)
      | '{' :: rest =>
          match skipSpace rest with
          | '}' :: after => some (.object [], after)
          | _ => (readMembers? fuel rest).map fun (members, after) => (.object members, after)
      | rest => readNumber? rest

def readItems? : Nat → List Char → Option (List Written × List Char)
  | 0, _ => none
  | fuel + 1, source =>
      match readValue? fuel source with
      | some (item, rest) =>
          match skipSpace rest with
          | ']' :: after => some ([item], after)
          | ',' :: rest => (readItems? fuel rest).map fun (items, after) => (item :: items, after)
          | _ => none
      | none => none

def readMembers? : Nat → List Char → Option (List (List TextUnit × Written) × List Char)
  | 0, _ => none
  | fuel + 1, source =>
      match skipSpace source with
      | '"' :: rest =>
          match readUnits rest with
          | some (key, rest) =>
              match skipSpace rest with
              | ':' :: rest =>
                  match readValue? fuel rest with
                  | some (value, rest) =>
                      match skipSpace rest with
                      | '}' :: after => some ([(key, value)], after)
                      | ',' :: rest =>
                          (readMembers? fuel rest).map fun (members, after) =>
                            ((key, value) :: members, after)
                      | _ => none
                  | none => none
              | _ => none
          | none => none
      | _ => none

end

/--
The one value that a whole text writes. Every value, item and member takes at least one character
and at most two steps, so twice the length of the text is fuel enough.
-/
def Written.ofText? (text : List Char) : Option Written :=
  match readValue? (2 * text.length + 2) text with
  | some (value, rest) => if (skipSpace rest).isEmpty then some value else none
  | none => none

end Json

end FlowFence
