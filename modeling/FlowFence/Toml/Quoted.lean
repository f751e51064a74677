import FlowFence.Text.Cut
import FlowFence.Text.Numeral

/-!
# Quoted text in TOML

Texts between quotation marks, in which a backslash begins an escape, and between apostrophes, in
which every character stands for itself. Three marks in a row enclose a text of several lines; a
line end right behind the opening ones does not count, and up to two further marks may stand in
front of the closing ones. Control characters other than the tab have to be escaped.
-/

namespace FlowFence

namespace Toml

def isLineChar (c : Char) : Bool :=
  c == '\t' || (0x20 ≤ c.toNat && c.toNat ≠ 0x7F)

def afterLineEnd? : List Char → Option (List Char)
  | '\n' :: rest => some rest
  | '\r' :: '\n' :: rest => some rest
  | _ => none

def isSpace (c : Char) : Bool :=
  c == ' ' || c == '\t'

def codePoint? (count : Nat) (text : List Char) : Option (Char × List Char) :=
  if count ≤ text.length then
    ((Text.numeral? 16 (text.take count)).filter fun n => n.isValidChar).map fun n =>
      (Char.ofNat n, text.drop count)
  else none

def escape? : List Char → Option (Char × List Char)
  | 'b' :: rest => some ('\x08', rest)
  | 't' :: rest => some ('\t', rest)
  | 'n' :: rest => some ('\n', rest)
  | 'f' :: rest => some ('\x0C', rest)
  | 'r' :: rest => some ('\r', rest)
  | 'e' :: rest => some ('\x1B', rest)
  | '"' :: rest => some ('"', rest)
  | '\\' :: rest => some ('\\', rest)
  | 'x' :: rest => codePoint? 2 rest
  | 'u' :: rest => codePoint? 4 rest
  | 'U' :: rest => codePoint? 8 rest
  | _ => none

def consRead (c : Char) (read : List Char × List Char) : List Char × List Char :=
  (c :: read.1, read.2)

/-! ## One line -/

/-- Fuelled worker of `basic?`: each unit of fuel reads one character. -/
def basicFuel : Nat → List Char → Option (List Char × List Char)
  | 0, _ => none
  | fuel + 1, text =>
      match text with
      | '"' :: rest => some ([], rest)
      | '\\' :: rest =>
          match escape? rest with
          | some (c, rest) => (basicFuel fuel rest).map (consRead c)
          | none => none
      | c :: rest => if isLineChar c then (basicFuel fuel rest).map (consRead c) else none
      | [] => none

def basic? (text : List Char) : Option (List Char × List Char) :=
  basicFuel (text.length + 1) text

def literal? (text : List Char) : Option (List Char × List Char) :=
  match Text.cut? ['\''] text with
  | some (inside, rest) => if inside.all isLineChar then some (inside, rest) else none
  | none => none

/-! ## Several lines -/

def lineEnd? : List Char → Option (List Char × List Char)
  | '\n' :: rest => some (['\n'], rest)
  | '\r' :: '\n' :: rest => some (['\r', '\n'], rest)
  | _ => none

/-- What is left of a text behind blanks and a line end, all further blanks and line ends. -/
def continued? (text : List Char) : Option (List Char) :=
  let rest := text.dropWhile isSpace
  (afterLineEnd? rest).map fun _ =>
    rest.dropWhile fun c => isSpace c || c == '\n' || c == '\r'

/-- Fuelled worker of `multiline?`: each unit of fuel reads a character, an escape or marks. -/
def multilineFuel (mark : Char) : Nat → List Char → Option (List Char × List Char)
  | 0, _ => none
  | fuel + 1, text =>
      let marks := text.takeWhile (· == mark)
      if 3 ≤ marks.length then
        if marks.length ≤ 5 then some (marks.drop 3, text.drop marks.length) else none
      else
        match text with
        | [] => none
        | c :: rest =>
            if c = '\\' ∧ mark = '"' then
              match continued? rest with
              | some rest => multilineFuel mark fuel rest
              | none =>
                  match escape? rest with
                  | some (c, rest) => (multilineFuel mark fuel rest).map (consRead c)
                  | none => none
            else if isLineChar c then (multilineFuel mark fuel rest).map (consRead c)
            else
              match lineEnd? text with
              | some (lineEnd, rest) =>
                  (multilineFuel mark fuel rest).map fun (inside, rest) =>
                    (lineEnd ++ inside, rest)
              | none => none

def multiline? (mark : Char) (text : List Char) : Option (List Char × List Char) :=
  multilineFuel mark (text.length + 1) ((afterLineEnd? text).getD text)

/-! ## All forms -/

def quoted? : List Char → Option (List Char × List Char)
  | '"' :: rest => basic? rest
  | '\'' :: rest => literal? rest
  | _ => none

def anyQuoted? : List Char → Option (List Char × List Char)
  | '"' :: '"' :: '"' :: rest => multiline? '"' rest
  | '\'' :: '\'' :: '\'' :: rest => multiline? '\'' rest
  | others => quoted? others

end Toml

end FlowFence
