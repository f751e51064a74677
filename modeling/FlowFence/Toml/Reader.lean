import FlowFence.Toml.Quoted
import FlowFence.Toml.Scalar

/-!
# TOML documents

A document is a sequence of lines: headers, definitions of keys, comments. Its value is the table
that the definitions make, taken in order.
-/

namespace FlowFence

namespace Toml

/-- How many lists and tables in braces may stand inside one another. -/
def deepestNesting : Nat := 80

/-! ## Blanks and comments -/

def dropSpaces (text : List Char) : List Char :=
  text.dropWhile isSpace

/-- What follows a comment that a text may begin with: a line end or nothing. -/
def afterComment : List Char → List Char
  | '#' :: rest => rest.dropWhile isLineChar
  | others => others

/-- What follows the rest of a line on which only blanks and a comment are left. -/
def afterLine? (text : List Char) : Option (List Char) :=
  match afterComment (dropSpaces text) with
  | [] => some []
  | rest => afterLineEnd? rest

def dropLinesFuel : Nat → List Char → List Char
  | 0, text => text
  | fuel + 1, text =>
      match afterLineEnd? (afterComment (dropSpaces text)) with
      | some rest => dropLinesFuel fuel rest
      | none => dropSpaces text

def dropLines (text : List Char) : List Char :=
  dropLinesFuel (text.length + 1) text

/-! ## Keys -/

def isBareChar (c : Char) : Bool :=
  (Text.digitValue? c).isSome || c == '_' || c == '-'

def keyPart? (text : List Char) : Option (String × List Char) :=
  let bare := text.takeWhile isBareChar
  if bare.isEmpty then (quoted? text).map fun (name, rest) => (String.ofList name, rest)
  else some (String.ofList bare, text.dropWhile isBareChar)

def keyFuel : Nat → List Char → Option (List String × List Char)
  | 0, _ => none
  | fuel + 1, text =>
      match keyPart? (dropSpaces text) with
      | none => none
      | some (name, rest) =>
          match dropSpaces rest with
          | '.' :: rest => (keyFuel fuel rest).map fun (names, rest) => (name :: names, rest)
          | rest => some ([name], rest)

/-- The key that a text begins with, by its parts, and the rest without blanks in front. -/
def key? (text : List Char) : Option (List String × List Char) :=
  keyFuel (text.length + 1) text

/-! ## Values -/

mutual

/-- Fuelled worker of `value?`, in which lists and tables may nest to the given depth. -/
def valueFuel : (fuel depth : Nat) → List Char → Option (Toml × List Char)
  | 0, _, _ => none
  | fuel + 1, depth, text =>
      match text with
      | '[' :: rest =>
          if depth = 0 then none
          else (itemsFuel fuel (depth - 1) rest).map fun (items, rest) => (.list items, rest)
      | '{' :: rest =>
          if depth = 0 then none
          else
            (pairsFuel fuel (depth - 1) [] rest).map fun (members, rest) =>
              (.table .closed members, rest)
      | c :: _ =>
          if c = '"' ∨ c = '\'' then
            (anyQuoted? text).map fun (value, rest) => (.string (String.ofList value), rest)
          else scalar? text
      | [] => none

def itemsFuel : (fuel depth : Nat) → List Char → Option (List Toml × List Char)
  | 0, _, _ => none
  | fuel + 1, depth, text =>
      match dropLines text with
      | ']' :: rest => some ([], rest)
      | others =>
          match valueFuel fuel depth others with
          | none => none
          | some (item, rest) =>
              match dropLines rest with
              | ',' :: rest =>
                  (itemsFuel fuel depth rest).map fun (items, rest) => (item :: items, rest)
              | ']' :: rest => some ([item], rest)
              | _ => none

/-- The members of a table in braces up to the closing one, added to those before, and the rest. -/
def pairsFuel : (fuel depth : Nat) → Members → List Char → Option (Members × List Char)
  | 0, _, _, _ => none
  | fuel + 1, depth, members, text =>
      match dropLines text with
      | '\x7d' :: rest => some (members, rest)
      | others =>
          match key? others with
          | some (key, '=' :: rest) =>
              match valueFuel fuel depth (dropSpaces rest) with
              | none => none
              | some (value, rest) =>
                  match assign? key value members, dropLines rest with
                  | some members, ',' :: rest => pairsFuel fuel depth members rest
                  | some members, '\x7d' :: rest => some (members, rest)
                  | _, _ => none
          | _ => none

end

def value? (text : List Char) : Option (Toml × List Char) :=
  valueFuel (2 * text.length + 2) deepestNesting text

/-! ## Lines -/

inductive Line where
  | header (path : List String)
  /-- The header of one of several tables. -/
  | entry (path : List String)
  | pair (key : List String) (value : Toml)

/-- The definition that a text begins with, and the rest; the text has no blanks in front. -/
def line? : List Char → Option (Line × List Char)
  | '[' :: '[' :: rest =>
      match key? rest with
      | some (path, ']' :: ']' :: rest) => some (.entry path, rest)
      | _ => none
  | '[' :: rest =>
      match key? rest with
      | some (path, ']' :: rest) => some (.header path, rest)
      | _ => none
  | others =>
      match key? others with
      | some (key, '=' :: rest) =>
          (value? (dropSpaces rest)).map fun (value, rest) => (.pair key value, rest)
      | _ => none

def linesFuel : Nat → List Char → Option (List Line)
  | 0, _ => none
  | fuel + 1, text =>
      match dropLines text with
      | [] => some []
      | others =>
          if (afterComment others).isEmpty then some []
          else
            match line? others with
            | none => none
            | some (line, rest) =>
                match afterLine? rest with
                | none => none
                | some rest => (linesFuel fuel rest).map (line :: ·)

/-- The definitions of a document; a byte order mark in front does not count. -/
def lines? (text : List Char) : Option (List Line) :=
  let text := (Text.after? ['\uFEFF'] text).getD text
  linesFuel (text.length + 1) text

/-- A document that is being read: its members so far and the path of the last header. -/
structure Draft where
  members : Members
  path : List String

def Draft.add? (draft : Draft) : Line → Option Draft
  | .header path => (change? openTable? path draft.members).map fun members => ⟨members, path⟩
  | .entry path => (change? openEntry? path draft.members).map fun members => ⟨members, path⟩
  | .pair key value =>
      let members :=
        if draft.path.isEmpty then assign? key value draft.members
        else change? (assignIn? key value) draft.path draft.members
      members.map fun members => ⟨members, draft.path⟩

def parse? (text : List Char) : Option Members :=
  match lines? text with
  | none => none
  | some lines => (lines.foldlM Draft.add? (⟨[], []⟩ : Draft)).map (·.members)

end Toml

end FlowFence
