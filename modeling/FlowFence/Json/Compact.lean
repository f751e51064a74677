import FlowFence.Json.Value
import FlowFence.Text.Cut
import FlowFence.Text.Numeral

/-!
# Compact JSON text

Values without any space between tokens and members in their order. Inside a text the quotation
mark, the backslash and the control characters below U+0020 are escaped, the common ones by a
letter; every other character stands for itself.
-/

namespace FlowFence

namespace Json

def escapedChar (c : Char) : List Char :=
  match c with
  | '"' => ['\\', '"']
  | '\\' => ['\\', '\\']
  | '\x08' => ['\\', 'b']
  | '\t' => ['\\', 't']
  | '\n' => ['\\', 'n']
  | '\x0C' => ['\\', 'f']
  | '\r' => ['\\', 'r']
  | _ =>
      if c.toNat < 0x20 then ['\\', 'u'] ++ Text.padded 4 (Text.hexadecimal c.toNat) else [c]

def quote (text : String) : List Char :=
  '"' :: text.toList.flatMap escapedChar ++ ['"']

mutual

def compact : Json → List Char
  | .null => "null".toList
  | .boolean true => "true".toList
  | .boolean false => "false".toList
  | .integer value => Text.signedDecimal value
  | .decimal literal => literal.toList
  | .text value => quote value
  | .list items => '[' :: Text.joined ',' (compactItems items) ++ [']']
  | .object members => '{' :: Text.joined ',' (compactMembers members) ++ ['}']

def compactItems : List Json → List (List Char)
  | [] => []
  | item :: items => compact item :: compactItems items

def compactMembers : List (String × Json) → List (List Char)
  | [] => []
  | (key, value) :: members => (quote key ++ ':' :: compact value) :: compactMembers members

end

end Json

end FlowFence
