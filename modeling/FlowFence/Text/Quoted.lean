import FlowFence.Text.Glyphless
import FlowFence.Text.Numeral

/-!
# Quoted text

A text between double quotes on one line, in which every character that has no glyph of its own
is spelled out: the common control characters by a letter, all others by their code point.
-/

namespace FlowFence

namespace Text

def quotedChar (c : Char) : List Char :=
  match c with
  | '\x00' => ['\\', '0']
  | '\t' => ['\\', 't']
  | '\r' => ['\\', 'r']
  | '\n' => ['\\', 'n']
  | '\\' => ['\\', '\\']
  | '"' => ['\\', '"']
  | _ => if isGlyphless c then ['\\', 'u', '{'] ++ hexadecimal c.toNat ++ ['}'] else [c]

def quoted (text : List Char) : List Char :=
  '"' :: text.flatMap quotedChar ++ ['"']

end Text

end FlowFence
