import FlowFence.Text.Numeral

/-!
# UTF-8

The bytes of a text, and the text of bytes: strictly, with the place and kind of the first fault,
or with U+FFFD in the place of every ill-formed sequence.
-/

namespace FlowFence

namespace Utf8

def encode (text : List Char) : List UInt8 :=
  text.flatMap String.utf8EncodeChar

/-- What stands at the front of a byte sequence. -/
inductive Step where
  /-- A well-formed sequence and the bytes after it. -/
  | scalar (c : Char) (rest : List UInt8)
  /-- An ill-formed sequence of the given length and the bytes after it. -/
  | broken (length : Nat) (rest : List UInt8)
  /-- The bytes end inside a sequence that is well formed so far. -/
  | unfinished

/-- How many bytes a lead byte announces. -/
def width? (lead : UInt8) : Option Nat :=
  if lead < 0x80 then some 1
  else if 0xC2 ≤ lead ∧ lead ≤ 0xDF then some 2
  else if 0xE0 ≤ lead ∧ lead ≤ 0xEF then some 3
  else if 0xF0 ≤ lead ∧ lead ≤ 0xF4 then some 4
  else none

/--
The least and greatest second byte after a lead byte. The narrower ranges leave out overlong
forms, surrogates, and code points above U+10FFFF.
-/
def secondRange (lead : UInt8) : UInt8 × UInt8 :=
  if lead = 0xE0 then (0xA0, 0xBF)
  else if lead = 0xED then (0x80, 0x9F)
  else if lead = 0xF0 then (0x90, 0xBF)
  else if lead = 0xF4 then (0x80, 0x8F)
  else (0x80, 0xBF)

def continueWith : (missing value taken : Nat) → (range : UInt8 × UInt8) → List UInt8 → Step
  | 0, value, _, _, rest => .scalar (Char.ofNat value) rest
  | _ + 1, _, _, _, [] => .unfinished
  | missing + 1, value, taken, range, b :: rest =>
      if range.1 ≤ b ∧ b ≤ range.2 then
        continueWith missing (value * 64 + b.toNat % 64) (taken + 1) (0x80, 0xBF) rest
      else
        .broken taken (b :: rest)

def step (lead : UInt8) (rest : List UInt8) : Step :=
  match width? lead with
  | some 1 => .scalar (Char.ofNat lead.toNat) rest
  | some 2 => continueWith 1 (lead.toNat % 32) 1 (secondRange lead) rest
  | some 3 => continueWith 2 (lead.toNat % 16) 1 (secondRange lead) rest
  | some _ => continueWith 3 (lead.toNat % 8) 1 (secondRange lead) rest
  | none => .broken 1 rest

inductive Fault where
  /-- An ill-formed sequence of `length` bytes begins at `index`. -/
  | invalid (length index : Nat)
  /-- The last sequence, which begins at `index`, is cut off. -/
  | incomplete (index : Nat)
deriving DecidableEq

def Fault.message : Fault → List Char
  | .invalid length index =>
      "invalid utf-8 sequence of ".toList ++ Text.decimal length ++ " bytes from index ".toList ++
        Text.decimal index
  | .incomplete index => "incomplete utf-8 byte sequence from index ".toList ++ Text.decimal index

/-- Fuelled worker of `decode`: each unit of fuel reads one character. -/
def decodeFuel : (fuel total : Nat) → List UInt8 → Except Fault (List Char)
  | 0, _, _ => .ok []
  | _, _, [] => .ok []
  | fuel + 1, total, lead :: rest =>
      match step lead rest with
      | .scalar c after => (decodeFuel fuel total after).map (c :: ·)
      | .broken length _ => .error (.invalid length (total - (rest.length + 1)))
      | .unfinished => .error (.incomplete (total - (rest.length + 1)))

def decode (bytes : List UInt8) : Except Fault (List Char) :=
  decodeFuel bytes.length bytes.length bytes

def decodeLossyFuel : Nat → List UInt8 → List Char
  | 0, _ => []
  | _, [] => []
  | fuel + 1, lead :: rest =>
      match step lead rest with
      | .scalar c after => c :: decodeLossyFuel fuel after
      | .broken _ after => '\uFFFD' :: decodeLossyFuel fuel after
      | .unfinished => ['\uFFFD']

/-- The text of bytes, with one U+FFFD for each ill-formed sequence. -/
def decodeLossy (bytes : List UInt8) : List Char :=
  decodeLossyFuel bytes.length bytes

end Utf8

end FlowFence
