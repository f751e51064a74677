import FlowFence.ControlSocket

/-!
# The client of the control socket

A reply arrives in pieces that are cut anywhere, inside a line, between the two bytes of a line end or
inside a character. The client takes byte by byte: it puts lines together, adds each to the text, and
is done with the first line that reports an error, is the last of the reply or is no text. What has
begun when the connection is closed is a line as well.
-/

namespace FlowFence

namespace ControlSocket

inductive Client where
  /-- It has the text of the lines so far and, in reverse, the bytes of the line that has begun. -/
  | reading (text : List Char) (begun : List UInt8)
  | done (result : Except FetchError (List Char))

namespace Client

def start : Client :=
  .reading [] []

def takeLine (text : List Char) (bytes : List UInt8) : Client :=
  match Utf8.decode bytes with
  | .error fault => .done (.error (.io (.data (String.ofList fault.message))))
  | .ok line =>
      match report? line with
      | some reason => .done (.error (.rejected (String.ofList reason)))
      | none =>
          let text := text ++ (line ++ ['\n'])
          if isLast line then .done (.ok text) else .reading text []

def takeByte : Client → UInt8 → Client
  | .reading text begun, byte =>
      if byte = 0x0A then takeLine text (dropReturn begun.reverse)
      else .reading text (byte :: begun)
  | .done result, _ => .done result

def receive (client : Client) (piece : List UInt8) : Client :=
  piece.foldl takeByte client

/-- The text of the lines, whether or not the last of them has ended the reply. -/
def result : Client → Except FetchError (List Char)
  | .reading text _ => .ok text
  | .done result => result

def close : Client → Except FetchError (List Char)
  | .reading text begun =>
      if begun.isEmpty then .ok text else (takeLine text begun.reverse).result
  | .done result => result

def collect (pieces : List (List UInt8)) : Except FetchError (List Char) :=
  (pieces.foldl receive start).close

end Client

end ControlSocket

end FlowFence
