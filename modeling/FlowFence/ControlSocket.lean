import FlowFence.Duration.Basic
import FlowFence.SystemError
import FlowFence.Text.Blank
import FlowFence.Text.Cut
import FlowFence.Text.Utf8

/-!
# The control socket of the routing daemon

A query is one line; the reply is lines that begin with a four-digit code, unless they go on from
the line before. The code of the last line is `0000`; a code that begins with 8 or 9 reports an
error. A reply that stops early is taken as far as it goes.
-/

namespace FlowFence

inductive FetchError where
  /-- No reply within the given time. -/
  | timeout (limit : Duration)
  | cancelled
  | io (cause : IoError)
  /-- The routing daemon reported an error. -/
  | rejected (text : String)
deriving DecidableEq, Inhabited

namespace FetchError

def message : FetchError → String
  | .timeout limit => "route query timed out after " ++ limit.compactText
  | .cancelled => "route query cancelled"
  | .io cause => "route socket error: " ++ cause.message
  | .rejected reason => "route query rejected: " ++ reason

def causes : FetchError → List String
  | .io cause => [cause.message]
  | _ => []

end FetchError

namespace ControlSocket

/-- The query for every route of either address family that was learned, with its attributes. -/
def routeQuery : String :=
  "show route where ((net.type = NET_FLOW4 || net.type = NET_FLOW6) && source = RTS_BGP) all"

def request (query : String) : String :=
  query ++ "\n"

/-- The bytes of a line without the carriage return at its end. -/
def dropReturn (line : List UInt8) : List UInt8 :=
  if line.getLast? = some 0x0D then line.dropLast else line

/--
The lines of bytes, given the bytes of the current line in reverse. A line ends with a line feed,
before which one carriage return does not count; what is behind the last line feed is a line too,
unless it is empty.
-/
def linesFrom (current : List UInt8) : List UInt8 → List (List UInt8)
  | [] => if current.isEmpty then [] else [current.reverse]
  | b :: rest =>
      if b = 0x0A then dropReturn current.reverse :: linesFrom [] rest
      else linesFrom (b :: current) rest

def lines (bytes : List UInt8) : List (List UInt8) :=
  linesFrom [] bytes

def report? : List Char → Option (List Char)
  | a :: b :: c :: d :: ' ' :: rest =>
      if (a = '8' ∨ a = '9') ∧ [b, c, d].all Text.isDigit then some (Text.trim rest) else none
  | _ => none

/-- The code and blank of the last line of a reply. -/
def endMark : List Char := "0000 ".toList

def isLast (line : List Char) : Bool :=
  (Text.after? endMark line).isSome

def replyOfLines? : List (List UInt8) → Except FetchError (List Char)
  | [] => .ok []
  | bytes :: rest =>
      match Utf8.decode bytes with
      | .error fault => .error (.io (.data (String.ofList fault.message)))
      | .ok line =>
          match report? line with
          | some reason => .error (.rejected (String.ofList reason))
          | none =>
              if isLast line then .ok (line ++ ['\n'])
              else (replyOfLines? rest).map fun more => line ++ '\n' :: more

def reply? (bytes : List UInt8) : Except FetchError (List Char) :=
  replyOfLines? (lines bytes)

def fetch? (connection : Except IoError (List UInt8)) : Except FetchError (List Char) :=
  match connection with
  | .error cause => .error (.io cause)
  | .ok bytes => reply? bytes

end ControlSocket

end FlowFence
