import FlowFence.Text.Quoted

/-!
# Events

What the daemon reports about itself: a message with named values, of a level and from a part of
the daemon, its target.
-/

namespace FlowFence

namespace Log

/-- How important an event is, the most important level first. -/
inductive Level where
  | error
  | warn
  | info
  | debug
  | trace
deriving DecidableEq, Inhabited

namespace Level

def rank : Level → Nat
  | .error => 1
  | .warn => 2
  | .info => 3
  | .debug => 4
  | .trace => 5

def name : Level → String
  | .error => "ERROR"
  | .warn => "WARN"
  | .info => "INFO"
  | .debug => "DEBUG"
  | .trace => "TRACE"

end Level

/-- A named value of an event: the text of a thing, or a text in quotes. -/
inductive FieldValue where
  | plain (text : String)
  | quoted (text : String)
deriving DecidableEq, Inhabited

def FieldValue.text : FieldValue → String
  | .plain text => text
  | .quoted text => String.ofList (Text.quoted text.toList)

structure Event where
  level : Level
  target : String
  message : String
  fields : List (String × FieldValue)
deriving DecidableEq, Inhabited

def Event.text (event : Event) : String :=
  event.fields.foldl (fun text (name, value) => text ++ " " ++ name ++ "=" ++ value.text)
    event.message

def Event.fieldNames (event : Event) : List String :=
  "message" :: event.fields.map (·.1)

end Log

end FlowFence
