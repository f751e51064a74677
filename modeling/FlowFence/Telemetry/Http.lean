import FlowFence.Telemetry.Page

/-!
# Telemetry over HTTP

Two resources are served: the telemetry page and a sign of life. Both can be read and asked for
without their content; nothing else can be done with them.
-/

namespace FlowFence

namespace Http

structure Request where
  method : String
  target : String
deriving DecidableEq, Inhabited

structure Response where
  status : Nat
  contentType : Option String
  body : List Char
deriving DecidableEq, Inhabited

def statusPhrase : Nat → String
  | 200 => "OK"
  | 404 => "Not Found"
  | 405 => "Method Not Allowed"
  | _ => ""

def Response.statusLine (response : Response) : String :=
  "HTTP/1.1 " ++ toString response.status ++ " " ++ statusPhrase response.status

/-- The path of a target that may name the server: what follows the server's name. -/
def withoutServer (target : List Char) : List Char :=
  match Text.cut? "://".toList target with
  | some (_, rest) => rest.dropWhile fun c => c ≠ '/' ∧ c ≠ '?' ∧ c ≠ '#'
  | none => target

def pathOf (target : List Char) : List Char :=
  let target := if target.head? = some '/' then target else withoutServer target
  target.takeWhile fun c => c ≠ '?' ∧ c ≠ '#'

inductive Resource where
  | metrics
  | health
deriving DecidableEq

def Resource.at? (path : List Char) : Option Resource :=
  if path = "/metrics".toList then some .metrics
  else if path = "/health".toList then some .health
  else none

def Resource.contentType : Resource → String
  | .metrics => "text/plain; version=0.0.4"
  | .health => "text/plain; charset=utf-8"

def Resource.content (telemetry : Telemetry) : Resource → List Char
  | .metrics => telemetry.page
  | .health => "ok".toList

def bare (status : Nat) : Response :=
  ⟨status, none, []⟩

def respond (telemetry : Telemetry) (request : Request) : Response :=
  match Resource.at? (pathOf request.target.toList) with
  | none => bare 404
  | some resource =>
      if request.method = "GET" then
        ⟨200, some resource.contentType, resource.content telemetry⟩
      else if request.method = "HEAD" then ⟨200, some resource.contentType, []⟩
      else bare 405

end Http

end FlowFence
