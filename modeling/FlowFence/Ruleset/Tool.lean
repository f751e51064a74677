import FlowFence.Listing
import FlowFence.Ruleset.Batch
import FlowFence.SystemError
import FlowFence.Text.Utf8

/-!
# The filter tool

Every access to the filter is one run of a command line tool: a transaction is a document on its
standard input, a listing is a document on its standard output. This module says how a request is
put to the tool and what the end of a run means.
-/

namespace FlowFence

inductive GatewayError where
  /-- The command could not be run. -/
  | exec (command : String) (cause : IoError)
  /-- The command ended with another exit code than zero. -/
  | commandFailed (command : String) (exitCode : Int) (output : String)
  /-- A listing is no JSON document of the right form. -/
  | listing
  /-- A program has no statements. -/
  | unsupported (what : String)
deriving DecidableEq, Inhabited

namespace GatewayError

def message : GatewayError → String
  | .exec command cause => "failed to execute '" ++ command ++ "': " ++ cause.message
  | .commandFailed command exitCode output =>
      "'" ++ command ++ "' failed (exit code " ++ toString exitCode ++ "): " ++ output
  | .listing => "nftables JSON error"
  | .unsupported what => "unsupported expression program: " ++ what

def causes : GatewayError → List String
  | .exec _ cause => [cause.message]
  | _ => []

def ofLift (e : LiftError) : GatewayError :=
  .unsupported e.message

end GatewayError

namespace Tool

def defaultBinary : String := "/usr/sbin/nft"

/-- One access to the filter. -/
inductive Request where
  /-- Create a table that may exist already. -/
  | ensureTable (table : String)
  /-- Create a chain and its table, both of which may exist already. -/
  | ensureChain (chain : Chain)
  | listRules (chain : Chain)
  | listObjects (table : String)
  /-- Apply all changes of a batch, or none of them. -/
  | commit (batch : Batch)
  /-- Create named counters and keep those that exist. -/
  | addCounters (table : String) (names : List String)

structure Invocation where
  arguments : List String
  input : Option Document

def apply (document : Document) : Invocation :=
  ⟨["-j", "-f", "-"], some document⟩

def list (what : List String) : Invocation :=
  ⟨["-j", "list"] ++ what, none⟩

/-- The run for a request; a request for no counters at all needs none. -/
def Request.invocation? : Request → Except GatewayError (Option Invocation)
  | .ensureTable table => .ok (some (apply [.addTable table]))
  | .ensureChain chain => .ok (some (apply [.addTable chain.table, .addChain chain]))
  | .listRules chain => .ok (some (list ["chain", tableFamily, chain.table, chain.name]))
  | .listObjects table => .ok (some (list ["table", tableFamily, table]))
  | .commit batch =>
      match Document.ofBatch? batch with
      | .ok document => .ok (some (apply document))
      | .error e => .error (.ofLift e)
  | .addCounters table names =>
      if names.isEmpty then .ok none else .ok (some (apply (names.map (Command.addCounter table))))

def Invocation.command (invocation : Invocation) (binary : String) : String :=
  binary ++ " " ++ String.intercalate " " invocation.arguments

/-- How a run ended; the exit code of a run that was killed is `-1`. -/
structure Finish where
  exitCode : Int
  output : List UInt8
  errors : List UInt8

/-- What bytes of the tool say, without blanks at the ends. -/
def said (bytes : List UInt8) : List Char :=
  Text.trim (Utf8.decodeLossy bytes)

/-- The output of a run, which has failed unless its exit code is zero. -/
def Invocation.output? (invocation : Invocation) (binary : String)
    (finish : Except IoError Finish) : Except GatewayError (List Char) :=
  let command := invocation.command binary
  match finish with
  | .error cause => .error (.exec command cause)
  | .ok finish =>
      let output := said finish.output
      let errors := said finish.errors
      if finish.exitCode = 0 then .ok output
      else
        .error (.commandFailed command finish.exitCode
          (String.ofList (if errors.isEmpty then output else errors)))

inductive Answer where
  | done
  | rules (rules : List InstalledRule)
  | objects (objects : List NamedObject)

def Request.answer? (request : Request) (output : List Char) : Except GatewayError Answer :=
  match request with
  | .listRules _ =>
      match Listing.rules? output with
      | some rules => .ok (.rules rules)
      | none => .error .listing
  | .listObjects _ =>
      match Listing.objects? output with
      | some objects => .ok (.objects objects)
      | none => .error .listing
  | _ => .ok .done

def Request.perform? (request : Request) (binary : String)
    (run : Invocation → Except IoError Finish) : Except GatewayError Answer :=
  match request.invocation? with
  | .error e => .error e
  | .ok none => .ok .done
  | .ok (some invocation) =>
      (invocation.output? binary (run invocation)).bind request.answer?

end Tool

end FlowFence
