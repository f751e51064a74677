import FlowFence.Binary32
import FlowFence.Route.Basic
import FlowFence.Text.BaseNumeral
import FlowFence.Text.Cut
import FlowFence.Text.DecimalDigit
import FlowFence.Text.Quoted

/-!
# Reading a route block

A block is the text of one route. Its first line holds the family, the match group between braces
and the session group between brackets; the community group follows its label anywhere in the
block. Each group is found by its own delimiters, so their order does not matter.
-/

namespace FlowFence

inductive SessionFault where
  /-- A session is four words. -/
  | wordCount (found : Nat)
  /-- The fourth word is no address. -/
  | neighbor (text : String)
deriving DecidableEq

inductive CommunityFault where
  /-- A community is three fields. -/
  | fieldCount (found : Nat)
  /-- The second field is no number. -/
  | code (field : String)
  /-- The third field is no single-precision pattern of a 64-bit integer. -/
  | argument (field : String)
  | negativeRate (field : String)
deriving DecidableEq

inductive RouteError where
  /-- The first line does not begin with a family. -/
  | header (line : String)
  /-- A known match key has a value that it does not allow. -/
  | criterion (key : String)
  | session (fault : SessionFault)
  | community (fault : CommunityFault)
  /-- No action has this type code. -/
  | action (code : Int)
deriving DecidableEq

def SessionFault.message : SessionFault → String
  | .wordCount found => "expected 4 tokens, got " ++ toString found
  | .neighbor text => "invalid neighbor address " ++ text

def CommunityFault.message : CommunityFault → String
  | .fieldCount found => "expected 3 fields, got " ++ toString found
  | .code field => "invalid action code " ++ field
  | .argument field => "invalid argument " ++ field
  | .negativeRate field => "negative rate " ++ field

def RouteError.message : RouteError → String
  | .header line => "invalid route header: " ++ String.ofList (Text.quoted line.toList)
  | .criterion key => "invalid match attribute '" ++ key ++ "'"
  | .session fault => "invalid session attributes: " ++ fault.message
  | .community fault => "invalid community string: " ++ fault.message
  | .action code => "unsupported flowspec action: " ++ String.ofList (Text.wordHexadecimal code)

/-! ## Rates -/

/--
The rate that a field of a community denotes: the bits of a single-precision number in hexadecimal,
with `0x` in front or not, cut off toward zero.
-/
def decodeRate? (field : List Char) : Option Int :=
  let digits := match Text.trim field with
    | '0' :: 'x' :: digits => digits
    | '0' :: 'X' :: digits => digits
    | digits => digits
  ((Text.numeral? 16 digits).filter (· < 2 ^ 32)).bind Binary32.truncate?

namespace Route

/-! ## Header -/

/-- Drop a reply code: four decimal digits of any script and a hyphen or a space. -/
def dropReplyCode (line : List Char) : List Char :=
  match line with
  | a :: b :: c :: d :: mark :: rest =>
      if [a, b, c, d].all Text.isDecimalDigit ∧ (mark = '-' ∨ mark = ' ') then rest else line
  | _ => line

/-- The first line of a block from its family digit on. -/
def header? (block : List Char) : Except RouteError (List Char) :=
  let line := Text.firstLine (Text.trimStart block)
  let coded := dropReplyCode line
  let family := (Text.after? "flow".toList coded).getD coded
  match family with
  | '4' :: _ => .ok family
  | '6' :: _ => .ok family
  | _ => .error (.header (String.ofList line))

/-! ## Session -/

/-- Read a session group: name, time of import, a word that is not looked at, and address. -/
def session? (group : List Char) : Except RouteError Session :=
  match Text.words group with
  | [name, imported, _, neighbor] =>
      match Address.parse? neighbor with
      | some address => .ok ⟨String.ofList name, address, String.ofList imported⟩
      | none => .error (.session (.neighbor (String.ofList neighbor)))
  | words => .error (.session (.wordCount words.length))

/-! ## Criteria -/

inductive Key where
  | source
  | destination
  | sourcePort
  | destinationPort
  | protocol
deriving DecidableEq

/-- The spelling of a key, its words joined by underscores. -/
def Key.spelling : Key → List Char
  | .source => "src".toList
  | .destination => "dst".toList
  | .sourcePort => "sport".toList
  | .destinationPort => "dport".toList
  | .protocol => "next_header".toList

def Key.ofSpelling? (text : List Char) : Option Key :=
  [Key.source, .destination, .sourcePort, .destinationPort, .protocol].find? fun key =>
    key.spelling = text

def assign? (criteria : Criteria) (key : Key) (value : List Char) : Option Criteria :=
  match key with
  | .source => (Network.parse? value).toOption.map fun n => { criteria with source := some n }
  | .destination =>
      (Network.parse? value).toOption.map fun n => { criteria with destination := some n }
  | .sourcePort => (Text.word? 65535 value).map fun n => { criteria with sourcePort := n }
  | .destinationPort => (Text.word? 65535 value).map fun n => { criteria with destinationPort := n }
  | .protocol =>
      ((Text.unsignedNumeral? value).filter (· ≤ 255)).map fun n => { criteria with protocol := n }

/--
The key and the value of one part of a match group: the value is its last word, the key all words
before it. A part of fewer than two words has none.
-/
def keyAndValue? (part : List Char) : Option (List Char × List Char) :=
  match (Text.words part).reverse with
  | value :: last :: words => some (Text.joined '_' (last :: words).reverse, value)
  | _ => none

/-- Add what one part of a match group says; unknown keys say nothing. -/
def addPart (criteria : Criteria) (part : List Char) : Except RouteError Criteria :=
  match keyAndValue? part with
  | none => .ok criteria
  | some (spelling, value) =>
      match Key.ofSpelling? spelling with
      | none => .ok criteria
      | some key =>
          match assign? criteria key value with
          | some criteria => .ok criteria
          | none => .error (.criterion (String.ofList spelling))

def addParts (criteria : Criteria) : List (List Char) → Except RouteError Criteria
  | [] => .ok criteria
  | part :: parts =>
      match addPart criteria part with
      | .ok criteria => addParts criteria parts
      | .error e => .error e

def criteria? (group : List Char) : Except RouteError Criteria :=
  addParts {} (Text.splitWhere (· == ';') group)

/-! ## Community -/

/-- The two labels of the community attribute, each with its opening parenthesis. -/
def communityLabels : List (List Char) :=
  ["BGP.ext_community: (".toList, "bgp_ext_community: (".toList]

/-- The community group of a block: the first one that is not empty, by order of the labels. -/
def communityGroup (block : List Char) : List Char :=
  ((communityLabels.map fun label => Text.between label [')'] block).find? fun group =>
    !group.isEmpty).getD []

/-- The autonomous system of a community, which is written behind the type code. -/
def systemDigits : List Char := "0000".toList

def actionAndArgument? (codeField argumentField : List Char) : Except RouteError (Action × Int) :=
  match Text.signedNumeral? ((Text.before? systemDigits codeField).getD codeField) with
  | none => .error (.community (.code (String.ofList codeField)))
  | some code =>
      match Action.ofCode? code with
      | none => .error (.action code)
      | some action =>
          match decodeRate? argumentField with
          | none => .error (.community (.argument (String.ofList argumentField)))
          | some argument =>
              if action.isRate ∧ argument < 0 then
                .error (.community (.negativeRate (String.ofList argumentField)))
              else .ok (action, argument)

/-- Read a community group: three fields, the first of which is not looked at. -/
def community? (group : List Char) : Except RouteError (Action × Int) :=
  match (Text.splitOn ", ".toList group).map Text.trim with
  | [_, codeField, argumentField] => actionAndArgument? codeField argumentField
  | fields => .error (.community (.fieldCount fields.length))

/-! ## Blocks -/

def matchGroup (header : List Char) : List Char :=
  Text.between ['{', ' '] [' ', '}'] header

def sessionGroup (header : List Char) : List Char :=
  Text.between ['['] [']'] header

def parse (block : List Char) : Except RouteError Route := do
  let header ← header? block
  let session ← session? (sessionGroup header)
  let criteria ← criteria? (matchGroup header)
  let (action, argument) ← community? (communityGroup block)
  .ok ⟨session, criteria, action, argument⟩

end Route

end FlowFence
