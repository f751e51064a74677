import FlowFence.Route.Reader

/-!
# Route blocks as written

The text of a route: the family marker, and behind it the groups of the session, of the criteria and
of the community in any order; the community may also stand on a line of its own. A match group has
one pair for each criterion that is not open, and may have pairs that name none.
-/

namespace FlowFence

namespace Route

inductive Group where
  | session
  | criteria
  | community
deriving DecidableEq

inductive Pair where
  | criterion (key : Key)
  /-- Words that name no criterion. -/
  | other (words : List (List Char))
deriving DecidableEq

/-- What a writer of blocks is free to choose. -/
structure Layout where
  family : Family
  /-- The groups of the first line, from left to right. -/
  order : List Group
  pairs : List Pair
  /-- The label of the community and its opening parenthesis. -/
  label : List Char
  /-- The least count of digits of the argument. -/
  width : Nat
  /-- What stands between the first line and a community on a later line. -/
  above : List Char
  /-- What follows the last group. -/
  below : List Char

/-! ## Criteria -/

def Key.words : Key → List (List Char)
  | .source => ["src".toList]
  | .destination => ["dst".toList]
  | .sourcePort => ["sport".toList]
  | .destinationPort => ["dport".toList]
  | .protocol => ["next".toList, "header".toList]

def entry (criteria : Criteria) : Key → Option Network ⊕ Nat
  | .source => .inl criteria.source
  | .destination => .inl criteria.destination
  | .sourcePort => .inr criteria.sourcePort
  | .destinationPort => .inr criteria.destinationPort
  | .protocol => .inr criteria.protocol

/-- Open entries are not written. -/
def entryText? : Option Network ⊕ Nat → Option (List Char)
  | .inl block => block.map Network.text
  | .inr number => if number = 0 then none else some (Text.decimal number)

def valueText? (criteria : Criteria) (key : Key) : Option (List Char) :=
  entryText? (entry criteria key)

def Pair.words (criteria : Criteria) : Pair → List (List Char)
  | .criterion key => key.words ++ (valueText? criteria key).toList
  | .other words => words

def Pair.text (criteria : Criteria) (pair : Pair) : List Char :=
  Text.joined ' ' (pair.words criteria)

/-! ## Groups -/

def sessionWords (session : Session) : List (List Char) :=
  [session.name.toList, session.imported.toList, "from".toList, session.neighbor.text]

def sessionText (session : Session) : List Char :=
  '[' :: Text.joined ' ' (sessionWords session) ++ [']']

def pairsText (criteria : Criteria) (pairs : List Pair) : List Char :=
  pairs.flatMap fun pair => pair.text criteria ++ [';', ' ']

def criteriaText (criteria : Criteria) (pairs : List Pair) : List Char :=
  '{' :: ' ' :: pairsText criteria pairs ++ ['}']

/-- The type code of an action and the autonomous system behind it. -/
def codeField (action : Action) : List Char :=
  '0' :: 'x' :: Text.hexadecimal action.code ++ systemDigits

def argumentField (width pattern : Nat) : List Char :=
  '0' :: 'x' :: Text.padded width (Text.hexadecimal pattern)

def kindField : List Char := "generic".toList

def fieldsText (action : Action) (width pattern : Nat) : List Char :=
  kindField ++ ',' :: ' ' :: codeField action ++ ',' :: ' ' :: argumentField width pattern

/-! ## Blocks -/

namespace Layout

def groupText (layout : Layout) (route : Route) (pattern : Nat) : Group → List Char
  | .session => sessionText route.session
  | .criteria => criteriaText route.criteria layout.pairs
  | .community => layout.label ++ fieldsText route.action layout.width pattern ++ [')']

def marker : Family → List Char
  | .ipv4 => "flow4".toList
  | .ipv6 => "flow6".toList

def lineText (layout : Layout) (route : Route) (pattern : Nat) : List Char :=
  marker layout.family ++
    layout.order.flatMap fun group => ' ' :: layout.groupText route pattern group

def block (layout : Layout) (route : Route) (pattern : Nat) : List Char :=
  layout.lineText route pattern ++
    (if .community ∈ layout.order then layout.below
      else '\n' :: layout.above ++ layout.groupText route pattern .community ++ layout.below)

end Layout

end Route

end FlowFence
