import FlowFence.Json.Reader

/-!
# Listings of the filter

The filter tool answers a listing with one JSON document whose member `nftables` is a list of
entries. An entry is an object whose members are named for the kind of thing they describe. From a
listing of a chain the rules are read, from one of a table the objects with a name. An empty text
is an empty listing.
-/

namespace FlowFence

/-- A rule of a chain, by the number that the filter gave it. -/
structure InstalledRule where
  handle : Nat
deriving DecidableEq, Inhabited

inductive NamedObject where
  | counter (name : String) (packets bytes : Nat)
  /-- A quota, limit, set or anything else. -/
  | other (kind name : String)
deriving DecidableEq, Inhabited

namespace Listing

/-- The entries of a listing, each with its members ordered by name. -/
abbrev Entry := List (String × Json)

def entriesKey : List Char := "nftables".toList

def entryOf? : Json → Option Entry
  | .object members => some members
  | _ => none

/--
The entries that a written value denotes: a list of objects. The value stands inside the document,
so one level of nesting less is left for it.
-/
def entriesOfWritten? (value : Json.Written) : Option (List Entry) :=
  match Json.ofWritten? (Json.deepestNesting - 1) value with
  | some (.list items) => items.mapM entryOf?
  | _ => none

/--
The entries among the members of a document. The member that holds them may be missing but not
occur twice; the values of all others are not looked at, so only their grammar counts.
-/
def entriesOfMembers? :
    Option (List Entry) → List (List Json.TextUnit × Json.Written) → Option (List Entry)
  | found, [] => some (found.getD [])
  | found, (key, value) :: members =>
      match Json.textOfUnits? key with
      | none => none
      | some name =>
          if name = entriesKey then
            match found, entriesOfWritten? value with
            | none, some entries => entriesOfMembers? (some entries) members
            | _, _ => none
          else entriesOfMembers? found members

/--
The entries of a document. It is an object, or a list that holds the value of its one field or
nothing.
-/
def entriesOfDocument? : Json.Written → Option (List Entry)
  | .object members => entriesOfMembers? none members
  | .list [] => some []
  | .list [value] => entriesOfWritten? value
  | _ => none

def entries? (listing : List Char) : Option (List Entry) :=
  if listing.isEmpty then some []
  else (Json.Written.ofText? listing).bind entriesOfDocument?

def Entry.member? (entry : Entry) (kind : String) : Option Json :=
  entry.lookup kind

/-- The rule that a body describes: an object with a handle, or a list of it alone. -/
def ruleOf? : Json → Option InstalledRule
  | .list [handle] => (handle.asNatural? Json.largestWord).map InstalledRule.mk
  | .object members =>
      (members.lookup "handle").bind fun handle =>
        (handle.asNatural? Json.largestWord).map InstalledRule.mk
  | _ => none

/-- The rules of entries, in order; entries that describe no rule are passed over. -/
def rulesOf? (entries : List Entry) : Option (List InstalledRule) :=
  (entries.filterMap fun entry => entry.member? "rule").mapM ruleOf?

def rules? (listing : List Char) : Option (List InstalledRule) :=
  (entries? listing).bind rulesOf?

def counterOfFields? (name packets bytes : Json) : Option NamedObject :=
  match name.asText?, packets.asNatural? Json.largestWord, bytes.asNatural? Json.largestWord with
  | some name, some packets, some bytes => some (.counter name packets bytes)
  | _, _, _ => none

/-- The counter that a body describes: an object, or a list of its three fields. -/
def counterOf? : Json → Option NamedObject
  | .list [name, packets, bytes] => counterOfFields? name packets bytes
  | .object members =>
      match members.lookup "name", members.lookup "packets", members.lookup "bytes" with
      | some name, some packets, some bytes => counterOfFields? name packets bytes
      | _, _, _ => none
  | _ => none

/-- The kinds of members that are not objects of a table. -/
def structuralKinds : List String :=
  ["metainfo", "table", "chain", "rule"]

/-- The objects that a member describes: one or none, or nothing if a counter is malformed. -/
def objectsOfMember? (kind : String) (body : Json) : Option (List NamedObject) :=
  if kind ∈ structuralKinds then some []
  else if kind = "counter" then (counterOf? body).map fun counter => [counter]
  else
    match (body.member? "name").bind Json.asText? with
    | some name => some [.other kind name]
    | none => some []

def objectsOfMembers? : List (String × Json) → Option (List NamedObject)
  | [] => some []
  | (kind, body) :: members =>
      match objectsOfMember? kind body, objectsOfMembers? members with
      | some objects, some more => some (objects ++ more)
      | _, _ => none

def objectsOf? (entries : List Entry) : Option (List NamedObject) :=
  objectsOfMembers? entries.flatten

def objects? (listing : List Char) : Option (List NamedObject) :=
  (entries? listing).bind objectsOf?

end Listing

end FlowFence
