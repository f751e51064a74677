/-!
# TOML values

The value of a TOML document and the rules by which headers and dotted keys define its tables. A
table is defined once: by its header, by dotted keys, or in one piece on one line. A table that only
stood on the way to another may still get a header of its own; all other definitions that meet are
refused.
-/

namespace FlowFence

inductive TableOrigin where
  | header
  /-- It stands on the way to a table with a header. -/
  | passed
  /-- It stands on the way to a dotted key. -/
  | dotted
  /-- It is written in braces and complete. -/
  | closed
deriving DecidableEq, Inhabited

inductive Toml where
  | string (value : String)
  | boolean (value : Bool)
  | number (literal : String)
  | moment (literal : String)
  | list (items : List Toml)
  | table (origin : TableOrigin) (members : List (String × Toml))
  /-- Tables with a header in double brackets each, in order. -/
  | tables (entries : List (List (String × Toml)))
deriving Inhabited

namespace Toml

/-- The members of a table, in the order of their definition. -/
abbrev Members := List (String × Toml)

/-- Set the member of a name, behind all others if there is none yet. -/
def set (name : String) (value : Toml) : Members → Members
  | [] => [(name, value)]
  | (key, old) :: members =>
      if key = name then (key, value) :: members else (key, old) :: set name value members

def assign? : List String → Toml → Members → Option Members
  | [], _, _ => none
  | [name], value, members =>
      if (members.lookup name).isSome then none else some (set name value members)
  | name :: more, value, members =>
      match members.lookup name with
      | none => (assign? more value []).map fun inner => set name (.table .dotted inner) members
      | some (.table .dotted inner) =>
          (assign? more value inner).map fun inner => set name (.table .dotted inner) members
      | some (.table .passed inner) =>
          if more.length = 1 then none
          else
            (assign? more value inner).map fun inner => set name (.table .passed inner) members
      | some _ => none

/--
Change the member at the path of a header. Missing tables on the way are made; on the way through
tables that were listed the last one counts; a complete table cannot be entered.
-/
def change? (change : Option Toml → Option Toml) : List String → Members → Option Members
  | [], _ => none
  | [name], members => (change (members.lookup name)).map fun value => set name value members
  | name :: path, members =>
      match members.lookup name with
      | none => (change? change path []).map fun inner => set name (.table .passed inner) members
      | some (.table .closed _) => none
      | some (.table origin inner) =>
          (change? change path inner).map fun inner => set name (.table origin inner) members
      | some (.tables entries) =>
          match entries.getLast? with
          | none => none
          | some last =>
              (change? change path last).map fun last =>
                set name (.tables (entries.dropLast ++ [last])) members
      | some _ => none

def openTable? : Option Toml → Option Toml
  | none => some (.table .header [])
  | some (.table .passed members) => some (.table .header members)
  | some _ => none

def openEntry? : Option Toml → Option Toml
  | none => some (.tables [[]])
  | some (.tables entries) => some (.tables (entries ++ [[]]))
  | some _ => none

def assignIn? (key : List String) (value : Toml) : Option Toml → Option Toml
  | some (.table origin members) => (assign? key value members).map (.table origin)
  | some (.tables entries) =>
      match entries.getLast? with
      | none => none
      | some last =>
          (assign? key value last).map fun last => .tables (entries.dropLast ++ [last])
  | _ => none

end Toml

end FlowFence
