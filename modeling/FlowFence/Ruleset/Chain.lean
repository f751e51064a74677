/-!
# Tables and chains

The names of the filter's tables and chains. All of them belong to the family that holds traffic of
both address families.
-/

namespace FlowFence

/-- The filter's family of tables for traffic of both address families. -/
def tableFamily : String := "inet"

structure Chain where
  table : String
  name : String
deriving DecidableEq, Inhabited

def Chain.text (chain : Chain) : String :=
  tableFamily ++ " " ++ chain.table ++ " " ++ chain.name

end FlowFence
