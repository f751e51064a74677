/-!
# Named counters

The counters that the filter keeps by name for the rules of the chain.
-/

namespace FlowFence

namespace NamedCounter

def handled : String := "flowspec_handled"

def dropped : String := "flowspec_dropped"

/-- Counts the traffic that meets the criteria of a rule with a rate. -/
def limitMatched : String := "flowspec_limit_matched"

def all : List String :=
  [handled, dropped, limitMatched]

end NamedCounter

end FlowFence
