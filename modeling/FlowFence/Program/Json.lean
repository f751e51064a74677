import FlowFence.Json.Compact
import FlowFence.Program.Basic

/-!
# Programs as JSON

Each expression is an object with one member, named for its kind. The order of the fields is fixed,
so equal programs have equal texts.
-/

namespace FlowFence

namespace Expression

def toJson : Expression → Json
  | .load header offset length target =>
      .keyed "PayloadLoad" (.object [("base", .text (headerName header)),
        ("offset", .natural offset), ("len", .natural length),
        ("dest_register", .natural target)])
  | .mask source target length kept flip =>
      .keyed "BitwiseMask" (.object [("source_register", .natural source),
        ("dest_register", .natural target), ("len", .natural length), ("mask", .bytes kept),
        ("xor", .bytes flip)])
  | .compare register data =>
      .keyed "Compare" (.object [("register", .natural register), ("op", .text "Eq"),
        ("data", .bytes data)])
  | .loadProtocol target =>
      .keyed "MetaMatch" (.object [("key", .text "L4Proto"), ("register", .natural target)])
  | .limit unit rate above =>
      .keyed "RateLimit" (.object [("limit_type", .text (unitName unit)), ("rate", .natural rate),
        ("unit", .text "Second"), ("over", .boolean above)])
  | .counterRef name =>
      .keyed "CounterRef" (.object [("object_type", .text "Counter"), ("name", .text name)])
  | .counter packets bytes =>
      .keyed "Counter" (.object [("packets", .natural packets), ("bytes", .natural bytes)])
  | .drop => .keyed "Verdict" (.object [("kind", .text "Drop")])

end Expression

namespace Program

def toJson (program : Program) : Json :=
  .object [("exprs", .list (program.map Expression.toJson))]

def serialized (program : Program) : List Char :=
  program.toJson.compact

end Program

end FlowFence
