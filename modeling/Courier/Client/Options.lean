import Courier.Value

/-!
Settings of the default network client, and the reference by which any thread can load it.
-/

namespace Courier.Client

/-- Whether a setting is absent or a positive number. -/
def isLimit : Value → Bool
  | .undefined => true
  | .number x => x.isPositive
  | _ => false

/-- Settings of the default client: connections kept open or not, a limit of connections per host
and a limit of idle time. -/
def areOptions (v : Value) : Bool :=
  v.isRecord && ((v.field "keepAlive").isUndefined || (v.field "keepAlive").isBool)
    && isLimit (v.field "maxSockets") && isLimit (v.field "timeout")

/-- Whether a value can serve as a network client. -/
def isClient (v : Value) : Bool :=
  v.isRecord && (v.field "request").isFunction
    && ((v.field "close").isUndefined || (v.field "close").isFunction)

/-- The reference to the default client in the library's own client module. -/
def defaultReference (library : String) (options : Value) : Value :=
  .record ([("module", Value.string library), ("exportName", .string "createDefaultClient")]
    ++ match options with
      | .undefined => []
      | v => [("options", v)])

end Courier.Client
