import Courier.Fault

/-!
What becomes of one exchange: the bytes of the reply or a failure. Outcomes cross between threads
as records; `Outcome.ofPosted?` reads exactly the well-formed ones.
-/

namespace Courier

inductive Outcome where
  | success (body : Bytes)
  | failure (fault : Fault)
  /-- An outcome written into a slot by someone other than a dispatch unit. -/
  | foreign (value : Value)
  deriving Inhabited

namespace Outcome

def isSuccess : Outcome → Bool
  | .success _ => true
  | _ => false

/-- The outcome as a value of this thread. -/
def toValue : Outcome → Value
  | .success body => .record [("ok", .bool true), ("value", .bytes body)]
  | .failure fault => .record [("ok", .bool false), ("error", fault.toValue)]
  | .foreign value => value

/-- The outcome as a record for another thread. -/
def post : Outcome → Attempt Value
  | .success body => .ok (.record [("ok", .bool true), ("value", .bytes body)])
  | .failure fault => do return .record [("ok", .bool false), ("error", ← fault.post)]
  | .foreign value => .ok value

/-- Whether a value is a well-formed posted outcome. -/
def isPosted (v : Value) : Bool :=
  v.isRecord &&
    match v.field "ok" with
    | .bool true => (v.field "value").isBytes
    | .bool false => Fault.isPosted (v.field "error")
    | _ => false

/-- Reads a posted outcome. -/
def ofPosted (v : Value) : Attempt Outcome :=
  match v.field "ok", (v.field "value").bytes? with
  | .bool true, some body => .ok (.success body)
  | _, _ => do return .failure (← Fault.rebuild (v.field "error"))

end Outcome
end Courier
