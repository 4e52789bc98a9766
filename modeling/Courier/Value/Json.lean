import Courier.Json
import Courier.Text.Calendar
import Courier.Value.Text

/-!
The JSON document of a value. Values without one (undefined, functions, symbols) are left out of
records and stand as null in lists; a bigint throws. A record that has a `toJSON` of its own is what
that returns, which is nothing. An object may have code that is asked instead.
-/

namespace Courier.Value

mutual
/-- The JSON document of a value, none if the value has none. -/
def json? : Value → Attempt (Option Json)
  | .undefined | .function | .symbol _ => .ok none
  | .null => .ok (some .null)
  | .bool b => .ok (some (.bool b))
  | .number x => .ok (some (if x.isFinite then .number x else .null))
  | .string s => .ok (some (.string s))
  | .bigint _ => .error (typeError "Do not know how to serialize a BigInt")
  | .array items => do return some (.array (← jsonItems items))
  | .record fields | .bare fields =>
    if (lookup fields "toJSON").isFunction then .ok none
    else do return some (.object (← jsonFields fields))
  | .bytes content =>
    .ok (some (.object (content.zipIdx.map fun (b, i) =>
      (toString i, .number (.ofNat b.toNat)))))
  | .buffer content =>
    .ok (some (.object [("type", .string "Buffer"),
      ("data", .array (content.map fun b => .number (.ofNat b.toNat)))]))
  | .words content =>
    .ok (some (.object (content.zipIdx.map fun (w, i) => (toString i, .number (.ofNat w)))))
  | .date ms => .ok (some ((Text.isoText? ms.toInt?).elim .null .string))
  | .error ⟨_, some given, _⟩ _ _ => .ok (some (.object [("name", .string given)]))
  | .block _ | .map _ | .port | .object _ | .error .. | .coded .. => .ok (some (.object []))
  | .fault kind message status cause => do
    -- The cause is put into words before anything is written.
    let _ ← cause.describe
    let fields := [("kind", ← json? kind), ("message", ← json? message),
      ("status", ← json? status), ("cause", ← describedJson cause)]
    return some (.object (fields.filterMap fun (name, j) => j.map (name, ·)))
  | .custom _ document _ => document.map some

/-- The document of what stands for a cause. -/
def describedJson : Value → Attempt (Option Json)
  | .undefined => .ok none
  | .error _ message _ | .coded _ _ message | .fault _ message _ _ => json? message
  | v => do return some (.string (← v.text))

def jsonItems : List Value → Attempt (List Json)
  | [] => .ok []
  | v :: rest => do return (← json? v).getD .null :: (← jsonItems rest)

def jsonFields : List (String × Value) → Attempt (List (String × Json))
  | [] => .ok []
  | (name, v) :: rest => do
    let head := (← json? v).toList.map fun j => (name, j)
    return head ++ (← jsonFields rest)
end

end Courier.Value
