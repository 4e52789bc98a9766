import Courier.Value.Number
import Courier.Value.Received

/-!
The bytes of a value that stands for bytes: those of a text are its UTF-8, those of a list the
numbers of its items, each counted modulo 256.
-/

namespace Courier

/-- The most bytes that a list of bytes can have. -/
def Value.mostBytes : Nat := Nat.pow 2 53 - 1

/-- How many bytes there is room for at once. -/
structure Memory where
  room : Nat
  room_le : room ≤ Value.mostBytes

namespace Value

def outOfMemory : Value := .error "RangeError" (.string "Array buffer allocation failed") .undefined

def octet (v : Value) : Attempt UInt8 := do return UInt8.ofNat ((← v.toNumber).wrapped 256)

/-- The bytes of a record that looks like a list: as many items as its length says. -/
def octetsOfList (memory : Memory) (fields : List (String × Value)) (length : Value) :
    Attempt Bytes :=
  match length with
  | .number x =>
    let count := (x.toInt?.getD 0).toNat
    if memory.room < count ∨ x = .infinite false then .error outOfMemory
    else (List.range count).mapM fun i => (lookup fields (toString i)).octet
  | _ => .ok []

def noOctets (v : Value) : Attempt Bytes := do
  throw (← v.invalidArgument ("The first argument must be of type string or an instance of Buffer,"
    ++ " ArrayBuffer, or Array or an Array-like Object"))

def isBlock : Value → Bool
  | .block _ => true
  | _ => false

/-- The bytes of a record with no value of its own: those of the list that it looks like or that it
wraps. A record that shows a block of memory stands for no bytes. -/
def octetsOfFields (memory : Memory) (v : Value) (fields : List (String × Value)) :
    Attempt Bytes :=
  match lookup fields "length", lookup fields "type", lookup fields "data" with
  | .undefined, .string "Buffer", .array items =>
    if (lookup fields "buffer").isBlock then .ok [] else items.mapM octet
  | .undefined, _, _ => if (lookup fields "buffer").isBlock then .ok [] else v.noOctets
  | length, _, _ => octetsOfList memory fields length

/-- The bytes of a record. -/
def octetsOfRecord (memory : Memory) (v : Value) (fields : List (String × Value)) :
    Attempt Bytes :=
  match lookup fields "valueOf" with
  | .string "" => .ok []
  | method =>
    if method.truthy && !method.isFunction then .error (notAFunction "value.valueOf")
    else octetsOfFields memory v fields

/-- The bytes that a value stands for, as far as there is room for them. -/
def octets (memory : Memory) (v : Value) : Attempt Bytes :=
  match v with
  | .string s => .ok (Text.utf8 s)
  | .bytes content | .buffer content | .block content => .ok content
  | .words content => .ok (content.map UInt8.ofNat)
  | .array items => items.mapM octet
  | .record fields | .bare fields => octetsOfRecord memory v fields
  | .date _ => do return Text.utf8 (← v.innerText)
  | v => v.noOctets

end Value
end Courier
