import Courier.Value.Number

/-!
Call ids: one counter hands out consecutive numbers. Counting is exact up to `2 ^ 53`, where the
next number is no longer a binary64 number and the counter stays.
-/

namespace Courier

/-- A counter holds the next id. -/
inductive CallId where
  | number (x : Binary64)
  | whole (n : Int)

namespace CallId

/-- A counter that starts with 1. -/
def first : CallId := .number 1

/-- A counter that starts with a given value, read as a number; undefined stands for 1. -/
def startingAt : Value → Attempt CallId
  | .undefined => .ok first
  | v => do
    match ← v.measured with
    | .bigint n => return .whole n
    | p => return .number (← p.toNumber)

/-- The next id, and the counter after it. -/
def draw : CallId → Value × CallId
  | .number x => (.number x, .number x.addOne)
  | .whole n => (.bigint n, .whole (n + 1))

/-- The next `count` ids. -/
def drawMany (c : CallId) : Nat → List Value × CallId
  | 0 => ([], c)
  | count + 1 =>
    let (id, c) := c.draw
    let (ids, c) := c.drawMany count
    (id :: ids, c)

/-- The first `count` ids from a starting value, which is looked at when the first one is drawn. -/
def sequence (start : Value) (count : Nat) : Attempt (List Value) := do
  if count = 0 then return []
  return ((← startingAt start).drawMany count).1

end CallId
end Courier
