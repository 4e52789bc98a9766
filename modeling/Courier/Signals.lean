import Courier.Value

/-!
Abort signals, known by their numbers. A signal fires once, and keeps the reason with which it did.
-/

namespace Courier.Signals

/-- The reason of a signal that is among those that have fired. -/
def reason? (fired : List (Nat × Value)) (signal : Option Nat) : Option Value := do
  let s ← signal
  (fired.find? (·.1 = s)).map (·.2)

/-- The signals that have fired after one more has, if it had not done so before. -/
def fire? (fired : List (Nat × Value)) (signal : Nat) (reason : Value) :
    Option (List (Nat × Value)) :=
  if fired.any (·.1 = signal) then none else some (fired ++ [(signal, reason)])

end Courier.Signals
