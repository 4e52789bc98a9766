import Courier.Value.Clone
import Courier.Value.Inspect

/-!
A value that nothing caught on a worker thread, as the owning thread sees it. An error keeps its
name, its code and its causes, a symbol its description, and any other value is copied; what
cannot be copied is shown by its display.
-/

namespace Courier.Value

/-- The description that is cut out of a symbol's text by its length in bytes. -/
def surfacedSymbol (description : String) : String :=
  if description.toList.all fun c => c.toNat < 0x80 then description else description ++ ")"

/-- A value other than an error or a symbol: a copy, or its display. -/
def surfacedPlain (v : Value) : Value :=
  match v with
  | .buffer _ | .port => .bare []
  | v =>
    match v.clone with
    | .ok copy => copy
    | .error _ => .string ((displayAt display 0 0 v).toOption.getD "")

/-- An uncaught value on the owning thread. The error of a failed copy arrives without a message. -/
def surfaced : Value → Value
  | .symbol description => .symbol (surfacedSymbol description)
  | .error name message cause =>
    .error ⟨keptName name.family, name.given, name.heading⟩ message (surfaced cause)
  | .fault _ message _ cause =>
    .error ⟨"Error", some "HttpTransportError", none⟩ message (surfaced cause)
  | .coded _ none _ => .error "Error" (.string "") .undefined
  | .coded name (some code) message => .coded name (some code) message
  | v => surfacedPlain v

end Courier.Value
