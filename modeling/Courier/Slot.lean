import Courier.Value

/-!
Response slots: one outcome from one writer to one reader. A slot leaves the empty state once, by
a send, a drop or an abandonment, and then never changes. A receive settles once: with the
outcome, with nothing if the writer was dropped, or with the reason of an abort.
-/

namespace Courier

namespace Slot

inductive State (ρ : Type) where
  | empty
  | sent (outcome : ρ)
  | dropped
  | abandoned

/-- How a receive ended. -/
inductive Reading (ρ : Type) where
  | got (outcome : Option ρ)
  | refused (reason : Value)

/-- How far the one receive has come. -/
inductive Reader (ρ : Type) where
  | unread
  | waiting
  | settled (reading : Reading ρ)

end Slot

structure Slot (ρ : Type) where
  state : Slot.State ρ
  reader : Slot.Reader ρ

namespace Slot

variable {ρ : Type}

def new : Slot ρ := ⟨.empty, .unread⟩

instance : Inhabited (Slot ρ) := ⟨new⟩

/-- Whether the writer may still deliver. -/
def isOpen (s : Slot ρ) : Bool :=
  match s.state with
  | .empty => true
  | _ => false

/-- Settles a waiting reader. -/
def notify (s : Slot ρ) (reading : Reading ρ) : Slot ρ :=
  match s.reader with
  | .waiting => { s with reader := .settled reading }
  | _ => s

/-- Delivers an outcome; refused unless the slot is empty. -/
def send (s : Slot ρ) (outcome : ρ) : Slot ρ × Bool :=
  match s.state with
  | .empty => ({ s with state := .sent outcome }.notify (.got (some outcome)), true)
  | _ => (s, false)

/-- Releases the writer without an outcome. -/
def drop (s : Slot ρ) : Slot ρ :=
  match s.state with
  | .empty => { s with state := .dropped }.notify (.got none)
  | _ => s

/-- Gives up on the outcome. -/
def abandon (s : Slot ρ) : Slot ρ :=
  match s.state with
  | .empty => { s with state := .abandoned }
  | _ => s

/-- The reader's signal fires: a waiting reader gives up with the reason. -/
def abort (s : Slot ρ) (reason : Value) : Slot ρ :=
  match s.reader with
  | .waiting => { s.abandon with reader := .settled (.refused reason) }
  | _ => s

def alreadyReceived : Value := Value.plainError "Response slot already received"

/-- Receives the outcome; `fired` is the reason of a signal that has fired already. A second
receive is refused and changes nothing. -/
def receive (s : Slot ρ) (fired : Option Value) : Slot ρ × Option (Reading ρ) :=
  match s.reader with
  | .unread =>
    let settle (s : Slot ρ) (reading : Reading ρ) : Slot ρ × Option (Reading ρ) :=
      ({ s with reader := .settled reading }, some reading)
    match s.state, fired with
    | .sent outcome, _ => settle s (.got (some outcome))
    | .dropped, _ => settle s (.got none)
    | _, some reason => settle s.abandon (.refused reason)
    | _, none => ({ s with reader := .waiting }, none)
  | _ => (s, some (.refused alreadyReceived))

/-- What the receive settled with between two states. -/
def settledSince (old new : Slot ρ) : Option (Reading ρ) :=
  match old.reader, new.reader with
  | .waiting, .settled reading => some reading
  | _, _ => none

end Slot
end Courier
